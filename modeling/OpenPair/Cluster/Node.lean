import OpenPair.Cluster.Requests
import OpenPair.Library.Tasks
import OpenPair.Trust.PinStore

/-! The pairing endpoint (`node.rs`): its tables, and what each of its calls does
from one await point to the next.

A handle is named by the call that made the session. A call that finds the lock
of a session held stays where it is.
-/

set_option autoImplicit false

namespace OpenPair

open Tasks

/-- Where a paired peer is pinned, and the gate on new joins. -/
structure TrustSink (T : Type) where
  pinPeer : T → Paired → T
  isClustered : T → Bool

/-- A call, by the invite it is for. -/
structure CallId where
  inviteId : String
  serial : Nat
  deriving DecidableEq

variable (c : Crates) (T : Type)

-- `Mutex<JoinerSession>`.
structure JoinerCell where
  session : JoinerSession c
  held : Bool := false

structure PairingNode where
  profile : NodeProfile
  trust : T
  joiners : Table CallId := ∅
  inviters : Table CallId := ∅
  pending : Table PendingInvite := ∅
  /-- The sessions behind the handles; no call awaits while it holds an inviter session. -/
  joinerSessions : CallId → Option (JoinerCell c) := fun _ => none
  inviterSessions : CallId → Option (InviterSession c) := fun _ => none

inductive Call where
  | request (env : PairingEnvelope)
  /-- With the UUID that `create_invite` draws. -/
  | createInvite (inviteId joinerAddr : String)
  | submitPin (inviteId pin : String)

/-- Where a call waits, with what it holds. -/
inductive Point where
  -- `on_initial_request`
  | initialLookup (msg : Bytes)
  | initialSession (msg : Bytes) (handle : CallId)
  | initialEvict (handle : CallId) (reply : Reply)
  | initialPending (invite : PendingInvite) (reply : Reply)
  -- `on_completion_request`
  | completionLookup (blob : Bytes)
  | completionSession (blob : Bytes) (handle : CallId)
  -- `on_signal`
  | cancelJoiner
  | cancelPending
  | endInvite
  -- `create_invite`
  | createAwait (joinerAddr : String) (session : InviterSession c)
  | createInsert (session : InviterSession c) (pin : String)
  -- `submit_pin`
  | submitLookup (pin : String)
  | submitFeed (pin : String) (handle : CallId)
  | submitAwait (inviterAddr : String) (handle : CallId)
  | submitSession (inviterAddr : String) (handle : CallId) (resp : PairingEnvelope)
  | submitPaired (inviterAddr : String) (handle : CallId)
  | submitForget (inviterAddr : String) (paired : Paired)
  | submitForgetPending (inviterAddr : String) (paired : Paired)
  | submitAck (paired : Paired)
  | failAwait (step : Step)
  | failForget (step : Step)
  | failForgetPending (step : Step)
  | returned
  | panicked

/-- What the awaited operations give in a turn: random draws, the answer to a
POST, and the PIN of `mint_pin`. -/
structure Io where
  draws : Draws c
  response : Except String PairingEnvelope
  pin : Fin 1000000

variable {c T}

def Call.inviteId : Call → String
  | .request env => env.inviteId
  | .createInvite inviteId _ => inviteId
  | .submitPin inviteId _ => inviteId

inductive Result where
  | replied (reply : Reply)
  | invited (result : Except String (String × String))
  | submitted (result : Except String Paired)

structure Observed where
  posted : Option (String × PairingEnvelope) := none
  pinned : Option Paired := none
  returned : Option Result := none

/-- `{:06}`. -/
def mintPin (draw : Fin 1000000) : String :=
  let digits := toString draw.val
  String.ofList (List.replicate (6 - digits.length) '0') ++ digits

namespace PairingNode

variable (c T) in
abbrev Turn := Tasks.Turn (PairingNode c T) (Point c) Observed

variable (n : PairingNode c T)

def waits (point : Point c) : Turn c T := ⟨n, point, {}⟩

def returns (result : Result) : Turn c T := ⟨n, .returned, { returned := some result }⟩

def posts (addr : String) (env : PairingEnvelope) (point : Point c) : Turn c T :=
  ⟨n, point, { posted := some (addr, env) }⟩

def joiner (handle : CallId) : Option (JoinerSession c) :=
  (n.joinerSessions handle).bind fun cell => if cell.held then none else some cell.session

def setJoiner (handle : CallId) (session : JoinerSession c) (held : Bool) : PairingNode c T :=
  { n with joinerSessions := Function.update n.joinerSessions handle (some ⟨session, held⟩) }

def setInviter (handle : CallId) (session : InviterSession c) : PairingNode c T :=
  { n with inviterSessions := Function.update n.inviterSessions handle (some session) }

def forgetJoiner (inviteId : String) : PairingNode c T :=
  { n with joiners := n.joiners.erase inviteId }

def forgetPending (inviteId : String) : PairingNode c T :=
  { n with pending := n.pending.erase inviteId }

def forgetInviter (inviteId : String) : PairingNode c T :=
  { n with inviters := n.inviters.erase inviteId }

variable (sink : TrustSink T) (id : CallId)

/-! ## The joiner's side of the Initial Exchange -/

def initialLookup (msg : Bytes) : Turn c T :=
  match n.joiners.lookup id.inviteId with
  | some handle => n.waits (.initialSession msg handle)
  | none =>
    if firstType c msg ≠ some 1 then
      n.returns (.replied (.badRequest (.signal id.inviteId Phase.initial "invalid EAP-NOOB message")))
    else if sink.isClustered n.trust then
      n.returns (.replied (.conflict (.refusal Reason.alreadyClustered)))
    else
      let session := JoinerSession.new c (n.profile.pairingInfo c none)
      let n := { n with joiners := n.joiners.insert id.inviteId id }
      (n.setJoiner id session false).waits (.initialSession msg id)

/-- The lock is kept while the handle of a refused message is removed. -/
def initialSession (draws : Draws c) (msg : Bytes) (handle : CallId) (s : JoinerSession c) :
    Turn c T :=
  match s.initialRequest draws id.inviteId msg with
  | (s, none) => (n.setJoiner handle s false).waits .panicked
  | (s, some (.error e)) =>
    (n.setJoiner handle s true).waits (.initialEvict handle (initialReply id.inviteId (.error e)))
  | (s, some (.ok (reply, none))) => (n.setJoiner handle s false).returns (.replied reply)
  | (s, some (.ok (reply, some invite))) =>
    (n.setJoiner handle s false).waits (.initialPending invite reply)

def initialEvict (handle : CallId) (reply : Reply) : Turn c T :=
  let n := n.forgetJoiner id.inviteId
  let sessions := Function.update n.joinerSessions handle
    ((n.joinerSessions handle).map fun cell => { cell with held := false })
  returns { n with joinerSessions := sessions } (.replied reply)

def initialPending (invite : PendingInvite) (reply : Reply) : Turn c T :=
  returns { n with pending := n.pending.insert invite.inviteId invite } (.replied reply)

/-! ## The inviter's side of the Completion Exchange -/

def completionLookup (blob : Bytes) : Turn c T :=
  match n.inviters.lookup id.inviteId with
  | some handle => n.waits (.completionSession blob handle)
  | none =>
    n.returns (.replied
      (.conflict (.signal id.inviteId Phase.completion "unknown or expired inviteId")))

def completionSession (draws : Draws c) (blob : Bytes) (handle : CallId) (s : InviterSession c) :
    Turn c T :=
  match s.completionRequest draws id.inviteId blob with
  | (s, none) => (n.setInviter handle s).waits .panicked
  | (s, some (reply, none)) => (n.setInviter handle s).returns (.replied reply)
  | (s, some (reply, some paired)) =>
    let n := { n.setInviter handle s with trust := sink.pinPeer n.trust paired }
    ⟨n, .returned, { pinned := some paired, returned := some (.replied reply) }⟩

/-! ## Driving an exchange -/

def createAwait (io : Io c) (joinerAddr : String) (s : InviterSession c) : Turn c T :=
  match io.response with
  | .error e => n.returns (.invited (.error e))
  | .ok resp =>
    match s.initialResponse io.draws resp with
    | (_, none) => n.waits .panicked
    | (_, some (.error e)) => n.returns (.invited (.error e))
    | (s, some (.ok (some msg))) =>
      n.posts joinerAddr (.withMsg c id.inviteId Phase.initial msg) (.createAwait joinerAddr s)
    | (s, some (.ok none)) =>
      match s.invite (mintPin io.pin) with
      | .error e => n.returns (.invited (.error e))
      | .ok s => n.waits (.createInsert s (mintPin io.pin))

def createInsert (s : InviterSession c) (pin : String) : Turn c T :=
  let n := { n with inviters := n.inviters.insert id.inviteId id }
  (n.setInviter id s).returns (.invited (.ok (id.inviteId, pin)))

def submitLookup (pin : String) : Turn c T :=
  match n.joiners.lookup id.inviteId with
  | some handle => n.waits (.submitFeed pin handle)
  | none => n.returns (.submitted (.error "unknown or evicted inviteId"))

def submitFeed (pin : String) (handle : CallId) (s : JoinerSession c) : Turn c T :=
  match s.beginCompletion pin with
  | (s, .error e) => (n.setJoiner handle s false).returns (.submitted (.error e))
  | (s, .ok addr) =>
    (n.setJoiner handle s false).posts addr (.signal id.inviteId Phase.completion "")
      (.submitAwait addr handle)

def submitSession (draws : Draws c) (addr : String) (handle : CallId) (resp : PairingEnvelope)
    (s : JoinerSession c) : Turn c T :=
  match s.completionResponse draws resp with
  | (s, none) => (n.setJoiner handle s false).waits .panicked
  | (s, some (.error e)) => (n.setJoiner handle s false).returns (.submitted (.error e))
  | (s, some (.ok (.send msg))) =>
    (n.setJoiner handle s false).posts addr (.withMsg c id.inviteId Phase.completion msg)
      (.submitAwait addr handle)
  | (s, some (.ok (.done step))) =>
    if step.success then (n.setJoiner handle s false).waits (.submitPaired addr handle)
    else
      (n.setJoiner handle s false).posts addr (.signal id.inviteId Phase.fail step.reason)
        (.failAwait step)

def submitPaired (addr : String) (s : JoinerSession c) : Turn c T :=
  match s.paired with
  | .error e => n.returns (.submitted (.error e))
  | .ok paired =>
    ⟨{ n with trust := sink.pinPeer n.trust paired }, .submitForget addr paired,
      { pinned := some paired }⟩

/-! ## The calls -/

def start : Call → Turn c T
  | .request env =>
    if env.inviteId.isEmpty then
      n.returns (.replied (.badRequest (.signal "" env.phase "missing inviteId")))
    else if env.phase = Phase.initial then n.waits (.initialLookup (env.blob c))
    else if env.phase = Phase.completion then n.waits (.completionLookup (env.blob c))
    else if env.phase = Phase.cancel then n.waits .cancelJoiner
    else if env.phase = Phase.decline ∨ env.phase = Phase.fail ∨ env.phase = Phase.expired then
      n.waits .endInvite
    else if env.phase = Phase.ack then n.returns (.replied (.ok {}))
    else n.returns (.replied (.badRequest (.signal env.inviteId env.phase "unknown phase")))
  | .createInvite inviteId joinerAddr =>
    let session := InviterSession.new c (n.profile.pairingInfo c none)
    n.posts joinerAddr (.withMsg c inviteId Phase.initial session.start)
      (.createAwait joinerAddr session)
  | .submitPin _ pin =>
    if isValidPin pin = false then n.returns (.submitted (.error "pin must be six digits"))
    else n.waits (.submitLookup pin)

/-- A turn with a joiner session, as soon as its lock is free. -/
def withJoiner (handle : CallId) (point : Point c) (turn : JoinerSession c → Turn c T) : Turn c T :=
  match n.joiner handle with
  | none => n.waits point
  | some s => turn s

def advance (io : Io c) (point : Point c) : Turn c T :=
  match point with
  | .initialLookup msg => n.initialLookup sink id msg
  | .initialSession msg handle => n.withJoiner handle point (n.initialSession id io.draws msg handle)
  | .initialEvict handle reply => n.initialEvict id handle reply
  | .initialPending invite reply => n.initialPending invite reply
  | .completionLookup blob => n.completionLookup id blob
  | .completionSession blob handle =>
    match n.inviterSessions handle with
    | none => n.waits point
    | some s => n.completionSession sink id io.draws blob handle s
  | .cancelJoiner => (n.forgetJoiner id.inviteId).waits .cancelPending
  | .cancelPending => (n.forgetPending id.inviteId).returns (.replied (.ok {}))
  | .endInvite => (n.forgetInviter id.inviteId).returns (.replied (.ok {}))
  | .createAwait joinerAddr s => n.createAwait id io joinerAddr s
  | .createInsert s pin => n.createInsert id s pin
  | .submitLookup pin => n.submitLookup id pin
  | .submitFeed pin handle => n.withJoiner handle point (n.submitFeed id pin handle)
  | .submitAwait addr handle =>
    match io.response with
    | .error e => n.returns (.submitted (.error e))
    | .ok resp => n.waits (.submitSession addr handle resp)
  | .submitSession addr handle resp =>
    n.withJoiner handle point (n.submitSession id io.draws addr handle resp)
  | .submitPaired addr handle => n.withJoiner handle point (n.submitPaired sink addr)
  | .submitForget addr paired => (n.forgetJoiner id.inviteId).waits (.submitForgetPending addr paired)
  | .submitForgetPending addr paired =>
    (n.forgetPending id.inviteId).posts addr (.signal id.inviteId Phase.ack "") (.submitAck paired)
  | .submitAck paired => n.returns (.submitted (.ok paired))
  | .failAwait step => n.waits (.failForget step)
  | .failForget step => (n.forgetJoiner id.inviteId).waits (.failForgetPending step)
  | .failForgetPending step =>
    (n.forgetPending id.inviteId).returns (.submitted (.error step.failure))
  | .returned => n.waits .returned
  | .panicked => n.waits .panicked

end PairingNode

variable (c) in
def pairing (sink : TrustSink T) :
    Program (PairingNode c T) CallId Call (Point c) (Io c) Observed where
  name call serial := ⟨call.inviteId, serial⟩
  start := PairingNode.start
  advance n id io point := n.advance sink id io point

end OpenPair
