import OpenPair.Cluster.Session
import OpenPair.Cluster.Wire

/-! What one pairing request, or one response in a drive, does to the session it
is for (`node.rs`, under the session lock). -/

set_option autoImplicit false

namespace OpenPair

variable {c : Crates}

structure Paired where
  peer : PairingInfo
  peerCertDer : Bytes
  kz : ByteArr 32
  cryptosuitep : UInt8
  deriving DecidableEq

def Paired.of (peer : PeerIdentity) (assoc : Association) : Paired :=
  { peer := peer.info
    peerCertDer := peer.certDer
    kz := assoc.kz
    cryptosuitep := assoc.cryptosuitep }

/-- A pending inbound invite awaiting the local user's PIN. -/
structure PendingInvite where
  inviteId : String
  fromNodeUuid : String
  fromName : String
  clusterId : String
  clusterFriendlyName : String
  inviterAddr : String
  deriving DecidableEq

def PendingInvite.of (inviteId : String) (inviter : PeerIdentity) : PendingInvite :=
  { inviteId := inviteId
    fromNodeUuid := inviter.info.nodeUuid
    fromName := inviter.info.name
    clusterId := inviter.info.clusterId
    clusterFriendlyName := inviter.info.clusterFriendlyName
    inviterAddr := inviter.info.addr }

structure Reply where
  status : Nat
  envelope : PairingEnvelope
  deriving DecidableEq, Repr

namespace Reply

def ok (envelope : PairingEnvelope) : Reply := { status := 200, envelope := envelope }

def conflict (envelope : PairingEnvelope) : Reply := { status := 409, envelope := envelope }

def badRequest (envelope : PairingEnvelope) : Reply := { status := 400, envelope := envelope }

end Reply

/-- What `post_pairing` makes of an answer: an explicit refusal is one, any
other status than success an error. -/
def Reply.posted (reply : Reply) : Except Reply PairingEnvelope :=
  if reply.status = 200 ∨ (reply.status = 409 ∧ reply.envelope.rejected = true) then
    .ok reply.envelope
  else .error reply

/-! ## Requests -/

variable (c) in
def firstType (blob : Bytes) : Option Int64 := (c.decodeType blob).bind id

/-- An initial-phase message: the reply with an invite to show, or an error, on
which the session is evicted. -/
def JoinerSession.initialRequest (s : JoinerSession c) (draws : Draws c) (inviteId : String)
    (msg : Bytes) : JoinerSession c × Option (Except String (Reply × Option PendingInvite)) :=
  let handled := s.onInitial draws msg
  (handled.1, handled.2.map fun result => result.map fun bytes =>
    (Reply.ok (.withMsg c inviteId Phase.initial bytes),
      if handled.1.state = .waiting then handled.1.inviter.map (PendingInvite.of inviteId) else none))

def initialReply (inviteId : String) (answer : Except String (Reply × Option PendingInvite)) :
    Reply :=
  match answer with
  | .ok (reply, _) => reply
  | .error e => .badRequest (.signal inviteId Phase.initial e)

def InviterSession.paired (s : InviterSession c) (step : Step) : Option Paired :=
  if step.done && step.success then do
    let peer ← s.joiner
    let assoc ← s.association
    return .of peer assoc
  else none

-- A completion-phase message: the kickoff, or a message for the Server.
def InviterSession.completionRequest (s : InviterSession c) (draws : Draws c) (inviteId : String)
    (blob : Bytes) : InviterSession c × Option (Reply × Option Paired) :=
  if blob.isEmpty then
    (s, some (.ok (.withMsg c inviteId Phase.completion s.start), none))
  else
    let handled := s.onCompletion draws blob
    (handled.1, handled.2.map fun
      | .ok step =>
        (.ok (.withMsg c inviteId Phase.completion (step.send.getD [])), handled.1.paired step)
      | .error e => (.badRequest (.signal inviteId Phase.completion e), none))

/-! ## Drives -/

-- `{:?}` of a state.
def State.debug : State → String
  | .unregistered => "Unregistered"
  | .waiting => "Waiting"
  | .oobReceived => "OobReceived"
  | .reconnecting => "Reconnecting"
  | .registered => "Registered"

/-- `create_invite` on a response: the next message, or none where the Initial Exchange ended. -/
def InviterSession.initialResponse (s : InviterSession c) (draws : Draws c)
    (resp : PairingEnvelope) : InviterSession c × Option (Except String (Option Bytes)) :=
  if resp.rejected then (s, some (.error s!"joiner rejected pairing: {resp.reason}"))
  else
    let stepped := s.onInitial draws (resp.blob c)
    (stepped.1, stepped.2.map fun step =>
      match step.error with
      | some e => .error s!"initial exchange failed: {e}"
      | none =>
        if step.done then .ok none
        else
          match step.send with
          | none => .error "inviter stalled in Initial"
          | some msg => .ok (some msg))

-- The end of `create_invite`: the session that goes into the table.
def InviterSession.invite (s : InviterSession c) (pin : String) : Except String (InviterSession c) :=
  if s.state ≠ .waiting then .error s!"Initial ended in state {s.state.debug}, want Waiting"
  else
    let set := s.setPin pin
    set.2.map fun _ => set.1

-- The start of `submit_pin`: the inviter's address, once the PIN is fed.
def JoinerSession.beginCompletion (s : JoinerSession c) (pin : String) :
    JoinerSession c × Except String String :=
  match s.inviterAddr.filter fun addr => !addr.isEmpty with
  | none => (s, .error "inviter address unknown")
  | some addr =>
    let fed := s.feedPin pin
    (fed.1, fed.2.map fun _ => addr)

-- What `submit_pin` does after a response.
inductive Next where
  | send (msg : Bytes)
  | done (step : Step)

def JoinerSession.completionResponse (s : JoinerSession c) (draws : Draws c)
    (resp : PairingEnvelope) : JoinerSession c × Option (Except String Next) :=
  let stepped := s.onCompletion draws (resp.blob c)
  (stepped.1, stepped.2.map fun step =>
    if step.done then .ok (.done step)
    else
      match step.send with
      | none => .error "joiner stalled in Completion"
      | some msg => .ok (.send msg))

-- What `submit_pin` pins after a success.
def JoinerSession.paired (s : JoinerSession c) : Except String Paired :=
  match s.inviter with
  | none => .error "no inviter identity captured"
  | some inviter =>
    match s.association with
    | none => .error "no association after success"
    | some assoc => .ok (.of inviter assoc)

def Step.reason (step : Step) : String := if step.authFailed then Reason.incorrectPin else ""

def Step.failure (step : Step) : String :=
  let cause := if step.authFailed then " (incorrect pin)" else ""
  let error := step.error.getD ""
  s!"completion failed{cause}: {error}"

end OpenPair
