import OpenPair.Cluster.HonestPairing
import OpenPair.Cluster.Invites

/-! An endpoint that runs one side of a handshake, a call at a time. -/

set_option autoImplicit false

namespace OpenPair

open Tasks Transition

variable {c : Crates} {T : Type} {sink : TrustSink T}

def World.Idle (w : World c T) : Prop := ∀ id task, w.tasks id = some task → task.point.Ended

theorem World.Idle.put {w : World c T} (idle : w.Idle) {id : CallId} {call : Call}
    {turn : PairingNode.Turn c T} (ended : turn.point.Ended) : World.Idle (w.put id call turn) := by
  intro other task found
  rcases put_tasks found with ⟨-, rfl⟩ | ⟨-, old⟩
  · exact ended
  · exact idle other task old

theorem World.Idle.fresh (profile : NodeProfile) (trust : T) :
    (World.fresh c profile trust).Idle := by
  intro id task wrong
  cases wrong

theorem nodeStep_resume (sink : TrustSink T) {w : World c T} {id : CallId} {call : Call} {io : Io c}
    {point : Point c} {next : PairingNode.Turn c T} (found : w.tasks id = some ⟨call, point⟩)
    (advances : w.shared.advance sink id io point = next) :
    nodeStep c sink w (.resume id io) = (w.put id call next, some next.seen) := by
  rw [← advances, nodeStep, step_resume found]
  rfl

theorem nodeStep_put (sink : TrustSink T) {w : World c T} {id : CallId} {call : Call} {io : Io c}
    {turn next : PairingNode.Turn c T}
    (advances : turn.shared.advance sink id io turn.point = next) :
    nodeStep c sink (w.put id call turn) (.resume id io) = (w.put id call next, some next.seen) := by
  rw [nodeStep_resume sink (put_self id call turn) advances, put_put]

/-! ## An inviter -/

/-- A session in the table of the inviters, with no call of its invite from this number on. -/
structure World.Serves (w : World c T) (id : CallId) (s : InviterSession c) (next : Nat) : Prop where
  idle : w.Idle
  entry : w.shared.inviters.lookup id.inviteId = some id
  session : w.shared.inviterSessions id = some s
  free : ∀ serial, next ≤ serial → w.tasks ⟨id.inviteId, serial⟩ = none

def completionRequest (inviteId : String) (blob : Bytes) : Call :=
  .request (.withMsg c inviteId Phase.completion blob)

theorem start_completion (lawful : c.Lawful) {n : PairingNode c T} {inviteId : String}
    (named : inviteId.isEmpty = false) (blob : Bytes) :
    n.start (completionRequest (c := c) inviteId blob) = n.waits (.completionLookup blob) := by
  have other : Phase.completion ≠ Phase.initial := by decide
  have msg : (PairingEnvelope.withMsg c inviteId Phase.completion blob).blob c = blob :=
    PairingEnvelope.blob_withMsg lawful _ _ _
  simp only [PairingNode.start, completionRequest, msg]
  simp only [PairingEnvelope.withMsg, named, other, Bool.false_eq_true, if_false, if_true]

def completionEvents (inviteId : String) (serial : Nat) (io : Io c) (blob : Bytes) :
    List (NodeEvent c) :=
  [.call serial (completionRequest (c := c) inviteId blob), .resume ⟨inviteId, serial⟩ io,
    .resume ⟨inviteId, serial⟩ io]

def World.looking (w : World c T) (id : CallId) (serial : Nat) (blob : Bytes) : World c T :=
  w.put ⟨id.inviteId, serial⟩ (completionRequest (c := c) id.inviteId blob)
    (w.shared.waits (.completionLookup blob))

def World.completing (w : World c T) (id : CallId) (serial : Nat) (blob : Bytes) : World c T :=
  w.put ⟨id.inviteId, serial⟩ (completionRequest (c := c) id.inviteId blob)
    (w.shared.waits (.completionSession blob id))

theorem call_completion (lawful : c.Lawful) {w : World c T} {id : CallId} {serial : Nat}
    (new : w.tasks ⟨id.inviteId, serial⟩ = none) (named : id.inviteId.isEmpty = false)
    (sink : TrustSink T) (blob : Bytes) :
    (nodeStep c sink w (.call serial (completionRequest (c := c) id.inviteId blob))).1 =
      w.looking id serial blob := by
  have called : nodeStep c sink w (.call serial (completionRequest (c := c) id.inviteId blob)) = _ :=
    step_call (p := pairing c sink) new
  rw [called]
  exact congrArg (w.put _ _) (start_completion lawful named blob)

namespace World.Serves

variable {w : World c T} {id : CallId} {s t : InviterSession c} {next : Nat} {io : Io c}
  {blob : Bytes}

theorem put (serves : w.Serves id s next) {call : Call} {turn : PairingNode.Turn c T}
    (ended : turn.point.Ended) (entry : turn.shared.inviters = w.shared.inviters)
    (session : turn.shared.inviterSessions id = some t) :
    World.Serves (w.put ⟨id.inviteId, next⟩ call turn) id t (next + 1) where
  idle := serves.idle.put ended
  entry := by rw [put_shared, entry, serves.entry]
  session := session
  free later above := by
    have differs : (⟨id.inviteId, later⟩ : CallId) ≠ ⟨id.inviteId, next⟩ := by
      intro same
      have equal := (CallId.mk.inj same).2
      omega
    rw [put_other call turn differs]
    exact serves.free later (by omega)

section

variable (lawful : c.Lawful) (serves : w.Serves id s next) (named : id.inviteId.isEmpty = false)
include lawful serves named

theorem calls (sink : TrustSink T) (blob : Bytes) :
    (nodeStep c sink w (.call next (completionRequest (c := c) id.inviteId blob))).1 =
      w.looking id next blob :=
  call_completion lawful (serves.free next le_rfl) named sink blob

omit lawful named in
theorem looks (sink : TrustSink T) (io : Io c) (blob : Bytes) :
    (nodeStep c sink (w.looking id next blob) (.resume ⟨id.inviteId, next⟩ io)).1 =
      w.completing id next blob := by
  have turn : w.shared.advance sink ⟨id.inviteId, next⟩ io (.completionLookup blob) =
      w.shared.waits (.completionSession blob id) := by
    simp only [PairingNode.advance, PairingNode.completionLookup, serves.entry]
  rw [World.looking, nodeStep_put sink turn, World.completing]

theorem trace_completion (sink : TrustSink T) (io : Io c) (blob : Bytes) :
    trace (nodeStep c sink) w (completionEvents id.inviteId next io blob) =
      [Transition.entry (nodeStep c sink) w
          (.call next (completionRequest (c := c) id.inviteId blob)),
        Transition.entry (nodeStep c sink) (w.looking id next blob) (.resume ⟨id.inviteId, next⟩ io),
        Transition.entry (nodeStep c sink) (w.completing id next blob)
          (.resume ⟨id.inviteId, next⟩ io)] := by
  rw [completionEvents, trace, trace, trace, trace, serves.calls lawful named,
    serves.looks]

theorem mem_completing (sink : TrustSink T) (io : Io c) (blob : Bytes) :
    Transition.entry (nodeStep c sink) (w.completing id next blob) (.resume ⟨id.inviteId, next⟩ io) ∈
      trace (nodeStep c sink) w (completionEvents id.inviteId next io blob) := by
  rw [serves.trace_completion lawful named]
  exact List.mem_cons_of_mem _ (List.mem_cons_of_mem _ List.mem_cons_self)

theorem completes (sink : TrustSink T) (io : Io c) (blob : Bytes) {reply : Reply}
    {paired : Option Paired}
    (answered : s.completionRequest io.draws id.inviteId blob = (t, some (reply, paired))) :
    World.Serves (run (nodeStep c sink) w (completionEvents id.inviteId next io blob)) id t
      (next + 1) := by
  have turn : w.shared.advance sink ⟨id.inviteId, next⟩ io (.completionSession blob id) =
      w.shared.completionSession sink ⟨id.inviteId, next⟩ io.draws blob id s := by
    simp only [PairingNode.advance, serves.session]
  rw [completionEvents, run, run, run, run, serves.calls lawful named, serves.looks,
    World.completing, nodeStep_put sink turn]
  cases paired with
  | none =>
    simp only [PairingNode.completionSession, answered]
    exact serves.put trivial rfl (Function.update_self _ _ _)
  | some paired =>
    simp only [PairingNode.completionSession, answered]
    exact serves.put trivial rfl (Function.update_self _ _ _)

omit lawful named in
theorem hands (sink : TrustSink T) (io : Io c) (blob : Bytes) :
    Hands (Transition.entry (nodeStep c sink) (w.completing id next blob)
      (.resume ⟨id.inviteId, next⟩ io)) ⟨id.inviteId, next⟩ id s io.draws blob :=
  ⟨io, _, rfl, rfl, put_self _ _ _, serves.session⟩

omit lawful named in
theorem pins (sink : TrustSink T) (io : Io c) (blob : Bytes) {reply : Reply} {paired : Paired}
    (answered : s.completionRequest io.draws id.inviteId blob = (t, some (reply, some paired))) :
    CompletionPins (Transition.entry (nodeStep c sink) (w.completing id next blob)
      (.resume ⟨id.inviteId, next⟩ io)) id.inviteId id := by
  obtain ⟨call, stepped⟩ := (serves.hands sink io blob).step
  have seen := congrArg Prod.snd stepped
  refine ⟨⟨id.inviteId, next⟩, io, _, blob, _, rfl, rfl, put_self _ _ _, seen, ?_⟩
  simp only [PairingNode.completionSession, answered]
  exact Option.some_ne_none _

end

end World.Serves

theorem not_hands_call {w : World c T} {serial : Nat} {call : Call} {id handle : CallId}
    {s : InviterSession c} {draws : Draws c} {blob : Bytes} :
    ¬ Hands (entry (nodeStep c sink) w (.call serial call)) id handle s draws blob := by
  rintro ⟨io, made, wrong, -⟩
  cases wrong

theorem Hands.of_put {w : World c T} {own id handle : CallId} {call : Call}
    {turn : PairingNode.Turn c T} {io : Io c} {s : InviterSession c} {draws : Draws c} {blob : Bytes}
    (hands : Hands (entry (nodeStep c sink) (w.put own call turn) (.resume own io)) id handle s
      draws blob) :
    turn.point = .completionSession blob handle ∧ turn.shared.inviterSessions handle = some s ∧
      io.draws = draws := by
  obtain ⟨turned, made, same, rfl, found, session⟩ := hands
  obtain ⟨rfl, rfl⟩ := Event.resume.inj same
  exact ⟨congrArg Task.point (Option.some.inj ((put_self _ _ _).symm.trans found)), session, rfl⟩

/-! ### A decline -/

section

variable {w : World c T} {next : Nat}

def declineEvents (inviteId : String) (serial : Nat) (io : Io c) : List (NodeEvent c) :=
  [.call serial (.request (.signal inviteId Phase.decline "")), .resume ⟨inviteId, serial⟩ io]

theorem start_decline {n : PairingNode c T} {inviteId : String}
    (named : inviteId.isEmpty = false) :
    n.start (.request (.signal inviteId Phase.decline "")) = n.waits .endInvite := by
  have phases : Phase.decline ≠ Phase.initial ∧ Phase.decline ≠ Phase.completion ∧
      Phase.decline ≠ Phase.cancel := by decide
  simp only [PairingNode.start, PairingEnvelope.signal, named, phases, Bool.false_eq_true, if_false,
    if_true, true_or]

theorem trace_decline (id : CallId) (new : w.tasks ⟨id.inviteId, next⟩ = none)
    (named : id.inviteId.isEmpty = false) (sink : TrustSink T) (io : Io c) :
    trace (nodeStep c sink) w (declineEvents id.inviteId next io) =
        [entry (nodeStep c sink) w (.call next (.request (.signal id.inviteId Phase.decline ""))),
          entry (nodeStep c sink) (w.put ⟨id.inviteId, next⟩
            (.request (.signal id.inviteId Phase.decline "")) (w.shared.waits .endInvite))
            (.resume ⟨id.inviteId, next⟩ io)] ∧
      run (nodeStep c sink) w (declineEvents id.inviteId next io) =
        w.put ⟨id.inviteId, next⟩ (.request (.signal id.inviteId Phase.decline ""))
          ((w.shared.forgetInviter id.inviteId).returns (.replied (.ok {}))) := by
  have called : (nodeStep c sink w
      (.call next (.request (.signal id.inviteId Phase.decline "")))).1 =
        w.put ⟨id.inviteId, next⟩ (.request (.signal id.inviteId Phase.decline ""))
          (w.shared.waits .endInvite) := by
    have stepped : nodeStep c sink w (.call next (.request (.signal id.inviteId Phase.decline ""))) =
        _ := step_call (p := pairing c sink) new
    rw [stepped]
    exact congrArg (w.put _ _) (start_decline named)
  constructor
  · rw [declineEvents, trace, called, trace, trace]
  · rw [declineEvents, run, called, run, nodeStep_put sink rfl, run]
    rfl

def lateEvents (inviteId : String) (serial : Nat) (io : Io c) (blob : Bytes) : List (NodeEvent c) :=
  declineEvents inviteId serial io ++ [.call (serial + 1) (completionRequest (c := c) inviteId blob),
    .resume ⟨inviteId, serial + 1⟩ io]

end

/-! ### The invite -/

-- A call of `create_invite` that awaits the answer to a message.
def World.offering (w : World c T) (id : CallId) (addr : String) (msg : Bytes)
    (s : InviterSession c) : World c T :=
  w.put id (.createInvite id.inviteId addr)
    (w.shared.posts addr (.withMsg c id.inviteId Phase.initial msg) (.createAwait addr s))

-- A call of `create_invite` about to put its session in the table.
def World.inserting (w : World c T) (id : CallId) (addr : String) (s : InviterSession c)
    (pin : String) : World c T :=
  w.put id (.createInvite id.inviteId addr) (w.shared.waits (.createInsert s pin))

def answer (id : CallId) (draws : Draws c) (pin : Fin 1000000) (bytes : Bytes) : NodeEvent c :=
  .resume id ⟨draws, .ok (.withMsg c id.inviteId Phase.initial bytes), pin⟩

section

variable {w : World c T} {id : CallId} {addr : String} {draws : Draws c} {pin : Fin 1000000}
  {s t u : InviterSession c} {msg bytes next : Bytes} {step : Step}

theorem offering_continues (lawful : c.Lawful) (sink : TrustSink T)
    (heard : s.onInitial draws bytes = (t, some step)) (silent : step.error = none)
    (more : step.done = false) (send : step.send = some next) :
    (nodeStep c sink (w.offering id addr msg s) (answer id draws pin bytes)).1 =
      w.offering id addr next t := by
  have turn : w.shared.advance sink id
      ⟨draws, .ok (.withMsg c id.inviteId Phase.initial bytes), pin⟩ (.createAwait addr s) =
        w.shared.posts addr (.withMsg c id.inviteId Phase.initial next) (.createAwait addr t) := by
    simp only [PairingNode.advance, PairingNode.createAwait, initialResponse_eq lawful heard silent, more, send,
      Bool.false_eq_true, if_false]
  rw [World.offering, answer, nodeStep_put sink turn, World.offering]

theorem offering_ends (lawful : c.Lawful) (sink : TrustSink T)
    (heard : s.onInitial draws bytes = (t, some step)) (silent : step.error = none)
    (done : step.done = true) (invite : t.invite (mintPin pin) = .ok u) :
    (nodeStep c sink (w.offering id addr msg s) (answer id draws pin bytes)).1 =
      w.inserting id addr u (mintPin pin) := by
  have turn : w.shared.advance sink id
      ⟨draws, .ok (.withMsg c id.inviteId Phase.initial bytes), pin⟩ (.createAwait addr s) =
        w.shared.waits (.createInsert u (mintPin pin)) := by
    simp only [PairingNode.advance, PairingNode.createAwait, initialResponse_eq lawful heard silent, done, if_true, invite]
  rw [World.offering, answer, nodeStep_put sink turn, World.inserting]

end

namespace Handshake

variable (x : Handshake c)

-- `create_invite` with the answers of the joiner.
def inviteEvents (inviteId addr : String) (pin : Fin 1000000) : List (NodeEvent c) :=
  [.call 0 (.createInvite inviteId addr),
    answer ⟨inviteId, 0⟩ x.naming pin (c.encodeWire x.peerFresh.discoveryResponse),
    answer ⟨inviteId, 0⟩ x.serverDraws pin (c.encodeWire x.negotiationResponse),
    answer ⟨inviteId, 0⟩ x.serverDraws pin (c.encodeWire x.peerKeyed.keyExchangeResponse),
    answer ⟨inviteId, 0⟩ x.serverDraws pin []]

def invited (pin : Fin 1000000) : InviterSession c :=
  inviting (x.serverArmed (noobFromPin (mintPin pin)).bytes)

theorem inviter_invites (pin : Fin 1000000) :
    (inviting x.serverWaiting).invite (mintPin pin) = .ok (x.invited pin) := by
  have waits : (inviting x.serverWaiting).state = .waiting := rfl
  simp only [InviterSession.invite, waits, ne_eq, not_true_eq_false, if_false, x.inviter_arms]
  rfl

variable (lawful : c.Lawful) {profile : NodeProfile}
  (own : profile.pairingInfo c none = x.inviter.info)
include lawful own

omit lawful in
theorem invite_calls (sink : TrustSink T) (trust : T) (id : CallId) (addr : String) :
    (nodeStep c sink (World.fresh c profile trust)
        (.call id.serial (.createInvite id.inviteId addr))).1 =
      (World.fresh c profile trust).offering id addr (c.encodeWire discoveryRequest)
        (inviting x.serverFresh) := by
  have session : InviterSession.new c (profile.pairingInfo c none) = inviting x.serverFresh := by
    rw [own]
    exact x.freshInviter_eq
  rw [← session]
  rfl

omit own

theorem invite_offers (sink : TrustSink T) (w : World c T) (id : CallId) (addr : String)
    (pin : Fin 1000000) (msg : Bytes) :
    (nodeStep c sink (w.offering id addr msg (inviting x.serverFresh))
        (answer id x.naming pin (c.encodeWire x.peerFresh.discoveryResponse))).1 =
      w.offering id addr (c.encodeWire x.serverOffering.negotiationRequest)
        (inviting x.serverOffering) :=
  offering_continues lawful sink (x.inviter_offers lawful) rfl rfl rfl

theorem invite_keys (sink : TrustSink T) (w : World c T) (id : CallId) (addr : String)
    (pin : Fin 1000000) (msg : Bytes) :
    (nodeStep c sink (w.offering id addr msg (inviting x.serverOffering))
        (answer id x.serverDraws pin (c.encodeWire x.negotiationResponse))).1 =
      w.offering id addr (c.encodeWire x.serverKeyed.keyExchangeRequest)
        (inviting x.serverKeyed) :=
  offering_continues lawful sink (x.inviter_keys lawful) rfl rfl rfl

theorem invite_waits (sink : TrustSink T) (w : World c T) (id : CallId) (addr : String)
    (pin : Fin 1000000) (msg : Bytes) :
    (nodeStep c sink (w.offering id addr msg (inviting x.serverKeyed))
        (answer id x.serverDraws pin (c.encodeWire x.peerKeyed.keyExchangeResponse))).1 =
      w.inserting id addr (x.invited pin) (mintPin pin) :=
  offering_ends lawful sink (x.inviter_waits lawful x.serverDraws) rfl rfl (x.inviter_invites pin)

include own

theorem serves (sink : TrustSink T) (trust : T) (inviteId addr : String) (pin : Fin 1000000) :
    World.Serves (run (nodeStep c sink) (World.fresh c profile trust)
      (x.inviteEvents inviteId addr pin)) ⟨inviteId, 0⟩ (x.invited pin) 1 := by
  rw [inviteEvents, run, x.invite_calls own sink trust ⟨inviteId, 0⟩, run, x.invite_offers lawful,
    run, x.invite_keys lawful, run, x.invite_waits lawful, run, answer, World.inserting,
    nodeStep_put sink rfl, run]
  refine ⟨World.Idle.put (World.Idle.fresh profile trust) trivial, AList.lookup_insert _,
    Function.update_self _ _ _, fun serial above => put_other _ _ fun same => ?_⟩
  have zero := (CallId.mk.inj same).2
  omega

theorem invite_steps (sink : TrustSink T) (trust : T) (inviteId addr : String)
    (pin : Fin 1000000) {e : NodeStep c T}
    (member : e ∈ trace (nodeStep c sink) (World.fresh c profile trust)
      (x.inviteEvents inviteId addr pin)) :
    e = entry (nodeStep c sink) (World.fresh c profile trust)
        (.call 0 (.createInvite inviteId addr)) ∨
      ∃ (turn : PairingNode.Turn c T) (io : Io c), e = entry (nodeStep c sink)
        ((World.fresh c profile trust).put ⟨inviteId, 0⟩ (.createInvite inviteId addr) turn)
        (.resume ⟨inviteId, 0⟩ io) ∧ turn.point.Creating := by
  rw [inviteEvents, trace, x.invite_calls own sink trust ⟨inviteId, 0⟩, trace,
    x.invite_offers lawful, trace, x.invite_keys lawful, trace, x.invite_waits lawful, trace,
    trace] at member
  simp only [List.mem_cons, List.not_mem_nil, or_false] at member
  rcases member with called | offered | keyed | waited | inserted
  · exact .inl called
  · exact .inr ⟨_, _, offered, trivial⟩
  · exact .inr ⟨_, _, keyed, trivial⟩
  · exact .inr ⟨_, _, waited, trivial⟩
  · exact .inr ⟨_, _, inserted, trivial⟩

end Handshake

/-! ### The completion -/

theorem completionRequest_eq {s t : InviterSession c} {draws : Draws c} {blob : Bytes} {step : Step}
    (inviteId : String) (held : blob ≠ [])
    (answered : s.onCompletion draws blob = (t, some (.ok step))) :
    s.completionRequest draws inviteId blob =
      (t, some (.ok (.withMsg c inviteId Phase.completion (step.send.getD [])), t.paired step)) := by
  have message : blob.isEmpty = false := by simpa using held
  simp only [InviterSession.completionRequest, message, answered, Option.map_some,
    Bool.false_eq_true, if_false]

namespace Handshake

variable (x : Handshake c) (lawful : c.Lawful) (draws : Draws c) (inviteId : String)
  (pin guess : Fin 1000000)

def noob (pin : Fin 1000000) : Bytes := (noobFromPin (mintPin pin)).bytes

theorem noob_ne_nil : noob pin ≠ [] :=
  Exchange.ne_nil_of_length (noobFromPin (mintPin pin)).length_eq

/-- The message with which a joiner that was told a PIN takes up the Completion Exchange. -/
def takesUp : Wire := (x.peerArmed (noob guess)).discoveryResponse

def resumingMsg : Bytes := c.encodeWire (x.takesUp guess)

def noobIdMsg : Bytes := c.encodeWire (x.peerArmed (noob guess)).noobIdResponse

def macpMsg : Bytes := c.encodeWire (x.peerArmed (noob guess)).completionResponse

def resumed : InviterSession c := inviting (x.serverResumed (noob pin) (x.takesUp guess))

def matched : InviterSession c := inviting (x.serverResumed (noob pin) (x.takesUp guess)).derived

def paired : InviterSession c := x.joined (x.serverRegistered (noob pin) (x.takesUp guess))

include lawful

theorem request_resumes : ∃ reply, (x.invited pin).completionRequest draws inviteId
    (x.resumingMsg guess) = (x.resumed pin guess, some (reply, none)) :=
  ⟨_, completionRequest_eq inviteId (ne_nil_of_decode lawful (x.decode_resumed lawful _))
    (x.inviter_resumes lawful draws (x.decode_resumed lawful _) rfl rfl rfl (noob_ne_nil pin))⟩

theorem request_matches : ∃ reply, (x.resumed pin guess).completionRequest draws inviteId
    (x.noobIdMsg pin) = (x.matched pin guess, some (reply, none)) :=
  ⟨_, completionRequest_eq inviteId (ne_nil_of_decode lawful (x.decode_noobId lawful _))
    (x.inviter_matches lawful draws (noob pin) (x.takesUp guess))⟩

theorem request_registers : ∃ reply paired, (x.matched pin guess).completionRequest draws inviteId
    (x.macpMsg pin) = (x.paired pin guess, some (reply, some paired)) :=
  ⟨_, _, completionRequest_eq inviteId (ne_nil_of_decode lawful (x.decode_macp lawful _))
    (x.inviter_registers lawful draws (noob pin) (x.takesUp guess))⟩

theorem request_registers_again : ∃ reply paired, (x.paired pin guess).completionRequest draws
    inviteId (x.macpMsg pin) = (x.paired pin guess, some (reply, some paired)) :=
  ⟨_, _, completionRequest_eq inviteId (ne_nil_of_decode lawful (x.decode_macp lawful _))
    (x.inviter_registers_again lawful draws (noob pin) (x.takesUp guess))⟩

theorem request_mismatches (differ : computeNoobId c (c.jsonStr (c.b64Encode (noob guess))) ≠
    computeNoobId c (c.jsonStr (c.b64Encode (noob pin)))) :
    ∃ reply, (x.resumed pin guess).completionRequest draws inviteId (x.noobIdMsg guess) =
      (x.resumed pin guess, some (reply, none)) :=
  ⟨_, completionRequest_eq inviteId (ne_nil_of_decode lawful (x.decode_noobId lawful _))
    (x.inviter_mismatches lawful draws (x.takesUp guess) differ)⟩

end Handshake

/-! ## The endpoints of the reference parties -/

namespace Reference

def profileOf (certificate : Certificate) (name addr : String) : NodeProfile where
  identity := ⟨certificate.nodeUuid, certificate.der, pem certificate.der⟩
  name := name
  clusterId := "c1"
  clusterFriendlyName := "C"
  admissionEpoch := 1
  advertisedAddr := addr

def inviterProfile : NodeProfile := profileOf inviterCertificate "A" "a:1"

def joinerProfile : NodeProfile := profileOf joinerCertificate "B" "b:1"

theorem profile_valid {certificate : Certificate} (known : certificate ∈ certificates)
    (name addr : String) : ((profileOf certificate name addr).pairingInfo crates none).Valid crates
      certificate.der :=
  { valid known name "c1" addr with admissionEpoch := (by decide : max (1 : UInt64) 1 ≠ 0) }

def endpoints : Handshake crates :=
  { exchange with
    serverInfo := (inviterProfile.pairingInfo crates none).toJson crates
    serverText := lawful.text_info _
    peerInfo := (joinerProfile.pairingInfo crates none).toJson crates
    peerText := lawful.text_info _
    inviter := ⟨inviterProfile.pairingInfo crates none, inviterCertificate.der⟩
    joiner := ⟨joinerProfile.pairingInfo crates none, joinerCertificate.der⟩
    serverInfo_eq := rfl
    peerInfo_eq := rfl
    inviterValid := profile_valid (by simp [certificates]) _ _
    joinerValid := profile_valid (by simp [certificates]) _ _ }

def rightPin : Fin 1000000 := ⟨0, Nat.zero_lt_succ 999999⟩

def wrongPin : Fin 1000000 := ⟨1, Nat.one_lt_succ_succ 999998⟩

def nodeIo : Io crates := ⟨draws .server, .error "", rightPin⟩

def keeping : TrustSink (List Paired) where
  pinPeer pinned paired := paired :: pinned
  isClustered _ := false

def inviterNode : World crates (List Paired) := .fresh crates inviterProfile []

end Reference

end OpenPair
