import OpenPair.Cluster.Pending
import OpenPair.Pairing.ErrorCodes
import OpenPair.Pairing.FrozenTranscript

/-! Whether an invite past its Initial Exchange refuses another one.

An initial request works with whatever session its invite has, and a completion
request hands every message to the Server. Neither looks at how far the session
is, and only a check that the message fails stops it.
-/

set_option autoImplicit false

namespace OpenPair

open Tasks Transition

variable {c : Crates} {T : Type} {sink : TrustSink T}

/-! ## What is left to capture -/

theorem Server.receive_panics_same (lawful : c.Lawful) {s t : Server c} {draws : Draws c}
    {bytes : Bytes} (panics : s.receive draws bytes = (t, none)) :
    t.state = s.state ∧ t.peerInfo = s.peerInfo := by
  rcases s.receive_effect draws bytes with malformed | ⟨wm, decoded, effect⟩
  · rw [panics] at malformed
    cases malformed
  · rw [panics] at effect
    cases effect with
    -- The texts of a negotiation are JSON, so that its answer is built.
    | negotiated notice type negotiates known =>
      have answers : s.receive draws bytes = _ :=
        receive_negotiates lawful decoded notice type negotiates known
      rw [panics] at answers
      cases answers
    | _ => exact ⟨rfl, rfl⟩

namespace InviterSession

/-- The joiner is captured, its text cannot be read, or it is too early. -/
def CapturesNothing (s : InviterSession c) : Prop := ∀ t, s.capture = .ok t → t = s

section

variable {s t : InviterSession c}

theorem capture_capturesNothing (captured : s.capture = .ok t) : t.CapturesNothing := by
  intro u again
  rcases capture_ok captured with ⟨rfl, -⟩ | ⟨-, j, rfl, -⟩
  · rw [captured] at again
    exact (Except.ok.inj again).symm
  · rw [capture_keeps (.inr (Option.some_ne_none j))] at again
    exact (Except.ok.inj again).symm

theorem CapturesNothing.of_same (nothing : s.CapturesNothing) (state : t.state = s.state)
    (info : t.server.peerInfo = s.server.peerInfo) (joiner : t.joiner = s.joiner) :
    t.CapturesNothing := by
  intro u captured
  unfold capture at captured
  rw [state, info, joiner] at captured
  split at captured
  · next both =>
    split at captured
    · cases captured
    · next present =>
      cases parsed : parseIdentity c s.server.peerInfo with
      | error e =>
        rw [parsed] at captured
        cases captured
      | ok j =>
        -- Then the same could be captured before.
        have before := nothing _ (capture_takes both.1 both.2 (eq_false_of_ne_true present) parsed)
        have taken : some j = s.joiner := congrArg InviterSession.joiner before
        rw [both.2] at taken
        cases taken
  · cases captured
    rfl

theorem onCompletion_capturesNothing (lawful : c.Lawful) (nothing : s.CapturesNothing)
    (draws : Draws c) (blob : Bytes) : (s.onCompletion draws blob).1.CapturesNothing := by
  unfold onCompletion
  dsimp only
  split
  · next panics =>
    have same := Server.receive_panics_same lawful
      (show s.server.receive draws blob = (_, none) from Prod.ext rfl panics)
    exact nothing.of_same same.1 same.2 rfl
  · split
    · next failed =>
      intro t wrong
      rw [failed] at wrong
      cases wrong
    · next captured => exact capture_capturesNothing captured

theorem completionRequest_capturesNothing (lawful : c.Lawful) (nothing : s.CapturesNothing)
    (draws : Draws c) (inviteId : String) (blob : Bytes) :
    (s.completionRequest draws inviteId blob).1.CapturesNothing := by
  unfold completionRequest
  split
  · exact nothing
  · exact onCompletion_capturesNothing lawful nothing draws blob

theorem invite_capturesNothing {pin : String} (invited : s.invite pin = .ok t) :
    t.CapturesNothing := by
  unfold invite at invited
  split at invited
  · cases invited
  · next waits =>
    have waits : s.server.state = .waiting := not_not.mp waits
    have state : t.state = .waiting := by
      unfold setPin at invited
      split at invited
      · cases invited
      · next accepted =>
        cases invited
        rw [InviterSession.state, Server.oobOutputWith_accepted accepted]
        exact waits
    have keeps : t.capture = .ok t := capture_keeps (.inl (by rw [state]; nofun))
    intro u captured
    rw [keeps] at captured
    exact (Except.ok.inj captured).symm

/-- A request changes its session exactly where the message changes the Server. -/
theorem completionRequest_same_iff (nothing : s.CapturesNothing) {draws : Draws c}
    {inviteId : String} {blob : Bytes} (sent : blob.isEmpty = false) :
    (s.completionRequest draws inviteId blob).1 = s ↔
      (s.server.receive draws blob).1 = s.server := by
  have machine : (s.onCompletion draws blob).1.server = (s.server.receive draws blob).1 :=
    (s.step_cases (.completion draws blob)).1
  simp only [completionRequest, sent, Bool.false_eq_true, if_false]
  constructor
  · intro same
    rw [← machine, same]
  · intro same
    unfold onCompletion
    dsimp only
    rw [same]
    split
    · rfl
    · split
      · rfl
      · next captured => exact nothing _ captured

end

end InviterSession

namespace World

variable {w : World c T}

/-- No session in the table, or on its way there, is about to capture its joiner. -/
structure CapturesNothing (w : World c T) : Prop where
  sessions : ∀ {handle s}, w.shared.inviterSessions handle = some s → s.CapturesNothing
  inserting : ∀ {id call s pin}, w.tasks id = some ⟨call, .createInsert s pin⟩ → s.CapturesNothing

theorem CapturesNothing.fresh (profile : NodeProfile) (trust : T) :
    (World.fresh c profile trust).CapturesNothing where
  sessions wrong := by cases wrong
  inserting wrong := by cases wrong

theorem createInsert_capturesNothing {n : PairingNode c T} {id : CallId} {io : Io c}
    {point : Point c} {s : InviterSession c} {pin : String}
    (inserts : (n.advance sink id io point).point = .createInsert s pin) : s.CapturesNothing := by
  have effect : n.Effect sink id point _ _ _ := n.advance_turned sink id io point
  rw [inserts] at effect
  generalize (n.advance sink id io point).shared = m at effect
  generalize (n.advance sink id io point).seen.pinned = pinned at effect
  cases effect with
  | stays unsettled => exact absurd trivial unsettled
  | leaves more settled ended => exact ended.elim
  | joinerStepped held ended => exact ended.elim
  | inviterStepped found answered quiet ended => exact ended.elim
  | inviting =>
    simp only [PairingNode.advance, PairingNode.createAwait] at inserts
    split at inserts
    · cases inserts
    · split at inserts
      · cases inserts
      · cases inserts
      · cases inserts
      · split at inserts
        · cases inserts
        · next invited =>
          cases inserts
          exact InviterSession.invite_capturesNothing invited

theorem CapturesNothing.step (lawful : c.Lawful) (captured : w.CapturesNothing) (event : NodeEvent c) :
    (nodeStep c sink w event).1.CapturesNothing := by
  refine nodeStep_keep captured (fun serial call _ _ => ?_) fun id io task _ found turned => ?_
  · refine ⟨fun session => ?_, fun inserting => ?_⟩
    · rw [put_shared, w.shared.start_shared call] at session
      exact captured.sessions session
    · rcases put_tasks inserting with ⟨-, same⟩ | ⟨-, old⟩
      · have first := w.shared.start_first call
        rw [show (w.shared.start call).point = .createInsert _ _ from
          (congrArg Task.point same).symm] at first
        exact first.elim
      · exact captured.inserting old
  · refine ⟨fun {handle s} session => ?_, fun inserting => ?_⟩
    · rcases session_effect handle turned with same | ⟨t, pin, here, -, -, set⟩ |
        ⟨blob, t, u, draws, answer, -, before, answered, set⟩
      · exact captured.sessions (same.symm.trans session)
      · obtain rfl := Option.some.inj (set.symm.trans session)
        obtain ⟨call, point⟩ := task
        obtain rfl : point = .createInsert t pin := here
        exact captured.inserting found
      · obtain rfl := Option.some.inj (set.symm.trans session)
        have stepped := InviterSession.completionRequest_capturesNothing lawful
          (captured.sessions before) draws id.inviteId blob
        rw [answered] at stepped
        exact stepped
    · rcases put_tasks inserting with ⟨-, same⟩ | ⟨-, old⟩
      · exact createInsert_capturesNothing (congrArg Task.point same).symm
      · exact captured.inserting old

theorem CapturesNothing.run (lawful : c.Lawful) (sink : TrustSink T) (profile : NodeProfile) (trust : T)
    (events : List (NodeEvent c)) :
    (run (nodeStep c sink) (World.fresh c profile trust) events).CapturesNothing :=
  run_invariant (nodeStep c sink) (P := CapturesNothing) (fun _ event captured => captured.step lawful event)
    (.fresh profile trust) events

end World

/-! ## Completion requests -/

namespace Server

/-- A message of a new Initial Exchange: a Type 1 that neither continues the
completion nor waits for it, a Type 2 or a Type 3. -/
def Reopens (s : Server c) (wm : Wire) : Prop :=
  wm.errorCode = none ∧
    ((wm.type = some 1 ∧ ¬ (s.heard wm).ResumesCompletion ∧
        ¬ (s.state.code = 1 ∧ (s.heard wm).peerState = 1)) ∨
      wm.type = some 2 ∨ wm.type = some 3)

variable {s : Server c} {draws : Draws c} {bytes : Bytes} {wm : Wire}

theorem heard_eq_iff : s.heard wm = s ↔ s.HeardAlready wm := by
  constructor
  · intro same
    exact ⟨congrArg Server.peerState same, congrArg (fun t : Server c => t.m.nai) same⟩
  · rintro ⟨peerState, nai⟩
    unfold heard at peerState nai ⊢
    dsimp only at peerState nai ⊢
    rw [peerState, nai]

/-- A message is refused without a trace exactly when it fails a check and, where it
is a Discovery response, says nothing new. -/
theorem refused_unchanged_iff (decoded : c.decodeWire bytes = some wm)
    (notice : wm.errorCode = none) :
    (Outcome.Rejects (s.receive draws bytes).2 ∧ (s.receive draws bytes).1 = s) ↔
      (∃ check, s.failedCheck bytes = some check) ∧ (s.RefusesDiscovery wm → s.HeardAlready wm) := by
  -- A notification would be answered by an error of its own, whatever is checked.
  have other : ¬ IsNotice c bytes := by
    rintro ⟨w, decoded', code⟩
    obtain rfl := Option.some.inj (decoded'.symm.trans decoded)
    exact code notice
  have shows := receive_shows (s := s) draws other
  constructor
  · rintro ⟨rejects, same⟩
    constructor
    · cases failed : s.failedCheck bytes with
      | none =>
        rw [failed] at shows
        exact absurd rejects shows
      | some check => exact ⟨check, rfl⟩
    · intro refuses
      exact heard_eq_iff.mp ((receive_refuses draws decoded refuses).1.symm.trans same)
  · rintro ⟨⟨check, failed⟩, known⟩
    rw [failed] at shows
    obtain ⟨info, answer⟩ := shows
    have rejects : Outcome.Rejects (s.receive draws bytes).2 := by
      rw [answer]
      exact rejects_failCode _ _
    refine ⟨rejects, ?_⟩
    rcases receive_rejects rejects with same | ⟨w, decoded', refuses, heard⟩
    · exact same
    · obtain rfl := Option.some.inj (decoded'.symm.trans decoded)
      rw [heard]
      exact heard_eq_iff.mpr (known refuses)

end Server

/-- A completion request with a message of a new Initial Exchange is refused and
leaves its session unchanged. -/
def RefusesReopening (e : NodeStep c T) : Prop :=
  ∀ id handle s draws blob wm, Hands e id handle s draws blob → c.decodeWire blob = some wm →
    s.server.Reopens wm → Outcome.Rejects (s.server.receive draws blob).2 ∧
      e.after.shared.inviterSessions handle = some s

/-- Every such message fails a check; a Discovery response says nothing new. -/
def ReopeningFails (e : NodeStep c T) : Prop :=
  ∀ id handle s draws blob wm, Hands e id handle s draws blob → c.decodeWire blob = some wm →
    s.server.Reopens wm → (∃ check, s.server.failedCheck blob = some check) ∧
      (s.server.RefusesDiscovery wm → s.server.HeardAlready wm)

section

variable {w : World c T} {event : NodeEvent c} {id handle : CallId} {s : InviterSession c}
  {draws : Draws c} {blob : Bytes}

theorem completionSession_session (n : PairingNode c T) :
    (n.completionSession sink id draws blob handle s).shared.inviterSessions handle =
      some (s.completionRequest draws id.inviteId blob).1 := by
  unfold PairingNode.completionSession
  split
  all_goals
    next answered =>
      rw [answered]
      exact Function.update_self _ _ _

theorem Hands.session (hands : Hands (entry (nodeStep c sink) w event) id handle s draws blob) :
    (nodeStep c sink w event).1.shared.inviterSessions handle =
      some (s.completionRequest draws id.inviteId blob).1 := by
  obtain ⟨call, stepped⟩ := hands.step
  rw [stepped, put_shared]
  exact completionSession_session w.shared

theorem Hands.refused_unchanged_iff (lawful : c.Lawful) (captured : w.CapturesNothing)
    (hands : Hands (entry (nodeStep c sink) w event) id handle s draws blob) {wm : Wire}
    (decoded : c.decodeWire blob = some wm) (notice : wm.errorCode = none) :
    (Outcome.Rejects (s.server.receive draws blob).2 ∧
        (nodeStep c sink w event).1.shared.inviterSessions handle = some s) ↔
      (∃ check, s.server.failedCheck blob = some check) ∧
        (s.server.RefusesDiscovery wm → s.server.HeardAlready wm) := by
  have sent : blob.isEmpty = false := by
    cases blob with
    | nil =>
      rw [lawful.wire_empty] at decoded
      cases decoded
    | cons byte rest => rfl
  have nothing : s.CapturesNothing := by
    obtain ⟨_, _, _, _, _, found⟩ := hands
    exact captured.sessions found
  rw [hands.session, Option.some.injEq, InviterSession.completionRequest_same_iff nothing sent]
  exact Server.refused_unchanged_iff decoded notice

theorem refusesReopening_iff (lawful : c.Lawful) (captured : w.CapturesNothing)
    (event : NodeEvent c) : RefusesReopening (entry (nodeStep c sink) w event) ↔
      ReopeningFails (entry (nodeStep c sink) w event) := by
  constructor
  · intro refuses id handle s draws blob wm hands decoded reopens
    exact (hands.refused_unchanged_iff lawful captured decoded reopens.1).mp
      (refuses id handle s draws blob wm hands decoded reopens)
  · intro fails id handle s draws blob wm hands decoded reopens
    exact (hands.refused_unchanged_iff lawful captured decoded reopens.1).mpr
      (fails id handle s draws blob wm hands decoded reopens)

end

/-! ## Initial requests -/

/-- An initial request gets to work with the session of its invite. -/
def Works (e : NodeStep c T) (id handle : CallId) (s : JoinerSession c) : Prop :=
  ∃ io call msg, e.input = .resume id io ∧
    e.before.tasks id = some ⟨call, .initialSession msg handle⟩ ∧
    e.before.shared.joiner handle = some s

def Replies (f : NodeStep c T) (id : CallId) (reply : Reply) : Prop :=
  ∃ io seen, f.input = .resume id io ∧ f.output = some seen ∧ seen.returned = some (.replied reply)

/-- The request was refused, and its session is still in the table as it was. -/
def RefusedUnchanged (f : NodeStep c T) (id handle : CallId) (s : JoinerSession c) (reply : Reply) :
    Prop :=
  reply.status ≠ 200 ∧ f.after.shared.joiners.lookup id.inviteId = some handle ∧
    (f.after.shared.joinerSessions handle).map JoinerCell.session = some s

/-- Where an initial request waits once it has worked with its session. -/
def Point.Worked : Point c → Prop
  | .initialEvict _ _ | .returned | .panicked => True
  | .initialPending _ reply => reply.status = 200
  | _ => False

def World.Worked (w : World c T) (id : CallId) : Prop :=
  ∃ task, w.tasks id = some task ∧ task.point.Worked

theorem initialRequest_status {s t : JoinerSession c} {draws : Draws c} {inviteId : String}
    {msg : Bytes} {reply : Reply} {invite : Option PendingInvite}
    (answered : s.initialRequest draws inviteId msg = (t, some (.ok (reply, invite)))) :
    reply.status = 200 := by
  obtain ⟨-, answer⟩ := Prod.mk.inj answered
  obtain ⟨result, -, shown⟩ := Option.map_eq_some_iff.mp answer
  cases result with
  | error e => cases shown
  | ok bytes =>
    simp only [Except.map, Except.ok.injEq, Prod.mk.injEq] at shown
    rw [← shown.1]
    rfl

section

variable {w : World c T} {event : NodeEvent c} {id handle : CallId} {s : JoinerSession c}

theorem initialSession_worked (n : PairingNode c T) (id handle : CallId) (s : JoinerSession c)
    (draws : Draws c) (msg : Bytes) :
    (n.initialSession id draws msg handle s).point.Worked ∧
      ∀ reply, (n.initialSession id draws msg handle s).seen.returned = some (.replied reply) →
        reply.status = 200 := by
  unfold PairingNode.initialSession
  split
  · exact ⟨trivial, nofun⟩
  · exact ⟨trivial, nofun⟩
  · next answered =>
    refine ⟨trivial, fun reply same => ?_⟩
    cases same
    exact initialRequest_status answered
  · next answered => exact ⟨initialRequest_status answered, nofun⟩

theorem Works.step (works : Works (entry (nodeStep c sink) w event) id handle s) :
    World.Worked (nodeStep c sink w event).1 id ∧
      ∀ reply, Replies (entry (nodeStep c sink) w event) id reply → reply.status = 200 := by
  obtain ⟨io, call, msg, same, found, free⟩ := works
  obtain rfl : event = .resume id io := same
  have running : w.tasks id = some ⟨call, .initialSession msg handle⟩ := found
  have turn : (pairing c sink).advance w.shared id io (.initialSession msg handle) =
      w.shared.initialSession id io.draws msg handle s := by
    simp only [pairing, PairingNode.advance, PairingNode.withJoiner,
      show w.shared.joiner handle = some s from free]
  obtain ⟨worked, status⟩ := initialSession_worked w.shared id handle s io.draws msg
  have stepped : nodeStep c sink w (.resume id io) = _ := step_resume running
  rw [turn] at stepped
  constructor
  · rw [stepped]
    exact ⟨_, put_self _ _ _, worked⟩
  · rintro reply ⟨_, seen, -, output, returned⟩
    rw [entry_output, stepped] at output
    obtain rfl := Option.some.inj output
    exact status reply returned

/-- From there the call ends, with a reply that serves the request or after its session is
evicted. -/
theorem worked_advance (sink : TrustSink T) (n : PairingNode c T) (id : CallId) (io : Io c)
    {point : Point c} (worked : point.Worked) :
    (n.advance sink id io point).point.Worked ∧
      ∀ reply, (n.advance sink id io point).seen.returned = some (.replied reply) →
        reply.status = 200 ∨ (n.advance sink id io point).shared.joiners.lookup id.inviteId = none := by
  cases point with
  | initialEvict handle reply => exact ⟨trivial, fun _ _ => .inr (AList.lookup_erase _ _)⟩
  | initialPending invite reply =>
    refine ⟨trivial, fun other same => .inl ?_⟩
    cases same
    exact worked
  | returned => exact ⟨trivial, nofun⟩
  | panicked => exact ⟨trivial, nofun⟩
  | _ => exact worked.elim

theorem World.Worked.step (worked : w.Worked id) (event : NodeEvent c) :
    World.Worked (nodeStep c sink w event).1 id ∧
      ∀ reply, Replies (entry (nodeStep c sink) w event) id reply →
        reply.status = 200 ∨
          (nodeStep c sink w event).1.shared.joiners.lookup id.inviteId = none := by
  obtain ⟨task, found, point⟩ := worked
  by_cases own : ∃ io, event = .resume id io
  · obtain ⟨io, rfl⟩ := own
    have stepped : nodeStep c sink w (.resume id io) = _ := step_resume found
    obtain ⟨after, status⟩ := worked_advance sink w.shared id io point
    constructor
    · rw [stepped]
      exact ⟨_, put_self _ _ _, after⟩
    · rintro reply ⟨_, seen, -, output, returned⟩
      rw [entry_output, stepped] at output
      obtain rfl := Option.some.inj output
      rw [stepped]
      exact status reply returned
  · constructor
    · refine nodeStep_keep (P := fun w => w.Worked id) ⟨task, found, point⟩ (fun serial call _ new => ?_)
        fun other io running same at_ _ => ?_
      · exact ⟨task, put_mono found new, point⟩
      · have differs : id ≠ other := by
          rintro rfl
          exact own ⟨io, same⟩
        exact ⟨task, (put_other _ _ differs).trans found, point⟩
    · rintro reply ⟨io, seen, same, -⟩
      exact (own ⟨io, same⟩).elim

end

theorem initial_never_refused {w : World c T} {events : List (NodeEvent c)}
    {before rest : List (NodeStep c T)} {e : NodeStep c T} {id handle : CallId}
    {s : JoinerSession c} (split : trace (nodeStep c sink) w events = before ++ e :: rest)
    (works : Works e id handle s) {f : NodeStep c T} (later : f ∈ e :: rest) {reply : Reply}
    (replies : Replies f id reply) : ¬ RefusedUnchanged f id handle s reply := by
  rintro ⟨refused, kept, -⟩
  obtain ⟨first, event, more, -, -, rfl, rfl⟩ := trace_split _ split
  rcases List.mem_cons.mp later with rfl | later
  -- A reply in the same turn is the answer of the session.
  · exact refused (works.step.2 reply replies)
  · -- The call has worked with its session in every state after its turn.
    obtain ⟨next, last, -, -, rfl⟩ := mem_trace _ later
    have worked := run_invariant (nodeStep c sink) (P := fun w => w.Worked id)
      (fun w event worked => (worked.step event).1) works.step.1 next
    rcases (worked.step last).2 reply replies with served | evicted
    · exact refused served
    · exact Option.some_ne_none _ (kept.symm.trans evicted)

theorem evicting_works (lawful : c.Lawful) {w : World c T} {id : CallId} {s t : JoinerSession c}
    {next : Nat} {io : Io c} {blob : Bytes} (answers : w.Answers id s next)
    (named : id.inviteId.isEmpty = false) (sink : TrustSink T) {e : String}
    (refused : s.onInitial io.draws blob = (t, some (.error e))) :
    ∃ before works rest, trace (nodeStep c sink) w (initialEvents id.inviteId next io blob ++
        [.resume ⟨id.inviteId, next⟩ io]) = before ++ works :: rest ∧
      Works works ⟨id.inviteId, next⟩ id s ∧ ∃ f ∈ works :: rest, ∃ reply,
        Replies f ⟨id.inviteId, next⟩ reply := by
  have turn : w.shared.advance sink ⟨id.inviteId, next⟩ io (.initialSession blob id) = _ :=
    advance_refuses ⟨id.inviteId, next⟩ sink answers.session refused
  rw [initialEvents, List.cons_append, List.cons_append, List.cons_append, List.nil_append, trace,
    call_initial lawful (answers.free next le_rfl) named, trace, World.asked,
    nodeStep_put sink (advance_lookup ⟨id.inviteId, next⟩ sink answers.entry), trace,
    nodeStep_put sink turn, trace, trace]
  refine ⟨[_, _], _, [_], rfl, ?_, _, List.mem_cons_of_mem _ (List.mem_singleton_self _),
    initialReply id.inviteId (.error e), ?_⟩
  · exact ⟨io, _, blob, rfl, put_self _ _ _, joiner_free answers.session⟩
  · exact ⟨io, _, rfl, congrArg Prod.snd (nodeStep_put sink rfl), rfl⟩

/-! ## The result -/

/-- The transcript of a machine is frozen exactly as long as no message that passes its checks
brings other values; a completion request is refused without a trace exactly when its message
fails a check and says nothing new; an initial request for an invite past its Initial Exchange
never is. -/
theorem transcript_frozen_iff (lawful : c.Lawful) (sink : TrustSink T) (profile : NodeProfile)
    (trust : T) :
    (∀ (s : Server c) (inputs : List (Server.Input c)), s.Initial →
      (s.TranscriptFrozen inputs ↔ EveryStep Server.Unrenewed (trace Server.step s inputs))) ∧
    (∀ (p : Peer c) (inputs : List (Peer.Input c)), p.Initial →
      (p.TranscriptFrozen inputs ↔ EveryStep Peer.Unrenewed (trace Peer.step p inputs))) ∧
    ∀ events : List (NodeEvent c),
      (EveryStep (fun _ e => RefusesReopening e)
          (trace (nodeStep c sink) (World.fresh c profile trust) events) ↔
        EveryStep (fun _ e => ReopeningFails e)
          (trace (nodeStep c sink) (World.fresh c profile trust) events)) ∧
      ∀ before e rest, trace (nodeStep c sink) (World.fresh c profile trust) events =
          before ++ e :: rest →
        ∀ id handle s, Works e id handle s → s.state ≠ .unregistered →
          ∀ f ∈ e :: rest, ∀ reply, Replies f id reply → ¬ RefusedUnchanged f id handle s reply := by
  refine ⟨fun s inputs _ => s.transcriptFrozen_iff inputs,
    fun p inputs _ => p.transcriptFrozen_iff lawful inputs, fun events => ⟨?_, ?_⟩⟩
  · constructor
    · intro every before middle after split
      obtain ⟨first, event, rest, -, -, rfl, -⟩ := trace_split _ split
      exact (refusesReopening_iff lawful (.run lawful sink profile trust first) event).mp
        (every _ _ _ split)
    · intro every before middle after split
      obtain ⟨first, event, rest, -, -, rfl, -⟩ := trace_split _ split
      exact (refusesReopening_iff lawful (.run lawful sink profile trust first) event).mpr
        (every _ _ _ split)
  · intro before e rest split id handle s works _ f later reply replies
    exact initial_never_refused split works later replies

/-- Both sides of an exchange keep the transcript once the PIN is in. -/
theorem transcript_frozen_exchange :
    Reference.exchange.serverFresh.TranscriptFrozen
      (Reference.exchange.serverInputs Reference.noob
        (Reference.crates.encodeWire Reference.discovery)) ∧
    Reference.exchange.peerFresh.TranscriptFrozen
      (Reference.exchange.peerInputs Reference.noob Reference.discovery) := by
  obtain ⟨server, peer, -⟩ :=
    transcript_frozen_iff Reference.lawful Reference.keeping Reference.inviterProfile []
  exact ⟨(server _ _ (.inr ⟨_, rfl⟩)).mpr (Reference.exchange.server_unrenewed Reference.lawful
      Reference.length_noob Reference.decode_discovery rfl rfl rfl),
    (peer _ _ (.inr ⟨_, rfl⟩)).mpr (Reference.exchange.peer_unrenewed Reference.lawful
      Reference.discovery Reference.length_noob)⟩

/-- A Type 2 repeated to a Server whose PIN is set replaces its key and its nonce; a stray
initial request takes the session of its invite with it. -/
theorem renewed_after_pin :
    ¬ Reference.exchange.serverFresh.TranscriptFrozen
      (Reference.exchange.armingInputs Reference.noob ++
        [.receive Reference.exchange.peerDraws
          (Reference.crates.encodeWire Reference.exchange.negotiationResponse)]) ∧
    ∃ before e rest id handle s, trace (nodeStep Reference.crates Reference.keeping)
        Reference.joinerNode (Reference.endpoints.joinEvents "invite" Reference.joinerIo ++
          Handshake.strayEvents "invite" Reference.joinerIo) = before ++ e :: rest ∧
      Works e id handle s ∧ s.state = .waiting ∧
      ∃ f ∈ e :: rest, ∃ reply, Replies f id reply ∧ ¬ RefusedUnchanged f id handle s reply := by
  refine ⟨Reference.exchange.repeated_renews Reference.lawful Reference.length_noob (by decide), ?_⟩
  have invitable := Reference.invitable "invite" (by decide)
  have drawn : Reference.joinerIo.draws = Reference.endpoints.peerDraws := rfl
  obtain ⟨waiting, -⟩ := invitable.joins Reference.lawful drawn
  obtain ⟨before, e, rest, split, works, f, later, reply, replies⟩ :=
    evicting_works Reference.lawful waiting (by decide) Reference.keeping
      (Handshake.joiner_refuses_nothing Reference.lawful Reference.endpoints
        Reference.joinerIo.draws Reference.endpoints.peerWaiting)
  have whole := trace_append (nodeStep Reference.crates Reference.keeping) Reference.joinerNode
    (Reference.endpoints.joinEvents "invite" Reference.joinerIo)
    (Handshake.strayEvents "invite" Reference.joinerIo)
  refine ⟨_, e, rest, _, _, _, (whole.trans (congrArg _ split)).trans
    (List.append_assoc _ _ _).symm, works, rfl, f, later, reply, replies, ?_⟩
  exact initial_never_refused split works later replies

end OpenPair
