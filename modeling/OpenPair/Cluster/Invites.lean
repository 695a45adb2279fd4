import OpenPair.Cluster.NodeRuns
import OpenPair.Cluster.SessionRuns

/-! The sessions of the invites a node has created. -/

set_option autoImplicit false

namespace OpenPair

open Tasks Transition

variable {c : Crates} {T : Type} {sink : TrustSink T}

/-- A point of `create_invite` before its session is in the table. -/
def Point.Creating : Point c → Prop
  | .createAwait _ _ | .createInsert _ _ => True
  | _ => False

namespace World

/-- The call made, or makes, a session for its invite. -/
def Creates (w : World c T) (id : CallId) : Prop :=
  ∃ addr point, w.tasks id = some ⟨.createInvite id.inviteId addr, point⟩

/-- Every session comes from one call of `create_invite`, which has returned, and
every handle leads to a session. -/
structure Invited (w : World c T) : Prop where
  sessions : ∀ {handle s}, w.shared.inviterSessions handle = some s →
    ∃ addr, w.tasks handle = some ⟨.createInvite handle.inviteId addr, .returned⟩
  inviters : ∀ {inviteId handle}, w.shared.inviters.lookup inviteId = some handle →
    ∃ s, w.shared.inviterSessions handle = some s
  held : ∀ {id call blob handle}, w.tasks id = some ⟨call, .completionSession blob handle⟩ →
    ∃ s, w.shared.inviterSessions handle = some s
  creating : ∀ {id task}, w.tasks id = some task → task.point.Creating →
    ∃ addr, task.call = .createInvite id.inviteId addr

def Distinct (w : World c T) : Prop :=
  ∀ inviteId first second, w.Creates ⟨inviteId, first⟩ → w.Creates ⟨inviteId, second⟩ →
    first = second

theorem Invited.fresh (profile : NodeProfile) (trust : T) :
    (World.fresh c profile trust).Invited where
  sessions wrong := by cases wrong
  inviters wrong := by cases wrong
  held wrong := by cases wrong
  creating wrong := by cases wrong

theorem Distinct.fresh (profile : NodeProfile) (trust : T) :
    (World.fresh c profile trust).Distinct := by
  rintro inviteId first second ⟨addr, point, wrong⟩
  cases wrong

variable {w : World c T} {id : CallId}

theorem session_effect {n m : PairingNode c T} {point after : Point c} {pinned : Option Paired}
    (handle : CallId) (effect : n.Effect sink id point m after pinned) :
    m.inviterSessions handle = n.inviterSessions handle ∨
      (∃ s pin, point = .createInsert s pin ∧ handle = id ∧ after = .returned ∧
        m.inviterSessions handle = some s) ∨
      ∃ blob s t draws answer, point = .completionSession blob handle ∧
        n.inviterSessions handle = some s ∧
        s.completionRequest draws id.inviteId blob = (t, answer) ∧
        m.inviterSessions handle = some t := by
  cases effect with
  | @inviterStepped blob held s t draws answer after found answered =>
    by_cases same : handle = held
    · subst same
      exact .inr (.inr ⟨blob, s, t, draws, answer, rfl, found, answered, Function.update_self _ _ _⟩)
    · exact .inl (Function.update_of_ne same _ _)
  | @inviterPinned blob held s t draws reply paired found answered =>
    by_cases same : handle = held
    · subst same
      exact .inr (.inr ⟨blob, s, t, draws, _, rfl, found, answered, Function.update_self _ _ _⟩)
    · exact .inl (Function.update_of_ne same _ _)
  | @invited s pin =>
    by_cases same : handle = id
    · subst same
      exact .inr (.inl ⟨s, pin, rfl, rfl, rfl, Function.update_self _ _ _⟩)
    · exact .inl (Function.update_of_ne same _ _)
  | _ => exact .inl rfl

theorem inviters_effect {n m : PairingNode c T} {point after : Point c} {pinned : Option Paired}
    {inviteId : String} {handle : CallId} (effect : n.Effect sink id point m after pinned)
    (found : m.inviters.lookup inviteId = some handle) :
    n.inviters.lookup inviteId = some handle ∨
      (handle = id ∧ inviteId = id.inviteId ∧ (∃ s pin, point = .createInsert s pin) ∧
        ∃ s, m.inviterSessions id = some s) := by
  cases effect with
  | ended => exact .inl (lookup_erase_some found).2
  | @invited s pin =>
    rcases lookup_insert_cases found with ⟨rfl, rfl⟩ | old
    · exact .inr ⟨rfl, rfl, ⟨s, pin, rfl⟩, s, Function.update_self _ _ _⟩
    · exact .inl old
  | _ => exact .inl found

theorem held_effect {n m : PairingNode c T} {point after : Point c} {pinned : Option Paired}
    {blob : Bytes} {handle : CallId} (effect : n.Effect sink id point m after pinned)
    (held : after = .completionSession blob handle) :
    point = .completionSession blob handle ∨
      (point = .completionLookup blob ∧ n.inviters.lookup id.inviteId = some handle) := by
  subst held
  cases effect with
  | stays => exact .inl rfl
  | leaves more settled ended => exact ended.elim
  | joinerStepped held ended => exact ended.elim
  | inviterFound found => exact .inr ⟨rfl, found⟩
  | inviterStepped found answered quiet ended => exact ended.elim

theorem creating_effect {n m : PairingNode c T} {point after : Point c} {pinned : Option Paired}
    (effect : n.Effect sink id point m after pinned) (creating : after.Creating) :
    point.Creating := by
  cases effect with
  | stays => exact creating
  | leaves more settled ended => cases after <;> first | exact ended.elim | exact creating.elim
  | joinerStepped held ended => cases after <;> first | exact ended.elim | exact creating.elim
  | inviterStepped found answered quiet ended =>
    cases after <;> first | exact ended.elim | exact creating.elim
  | offering => trivial
  | inviting => trivial
  | _ => exact creating.elim

theorem start_creating {n : PairingNode c T} {call : Call}
    (creating : (n.start call).point.Creating) : ∃ addr, call = .createInvite call.inviteId addr := by
  cases call with
  | request env =>
    simp only [PairingNode.start] at creating
    repeat' split at creating
    all_goals exact creating.elim
  | createInvite inviteId addr => exact ⟨addr, rfl⟩
  | submitPin inviteId pin =>
    simp only [PairingNode.start] at creating
    split at creating <;> exact creating.elim

theorem put_mono {call : Call} {turn : PairingNode.Turn c T} {other : CallId}
    {task : Task Call (Point c)} (found : w.tasks other = some task) (apart : w.tasks id = none) :
    (w.put id call turn).tasks other = some task := by
  have differs : other ≠ id := by
    rintro rfl
    rw [apart] at found
    cases found
  rw [put_other call turn differs, found]

theorem Invited.start (invited : w.Invited) {serial : Nat} {call : Call}
    (new : w.tasks ⟨call.inviteId, serial⟩ = none) :
    World.Invited (w.put ⟨call.inviteId, serial⟩ call (w.shared.start call)) where
  sessions found := by
    rw [put_shared, w.shared.start_shared call] at found
    obtain ⟨addr, created⟩ := invited.sessions found
    exact ⟨addr, put_mono created new⟩
  inviters found := by
    rw [put_shared, w.shared.start_shared call] at found ⊢
    exact invited.inviters found
  held found := by
    rw [put_shared, w.shared.start_shared call]
    rcases put_tasks found with ⟨-, same⟩ | ⟨-, old⟩
    · have first := w.shared.start_first call
      rw [show (w.shared.start call).point = .completionSession _ _ from
        (congrArg Task.point same).symm] at first
      exact first.elim
    · exact invited.held old
  creating found point := by
    rcases put_tasks found with ⟨rfl, rfl⟩ | ⟨-, old⟩
    · exact start_creating point
    · exact invited.creating old point

theorem session_mono {n m : PairingNode c T} {point after : Point c} {pinned : Option Paired}
    {handle : CallId} {s : InviterSession c} (effect : n.Effect sink id point m after pinned)
    (session : n.inviterSessions handle = some s) : ∃ s, m.inviterSessions handle = some s := by
  rcases session_effect handle effect with same | ⟨s, -, -, -, -, set⟩ | ⟨-, -, t, -, -, -, -, -, set⟩
  · exact ⟨s, same.trans session⟩
  · exact ⟨s, set⟩
  · exact ⟨t, set⟩

theorem Invited.turn (invited : w.Invited) {task : Task Call (Point c)}
    {turn : PairingNode.Turn c T} (found : w.tasks id = some task)
    (turned : w.shared.Turned sink id task.point turn) :
    World.Invited (w.put id task.call turn) := by
  -- The call that made a session has returned, and makes no more turns.
  have returned {handle : CallId} {s : InviterSession c}
      (session : w.shared.inviterSessions handle = some s) :
      ∃ addr, (w.put id task.call turn).tasks handle =
        some ⟨.createInvite handle.inviteId addr, .returned⟩ := by
    obtain ⟨addr, created⟩ := invited.sessions session
    refine ⟨addr, ?_⟩
    by_cases same : handle = id
    · subst same
      obtain rfl : task = ⟨.createInvite handle.inviteId addr, .returned⟩ :=
        Option.some.inj (found.symm.trans created)
      rw [put_self, (turned.of_ended trivial).2.1]
    · rw [put_other task.call turn same, created]
  refine ⟨fun {handle} _ session => ?_, fun entry => ?_, fun other => ?_, fun other point => ?_⟩
  · rcases session_effect handle turned with same | ⟨s, pin, at_, rfl, after, -⟩ |
      ⟨-, s, -, -, -, -, before, -, -⟩
    · exact returned (same.symm.trans session)
    · obtain ⟨addr, call⟩ := invited.creating found (by rw [at_]; trivial)
      exact ⟨addr, by rw [put_self, after, call]⟩
    · exact returned before
  · rcases inviters_effect turned entry with old | ⟨rfl, -, -, session⟩
    · obtain ⟨s, session⟩ := invited.inviters old
      exact session_mono turned session
    · exact session
  · rcases put_tasks other with ⟨rfl, same⟩ | ⟨-, old⟩
    · rcases held_effect turned (congrArg Task.point same).symm with before | ⟨before, entry⟩
      · obtain ⟨call, point⟩ := task
        subst before
        obtain ⟨s, session⟩ := invited.held found
        exact session_mono turned session
      · obtain ⟨s, session⟩ := invited.inviters entry
        exact session_mono turned session
    · obtain ⟨s, session⟩ := invited.held old
      exact session_mono turned session
  · rcases put_tasks other with ⟨rfl, rfl⟩ | ⟨-, old⟩
    · have made := invited.creating found (creating_effect turned point)
      exact made
    · exact invited.creating old point

theorem Invited.step (invited : w.Invited) (event : NodeEvent c) :
    (nodeStep c sink w event).1.Invited :=
  nodeStep_keep invited (fun _ _ _ new => invited.start new)
    fun _ _ _ _ found turned => invited.turn found turned

theorem Invited.creates (invited : w.Invited) {handle : CallId} {s : InviterSession c}
    (session : w.shared.inviterSessions handle = some s) : w.Creates handle := by
  obtain ⟨addr, created⟩ := invited.sessions session
  exact ⟨addr, _, created⟩

theorem Creates.put {call : Call} {turn : PairingNode.Turn c T} {other : CallId}
    (creates : World.Creates (w.put id call turn) other) :
    (other = id ∧ ∃ addr, call = .createInvite id.inviteId addr) ∨ w.Creates other := by
  obtain ⟨addr, point, found⟩ := creates
  rcases put_tasks found with ⟨rfl, same⟩ | ⟨-, old⟩
  · exact .inl ⟨rfl, addr, (congrArg Task.call same).symm⟩
  · exact .inr ⟨addr, point, old⟩

/-- The drawn UUID is that of no other invite. -/
def DrawsFreshUuid (e : NodeStep c T) : Prop :=
  ∀ serial inviteId addr, e.input = .call serial (.createInvite inviteId addr) →
    ∀ other, ¬ e.before.Creates ⟨inviteId, other⟩

theorem Distinct.step (distinct : w.Distinct) {event : NodeEvent c}
    (fresh : DrawsFreshUuid (entry (nodeStep c sink) w event)) :
    (nodeStep c sink w event).1.Distinct := by
  refine nodeStep_keep (P := World.Distinct) distinct (fun serial call same new => ?_)
    fun id io task _ found _ => ?_
  · intro inviteId first second one two
    have drawn {other : Nat} (creates : w.Creates ⟨inviteId, other⟩)
        (named : ∃ addr, call = .createInvite inviteId addr) : False := by
      obtain ⟨addr, rfl⟩ := named
      exact fresh serial inviteId addr same other creates
    rcases one.put with ⟨here, addr, made⟩ | one <;> rcases two.put with ⟨there, addr', made'⟩ | two
    · exact (CallId.mk.inj here).2.trans (CallId.mk.inj there).2.symm
    · obtain rfl := (CallId.mk.inj here).1
      exact (drawn two ⟨addr, made⟩).elim
    · obtain rfl := (CallId.mk.inj there).1
      exact (drawn one ⟨addr', made'⟩).elim
    · exact distinct inviteId first second one two
  · have old {other : CallId}
        (creates : World.Creates (w.put id task.call (w.shared.advance sink id io task.point)) other) :
        w.Creates other := by
      rcases creates.put with ⟨rfl, addr, made⟩ | before
      · obtain ⟨call, point⟩ := task
        subst made
        exact ⟨addr, point, found⟩
      · exact before
    intro inviteId first second one two
    exact distinct inviteId first second (old one) (old two)

theorem Distinct.session (distinct : w.Distinct) (invited : w.Invited) {first second : CallId}
    {s t : InviterSession c} (left : w.shared.inviterSessions first = some s)
    (right : w.shared.inviterSessions second = some t) (same : first.inviteId = second.inviteId) :
    first = second := by
  obtain ⟨inviteId, one⟩ := first
  obtain ⟨_, two⟩ := second
  obtain rfl : inviteId = _ := same
  rw [distinct inviteId one two (invited.creates left) (invited.creates right)]

end World

/-! ## Completion requests -/

/-- A completion request hands its message to the session behind its handle. -/
def Hands (e : NodeStep c T) (id handle : CallId) (s : InviterSession c) (draws : Draws c)
    (blob : Bytes) : Prop :=
  ∃ io call, e.input = .resume id io ∧ io.draws = draws ∧
    e.before.tasks id = some ⟨call, .completionSession blob handle⟩ ∧
    e.before.shared.inviterSessions handle = some s

/-- The Server of an invite's session gives this outcome to a message. -/
def Completes (e : NodeStep c T) (inviteId : String) (handle : CallId) (out : Outcome) : Prop :=
  ∃ id s draws blob, id.inviteId = inviteId ∧ Hands e id handle s draws blob ∧
    blob.isEmpty = false ∧ (s.server.receive draws blob).2 = some out

def FailsAuthentication (e : NodeStep c T) (inviteId : String) (handle : CallId) : Prop :=
  ∃ out, Completes e inviteId handle out ∧ out.errorCode.any isWrongPinCode = true

def Registers (e : NodeStep c T) (inviteId : String) (handle : CallId) : Prop :=
  ∃ out, Completes e inviteId handle out ∧ out.success = true

-- A completion request for the invite calls `pin_peer`.
def CompletionPins (e : NodeStep c T) (inviteId : String) (handle : CallId) : Prop :=
  ∃ id io call blob seen, id.inviteId = inviteId ∧ e.input = .resume id io ∧
    e.before.tasks id = some ⟨call, .completionSession blob handle⟩ ∧
    e.output = some seen ∧ seen.pinned ≠ none

namespace InviterSession

variable {s t : InviterSession c} {draws : Draws c} {inviteId : String} {blob : Bytes}

theorem completionRequest_joiner (held : s.joiner ≠ none) :
    (s.completionRequest draws inviteId blob).1.joiner ≠ none := by
  unfold completionRequest
  split
  · exact held
  · have kept : (s.onCompletion draws blob).1.joiner = s.joiner := by
      rcases (s.step_cases (.completion draws blob)).2 with same | ⟨absent, -⟩
      · exact same
      · exact absurd absent held
    rw [kept]
    exact held

theorem completionRequest_paired {reply : Reply} {paired : Paired}
    (answered : s.completionRequest draws inviteId blob = (t, some (reply, some paired))) :
    t.joiner ≠ none ∧ blob.isEmpty = false ∧
      ∃ out, (s.server.receive draws blob).2 = some out ∧ out.success = true := by
  unfold completionRequest at answered
  split at answered
  · cases answered
  · next some =>
    obtain ⟨after, answer⟩ := Prod.mk.inj answered
    obtain ⟨result, handled, shown⟩ := Option.map_eq_some_iff.mp answer
    cases result with
    | error e => cases shown
    | ok step =>
      have found : (s.onCompletion draws blob).1.paired step = .some paired :=
        (Prod.mk.inj shown).2
      unfold InviterSession.paired at found
      split at found
      · next success =>
        obtain ⟨peer, captured, -⟩ := Option.bind_eq_some_iff.mp found
        refine ⟨?_, by simpa using some, ?_⟩
        · rw [← after, captured]
          exact Option.some_ne_none peer
        · unfold onCompletion at handled
          cases received : (s.server.receive draws blob).2 with
          | none => simp [received] at handled
          | some out =>
            refine ⟨out, rfl, ?_⟩
            simp only [received] at handled
            split at handled
            · cases handled
            · cases handled
              simpa [Step.fromOutcome] using (Bool.and_eq_true_iff.mp success).2
      · cases found

end InviterSession

/-- A success is the answer to a Type 6 that verifies. -/
theorem Server.receive_success_verifies {s : Server c} {draws : Draws c} {bytes : Bytes}
    {out : Outcome} (answered : (s.receive draws bytes).2 = some out)
    (success : out.success = true) : ∃ wm keym, c.decodeWire bytes = some wm ∧
      wm.errorCode = none ∧ wm.type = some 6 ∧ s.Verifies wm keym := by
  rcases s.receive_effect draws bytes with malformed | ⟨wm, decoded, effect⟩
  · rw [malformed] at answered
    cases answered
    cases success
  · generalize (s.receive draws bytes).1 = t at effect
    rw [answered] at effect
    cases effect with
    | registered notice type verifies => exact ⟨wm, _, decoded, notice, type, verifies⟩
    | kept quiet | heard _ _ quiet | offered _ _ _ quiet | resumed _ _ _ quiet
    | negotiated _ _ _ _ quiet | matched _ _ _ _ quiet =>
      exact absurd (quiet out rfl) (by simp [success])
    | exchanged => cases success

section

variable {w : World c T} {event : NodeEvent c} {id handle : CallId} {s : InviterSession c}
  {draws : Draws c} {blob : Bytes} {inviteId : String}

theorem Hands.step (hands : Hands (entry (nodeStep c sink) w event) id handle s draws blob) :
    ∃ call, nodeStep c sink w event =
      (w.put id call (w.shared.completionSession sink id draws blob handle s),
        some (w.shared.completionSession sink id draws blob handle s).seen) := by
  obtain ⟨io, call, same, rfl, found, session⟩ := hands
  obtain rfl : event = .resume id io := same
  have running : w.tasks id = some ⟨call, .completionSession blob handle⟩ := found
  have turn : (pairing c sink).advance w.shared id io (.completionSession blob handle) =
      w.shared.completionSession sink id io.draws blob handle s := by
    simp only [pairing, PairingNode.advance, show w.shared.inviterSessions handle = some s from session]
  refine ⟨call, ?_⟩
  rw [nodeStep, step_resume running, turn]

theorem completionSession_ended (n : PairingNode c T) :
    (n.completionSession sink id draws blob handle s).point.Ended := by
  unfold PairingNode.completionSession
  split <;> trivial

/-- A completion request that pins hands a message to a session and captures the joiner. -/
theorem CompletionPins.hands (invited : w.Invited)
    (pins : CompletionPins (entry (nodeStep c sink) w event) inviteId handle) :
    ∃ id s draws blob out t, id.inviteId = inviteId ∧
      Hands (entry (nodeStep c sink) w event) id handle s draws blob ∧ blob.isEmpty = false ∧
      (s.server.receive draws blob).2 = some out ∧ out.success = true ∧
      (nodeStep c sink w event).1.shared.inviterSessions handle = some t ∧ t.joiner ≠ none := by
  obtain ⟨id, io, call, blob, seen, named, same, found, output, pinned⟩ := pins
  obtain ⟨s, session⟩ := invited.held found
  have hands : Hands (entry (nodeStep c sink) w event) id handle s io.draws blob :=
    ⟨io, call, same, rfl, found, session⟩
  obtain ⟨call', stepped⟩ := hands.step
  rw [entry_output, stepped] at output
  have shown := Option.some.inj output
  refine ⟨id, s, io.draws, blob, ?_⟩
  unfold PairingNode.completionSession at shown stepped
  split at shown
  · exact absurd (by rw [← shown]; rfl) pinned
  · exact absurd (by rw [← shown]; rfl) pinned
  · next t reply paired answered =>
    obtain ⟨captured, some, out, received, success⟩ :=
      InviterSession.completionRequest_paired answered
    refine ⟨out, t, named, hands, some, received, success, ?_, captured⟩
    rw [stepped]
    simp only [answered, put_shared, PairingNode.setInviter, Function.update_self]

end

end OpenPair
