import OpenPair.Cluster.Guesses

/-! The signals that end an invite, with other calls for it in progress. -/

set_option autoImplicit false

namespace OpenPair

open Tasks Transition

variable {c : Crates} {T : Type} {sink : TrustSink T}

/-- A decline, fail or expired signal for the invite is handled. -/
def EndsInvite (e : NodeStep c T) (inviteId : String) : Prop :=
  ∃ id, id.inviteId = inviteId ∧ TurnAt e id .endInvite

def ForgetsJoiner (e : NodeStep c T) (inviteId : String) : Prop :=
  ∃ id, id.inviteId = inviteId ∧ TurnAt e id .cancelJoiner

def CancelsInvite (e : NodeStep c T) (inviteId : String) : Prop :=
  ∃ id, id.inviteId = inviteId ∧ TurnAt e id .cancelPending

-- A `submit_pin` for the invite calls `pin_peer`.
def SubmitPins (e : NodeStep c T) (inviteId : String) : Prop :=
  ∃ id addr handle seen, id.inviteId = inviteId ∧ TurnAt e id (.submitPaired addr handle) ∧
    e.output = some seen ∧ seen.pinned ≠ none

/-- No peer is pinned for an invite after a signal that ended it. -/
def NoTrustAfterSignal (before : List (NodeStep c T)) (e : NodeStep c T) : Prop :=
  ∀ inviteId, ((∃ f ∈ before, EndsInvite f inviteId) → ∀ handle, ¬ CompletionPins e inviteId handle) ∧
    ((∃ f ∈ before, CancelsInvite f inviteId) → ¬ SubmitPins e inviteId)

-- A `submit_pin` that has its session.
def Point.Submitting : Point c → Prop
  | .submitFeed _ _ | .submitAwait _ _ | .submitSession _ _ _ | .submitPaired _ _ => True
  | _ => False

/-- A signal finds no call with the session of its invite, and none makes or opens
one for it later. -/
structure FindsInviteFree (sink : TrustSink T) (before : List (NodeStep c T))
    (e : NodeStep c T) : Prop where
  ended : ∀ inviteId, EndsInvite e inviteId → ∀ id call blob handle, id.inviteId = inviteId →
    e.before.tasks id ≠ some ⟨call, .completionSession blob handle⟩
  created : ∀ id s pin, TurnAt e id (.createInsert s pin) → ∀ f ∈ before,
    ¬ EndsInvite f id.inviteId
  cancelled : ∀ inviteId, CancelsInvite e inviteId → ∀ id task, id.inviteId = inviteId →
    e.before.tasks id = some task → ¬ task.point.Submitting
  opened : ∀ id msg, TurnAt e id (.initialLookup msg) →
    (∃ f ∈ before, ForgetsJoiner f id.inviteId) → e.before.shared.joiners.lookup id.inviteId = none →
    firstType c msg = some 1 → sink.isClustered e.before.shared.trust = true

structure TornDown (history : List (NodeStep c T)) (w : World c T) : Prop where
  ended : ∀ inviteId, (∃ f ∈ history, EndsInvite f inviteId) →
    w.shared.inviters.lookup inviteId = none ∧ ∀ id call blob handle, id.inviteId = inviteId →
      w.tasks id ≠ some ⟨call, .completionSession blob handle⟩
  forgotten : ∀ inviteId, (∃ f ∈ history, ForgetsJoiner f inviteId) →
    w.shared.joiners.lookup inviteId = none
  begun : ∀ id call, w.tasks id = some ⟨call, .cancelPending⟩ →
    ∃ f ∈ history, ForgetsJoiner f id.inviteId
  cancelled : ∀ inviteId, (∃ f ∈ history, CancelsInvite f inviteId) →
    (∃ f ∈ history, ForgetsJoiner f inviteId) ∧ ∀ id task, id.inviteId = inviteId →
      w.tasks id = some task → ¬ task.point.Submitting

section

variable {w : World c T} {event : NodeEvent c} {inviteId : String} {handle : CallId}

theorem inviters_step
    (found : (nodeStep c sink w event).1.shared.inviters.lookup inviteId = some handle) :
    (w.shared.inviters.lookup inviteId = some handle ∧
        ¬ EndsInvite (entry (nodeStep c sink) w event) inviteId) ∨
      ∃ id s pin, id.inviteId = inviteId ∧
        TurnAt (entry (nodeStep c sink) w event) id (.createInsert s pin) := by
  rcases shared_step sink w event with ⟨same, quiet⟩ | ⟨id, point, after, pinned, turn, effect⟩
  · rw [same] at found
    exact .inl ⟨found, fun ⟨id, _, turn⟩ => quiet id _ turn⟩
  · generalize (nodeStep c sink w event).1.shared = m at found effect
    rcases World.inviters_effect effect found with old | ⟨rfl, rfl, ⟨s, pin, rfl⟩, -⟩
    · refine .inl ⟨old, ?_⟩
      rintro ⟨other, named, ends⟩
      obtain ⟨rfl, rfl⟩ := turn.unique ends
      cases effect with
      | stays settled => exact settled trivial
      | leaves more settled => exact settled trivial
      | joinerStepped held => cases held
      | ended => exact (lookup_erase_some found).1 named.symm
    · exact .inr ⟨_, s, pin, rfl, turn⟩

theorem joiners_step
    (found : (nodeStep c sink w event).1.shared.joiners.lookup inviteId = some handle) :
    (w.shared.joiners.lookup inviteId = some handle ∧
        ¬ ForgetsJoiner (entry (nodeStep c sink) w event) inviteId) ∨
      ∃ id msg, id.inviteId = inviteId ∧
        TurnAt (entry (nodeStep c sink) w event) id (.initialLookup msg) ∧
        w.shared.joiners.lookup inviteId = none ∧ firstType c msg = some 1 ∧
        sink.isClustered w.shared.trust = false := by
  rcases shared_step sink w event with ⟨same, quiet⟩ | ⟨id, point, after, pinned, turn, effect⟩
  · rw [same] at found
    exact .inl ⟨found, fun ⟨id, _, turn⟩ => quiet id _ turn⟩
  · generalize (nodeStep c sink w event).1.shared = m at found effect
    have other (differs : point ≠ .cancelJoiner) :
        ¬ ForgetsJoiner (entry (nodeStep c sink) w event) inviteId :=
      fun ⟨own, _, forgets⟩ => differs (turn.unique forgets).2.symm
    -- Only a first message of an unknown invite enters a session.
    cases effect with
    | opened absent first free =>
      rcases lookup_insert_cases found with ⟨rfl, -⟩ | old
      · exact .inr ⟨id, _, rfl, turn, absent, first, free⟩
      · exact .inl ⟨old, other (fun same => by cases same)⟩
    | cancelled =>
      obtain ⟨differs, old⟩ := lookup_erase_some found
      refine .inl ⟨old, fun ⟨own, named, forgets⟩ => differs ?_⟩
      rw [← named, (turn.unique forgets).1]
    | stays settled => exact .inl ⟨found, other (fun same => settled (same ▸ trivial))⟩
    | leaves more settled => exact .inl ⟨found, other (fun same => settled (same ▸ trivial))⟩
    | joinerStepped held => exact .inl ⟨found, other (fun same => by rw [same] at held; cases held)⟩
    | evicted | forgotten | failForgotten =>
      exact .inl ⟨(lookup_erase_some found).2, other (fun same => by cases same)⟩
    | _ => exact .inl ⟨found, other (fun same => by cases same)⟩

theorem Point.Ended.not_submitting {point : Point c} (ended : point.Ended) : ¬ point.Submitting := by
  cases point <;> first | exact ended.elim | exact not_false

theorem Point.First.not_submitting {point : Point c} (first : point.First) : ¬ point.Submitting := by
  cases point <;> first | exact first.elim | exact not_false

theorem submitting_effect {n m : PairingNode c T} {id : CallId} {point after : Point c}
    {pinned : Option Paired} (effect : n.Effect sink id point m after pinned)
    (submitting : after.Submitting) :
    point.Submitting ∨ ∃ handle, n.joiners.lookup id.inviteId = some handle := by
  cases effect with
  | stays => exact .inl submitting
  | leaves more settled ended => exact (ended.not_submitting submitting).elim
  | joinerStepped held ended => exact (ended.not_submitting submitting).elim
  | inviterStepped found answered quiet ended => exact (ended.not_submitting submitting).elim
  | submitting found => exact .inr ⟨_, found⟩
  | fed | heard | sending | succeeded => exact .inl trivial
  | _ => exact submitting.elim

theorem submitting_step {id : CallId} {task : Task Call (Point c)}
    (found : (nodeStep c sink w event).1.tasks id = some task) (submitting : task.point.Submitting) :
    (∃ before, w.tasks id = some before ∧ before.point.Submitting) ∨
      ∃ handle, w.shared.joiners.lookup id.inviteId = some handle := by
  rcases tasks_step found with old | first | ⟨point, pinned, turn, before, effect⟩
  · exact .inl ⟨task, old, submitting⟩
  · exact (first.not_submitting submitting).elim
  · rcases submitting_effect effect submitting with held | entry
    · exact .inl ⟨_, before, held⟩
    · exact .inr entry

theorem cancelPending_step {id : CallId} {call : Call}
    (found : (nodeStep c sink w event).1.tasks id = some ⟨call, .cancelPending⟩) :
    w.tasks id = some ⟨call, .cancelPending⟩ ∨
      ForgetsJoiner (entry (nodeStep c sink) w event) id.inviteId := by
  rcases tasks_step found with old | first | ⟨point, pinned, turn, before, effect⟩
  · exact .inl old
  · exact first.elim
  · generalize (nodeStep c sink w event).1.shared = m at effect
    cases effect with
    | cancelled => exact .inr ⟨id, rfl, turn⟩
    | stays => exact .inl before
    | leaves more settled ended => exact ended.elim
    | joinerStepped held ended => exact ended.elim
    | inviterStepped found answered quiet ended => exact ended.elim

variable {history : List (NodeStep c T)}

theorem TornDown.ended_step (torn : TornDown history w)
    (guarded : FindsInviteFree sink history (entry (nodeStep c sink) w event))
    {f : NodeStep c T} (member : f ∈ history ++ [entry (nodeStep c sink) w event])
    (ends : EndsInvite f inviteId) :
    (nodeStep c sink w event).1.shared.inviters.lookup inviteId = none ∧
      ∀ id call blob handle, id.inviteId = inviteId →
        (nodeStep c sink w event).1.tasks id ≠ some ⟨call, .completionSession blob handle⟩ := by
  rw [Option.eq_none_iff_forall_ne_some]
  -- The invite was ended before, or in this step.
  rcases List.mem_append.mp member with old | new
  · obtain ⟨none, free⟩ := torn.ended inviteId ⟨f, old, ends⟩
    refine ⟨fun handle found => ?_, fun id call blob handle named holds => ?_⟩
    · rcases inviters_step found with ⟨before, -⟩ | ⟨id, s, pin, rfl, turn⟩
      · rw [none] at before
        cases before
      · exact guarded.created id s pin turn f old ends
    · rcases holds_step holds with before | ⟨-, entry⟩
      · exact free id call blob handle named before
      · rw [named, none] at entry
        cases entry
  · obtain rfl := List.mem_singleton.mp new
    refine ⟨fun handle found => ?_, fun id call blob handle named holds => ?_⟩
    · rcases inviters_step found with ⟨-, other⟩ | ⟨id, s, pin, -, turn⟩
      · exact other ends
      · obtain ⟨own, -, at_⟩ := ends
        cases (turn.unique at_).2
    · rcases holds_step holds with before | ⟨turn, -⟩
      · exact guarded.ended inviteId ends id call blob handle named before
      · obtain ⟨own, -, at_⟩ := ends
        cases (turn.unique at_).2

theorem TornDown.forgotten_step (torn : TornDown history w)
    (guarded : FindsInviteFree sink history (entry (nodeStep c sink) w event))
    {f : NodeStep c T} (member : f ∈ history ++ [entry (nodeStep c sink) w event])
    (forgets : ForgetsJoiner f inviteId) :
    (nodeStep c sink w event).1.shared.joiners.lookup inviteId = none := by
  rw [Option.eq_none_iff_forall_ne_some]
  intro handle found
  rcases joiners_step found with ⟨before, other⟩ | ⟨id, msg, rfl, turn, absent, first, free⟩
  · rcases List.mem_append.mp member with old | new
    · rw [torn.forgotten inviteId ⟨f, old, forgets⟩] at before
      cases before
    · obtain rfl := List.mem_singleton.mp new
      exact other forgets
  · rcases List.mem_append.mp member with old | new
    · have clustered := guarded.opened id msg turn ⟨f, old, forgets⟩ absent first
      exact absurd (free.symm.trans clustered) Bool.false_ne_true
    · obtain rfl := List.mem_singleton.mp new
      obtain ⟨own, -, at_⟩ := forgets
      cases (turn.unique at_).2

theorem TornDown.cancelled_step (torn : TornDown history w)
    (guarded : FindsInviteFree sink history (entry (nodeStep c sink) w event))
    {f : NodeStep c T} (member : f ∈ history ++ [entry (nodeStep c sink) w event])
    (cancels : CancelsInvite f inviteId) :
    (∃ f ∈ history, ForgetsJoiner f inviteId) ∧ ∀ id task, id.inviteId = inviteId →
      (nodeStep c sink w event).1.tasks id = some task → ¬ task.point.Submitting := by
  have begun : ∃ f ∈ history, ForgetsJoiner f inviteId := by
    rcases List.mem_append.mp member with old | new
    · exact (torn.cancelled inviteId ⟨f, old, cancels⟩).1
    · obtain rfl := List.mem_singleton.mp new
      obtain ⟨id, rfl, io, call, -, found⟩ := cancels
      exact torn.begun id call found
  refine ⟨begun, fun id task named found submitting => ?_⟩
  rcases submitting_step found submitting with ⟨earlier, before, held⟩ | ⟨handle, entry⟩
  · rcases List.mem_append.mp member with old | new
    · exact (torn.cancelled inviteId ⟨f, old, cancels⟩).2 id earlier named before held
    · obtain rfl := List.mem_singleton.mp new
      exact guarded.cancelled inviteId cancels id earlier named before held
  · rw [named, torn.forgotten inviteId begun] at entry
    cases entry

theorem TornDown.step (history : List (NodeStep c T)) (w : World c T) (event : NodeEvent c)
    (torn : TornDown history w)
    (guarded : FindsInviteFree sink history (entry (nodeStep c sink) w event)) :
    TornDown (history ++ [entry (nodeStep c sink) w event]) (nodeStep c sink w event).1 where
  ended _ := fun ⟨_, member, ends⟩ => torn.ended_step guarded member ends
  forgotten _ := fun ⟨_, member, forgets⟩ => torn.forgotten_step guarded member forgets
  begun id call found := by
    rcases cancelPending_step found with before | forgets
    · obtain ⟨f, member, forgets⟩ := torn.begun id call before
      exact ⟨f, List.mem_append_left _ member, forgets⟩
    · exact ⟨_, List.mem_append_right _ (List.mem_singleton_self _), forgets⟩
  cancelled _ := by
    rintro ⟨f, member, cancels⟩
    obtain ⟨⟨g, earlier, forgets⟩, free⟩ := torn.cancelled_step guarded member cancels
    exact ⟨⟨g, List.mem_append_left _ earlier, forgets⟩, free⟩

end

/-! ### A decline -/

section

variable {w : World c T} {id : CallId} {s t : InviterSession c} {next : Nat} {blob : Bytes}
  {before : List (NodeStep c T)}

theorem decline_ends (id : CallId) (new : w.tasks ⟨id.inviteId, next⟩ = none)
    (named : id.inviteId.isEmpty = false) (sink : TrustSink T) (io : Io c) :
    ∃ f ∈ trace (nodeStep c sink) w (declineEvents id.inviteId next io),
      EndsInvite f id.inviteId := by
  rw [(trace_decline id new named sink io).1]
  exact ⟨_, List.mem_cons_of_mem _ List.mem_cons_self, ⟨id.inviteId, next⟩, rfl, io, _, rfl,
    put_self _ _ _⟩

def overtakenEvents (inviteId : String) (serial : Nat) (io : Io c) (blob : Bytes) :
    List (NodeEvent c) :=
  [.call serial (completionRequest (c := c) inviteId blob), .resume ⟨inviteId, serial⟩ io] ++
    declineEvents inviteId (serial + 1) io

/-- The request goes on with the session that it holds. -/
theorem overtaken_pins (lawful : c.Lawful) (serves : w.Serves id s next)
    (named : id.inviteId.isEmpty = false) (sink : TrustSink T) (io : Io c) {reply : Reply}
    {paired : Paired}
    (answered : s.completionRequest io.draws id.inviteId blob = (t, some (reply, some paired))) :
    (∃ f ∈ trace (nodeStep c sink) w (overtakenEvents id.inviteId next io blob),
        EndsInvite f id.inviteId) ∧
      CompletionPins (entry (nodeStep c sink)
        (run (nodeStep c sink) w (overtakenEvents id.inviteId next io blob))
        (.resume ⟨id.inviteId, next⟩ io)) id.inviteId id := by
  have apart : (⟨id.inviteId, next + 1⟩ : CallId) ≠ ⟨id.inviteId, next⟩ := by
    intro same
    have equal := (CallId.mk.inj same).2
    omega
  have holding : run (nodeStep c sink) w [.call next (completionRequest (c := c) id.inviteId blob),
      .resume ⟨id.inviteId, next⟩ io] = w.completing id next blob := by
    rw [run, serves.calls lawful named, run, serves.looks, run]
  have new : (w.completing id next blob).tasks ⟨id.inviteId, next + 1⟩ = none := by
    rw [World.completing, put_other _ _ apart]
    exact serves.free _ (Nat.le_succ next)
  obtain ⟨-, declined⟩ := trace_decline id new named sink io
  constructor
  · obtain ⟨f, member, ends⟩ := decline_ends id new named sink io
    refine ⟨f, ?_, ends⟩
    rw [overtakenEvents, trace_append, holding]
    exact List.mem_append_right _ member
  · rw [overtakenEvents, run_append, holding, declined]
    have held := (put_other (.request (.signal id.inviteId Phase.decline ""))
      (((w.completing id next blob).shared.forgetInviter id.inviteId).returns (.replied (.ok {})))
        apart.symm).trans (put_self (x := w) ⟨id.inviteId, next⟩
          (completionRequest (c := c) id.inviteId blob) (w.shared.waits (.completionSession blob id)))
    -- The invite is forgotten, but not the session that the request took from it.
    have turn : (w.shared.forgetInviter id.inviteId).advance sink ⟨id.inviteId, next⟩ io
        (.completionSession blob id) =
          (w.shared.forgetInviter id.inviteId).completionSession sink ⟨id.inviteId, next⟩ io.draws
            blob id s := by
      have session : (w.shared.forgetInviter id.inviteId).inviterSessions id = some s :=
        serves.session
      simp only [PairingNode.advance, session]
    have resumed := nodeStep_resume sink held turn
    refine ⟨⟨id.inviteId, next⟩, io, _, blob, _, rfl, rfl, held, congrArg Prod.snd resumed, ?_⟩
    simp only [PairingNode.completionSession, answered]
    exact Option.some_ne_none _

end

section

variable {w : World c T} {id : CallId} {call : Call} {before : List (NodeStep c T)}

theorem FindsInviteFree.of_call {serial : Nat} :
    FindsInviteFree sink before (entry (nodeStep c sink) w (.call serial call)) :=
  ⟨fun _ ⟨_, _, turn⟩ => (not_turnAt_call turn).elim, fun _ _ _ turn => (not_turnAt_call turn).elim,
    fun _ ⟨_, _, turn⟩ => (not_turnAt_call turn).elim, fun _ _ turn => (not_turnAt_call turn).elim⟩

theorem FindsInviteFree.of_turn (idle : w.Idle) {turn : PairingNode.Turn c T} {io : Io c}
    (created : ∀ s pin, turn.point = .createInsert s pin → ∀ f ∈ before, ¬ EndsInvite f id.inviteId)
    (other : ∀ msg, turn.point ≠ .initialLookup msg) :
    FindsInviteFree sink before
      (entry (nodeStep c sink) (w.put id call turn) (.resume id io)) := by
  refine ⟨?_, fun own s pin at_ => ?_, ?_, fun own msg at_ => ?_⟩
  · rintro inviteId ⟨ending, -, at_⟩ other call' blob handle - held
    obtain ⟨rfl, ends⟩ := at_.of_put
    rcases put_tasks held with ⟨rfl, same⟩ | ⟨-, old⟩
    · cases ends.trans (congrArg Task.point same).symm
    · exact idle other _ old
  · obtain ⟨rfl, inserts⟩ := at_.of_put
    exact created s pin inserts.symm
  · rintro inviteId ⟨cancelling, -, at_⟩ other task - held submitting
    obtain ⟨rfl, cancels⟩ := at_.of_put
    rcases put_tasks held with ⟨rfl, rfl⟩ | ⟨-, old⟩
    · rw [← cancels] at submitting
      exact submitting
    · exact (idle other _ old).not_submitting submitting
  · exact absurd at_.of_put.2.symm (other msg)

theorem lookup_finds_free (lawful : c.Lawful) (id : CallId) (idle : w.Idle) {serial : Nat}
    (new : w.tasks ⟨id.inviteId, serial⟩ = none) (named : id.inviteId.isEmpty = false)
    (sink : TrustSink T) (io : Io c) (blob : Bytes) {past : List (NodeStep c T)} :
    EveryStep (fun before e => FindsInviteFree sink (past ++ before) e)
      (trace (nodeStep c sink) w [.call serial (completionRequest (c := c) id.inviteId blob),
        .resume ⟨id.inviteId, serial⟩ io]) := by
  rw [trace, call_completion lawful new named, trace, trace, EveryStep.cons, EveryStep.singleton]
  exact ⟨.of_call, .of_turn idle (fun s pin wrong => by cases wrong) fun msg wrong => by cases wrong⟩

end

namespace Handshake

variable (x : Handshake c) (inviteId addr : String) (pin : Fin 1000000)
  (lawful : c.Lawful) {profile : NodeProfile} (own : profile.pairingInfo c none = x.inviter.info)
include lawful own

theorem invite_finds_free (sink : TrustSink T) (trust : T) :
    EveryStep (FindsInviteFree sink) (trace (nodeStep c sink) (World.fresh c profile trust)
      (x.inviteEvents inviteId addr pin)) := by
  intro before e after split
  have steps {f : NodeStep c T} (member : f ∈ before ++ e :: after) :=
    x.invite_steps lawful own sink trust inviteId addr pin (split ▸ member)
  rcases steps (List.mem_append_right _ List.mem_cons_self) with rfl | ⟨turn, io, rfl, creating⟩
  · exact .of_call
  · refine .of_turn (.fresh profile trust) (fun s pin _ f member => ?_) fun msg wrong => ?_
    · rintro ⟨other, -, ends⟩
      rcases steps (List.mem_append_left _ member) with rfl | ⟨turn, io, rfl, creating⟩
      · exact not_turnAt_call ends
      · rw [← ends.of_put.2] at creating
        exact creating
    · rw [wrong] at creating
      exact creating

/-- An invite, a decline of it, and a completion request that comes too late. -/
def declinedEvents (io : Io c) (blob : Bytes) : List (NodeEvent c) :=
  x.inviteEvents inviteId addr pin ++ (declineEvents inviteId 1 io ++
    [.call 2 (completionRequest (c := c) inviteId blob), .resume ⟨inviteId, 2⟩ io])

theorem declined_finds_free (named : inviteId.isEmpty = false) (sink : TrustSink T) (trust : T)
    (io : Io c) (blob : Bytes) :
    EveryStep (FindsInviteFree sink) (trace (nodeStep c sink) (World.fresh c profile trust)
      (x.declinedEvents inviteId addr pin io blob)) := by
  have serves := x.serves lawful own sink trust inviteId addr pin
  obtain ⟨declines, declined⟩ := trace_decline ⟨inviteId, 0⟩ (serves.free 1 le_rfl) named sink io
  rw [declinedEvents, trace_append, trace_append, EveryStep.append, EveryStep.append, declines,
    declined, EveryStep.cons, EveryStep.singleton]
  refine ⟨x.invite_finds_free inviteId addr pin lawful own sink trust, ⟨.of_call, ?_⟩, ?_⟩
  · exact .of_turn serves.idle (fun s pin wrong => by cases wrong) fun msg wrong => by cases wrong
  · simp only [← List.append_assoc]
    refine lookup_finds_free lawful ⟨inviteId, 0⟩ ?_ ?_ named sink io blob
    · exact World.Idle.put serves.idle trivial
    · rw [put_other]
      · exact serves.free 2 (by decide)
      · intro same
        cases (CallId.mk.inj same).2

theorem declined_ends (named : inviteId.isEmpty = false) (sink : TrustSink T) (trust : T)
    (io : Io c) (blob : Bytes) :
    ∃ f ∈ trace (nodeStep c sink) (World.fresh c profile trust)
      (x.declinedEvents inviteId addr pin io blob), EndsInvite f inviteId := by
  have serves := x.serves lawful own sink trust inviteId addr pin
  obtain ⟨f, member, ends⟩ := decline_ends ⟨inviteId, 0⟩ (serves.free 1 le_rfl) named sink io
  refine ⟨f, ?_, ends⟩
  rw [declinedEvents, trace_append, trace_append]
  exact List.mem_append_right _ (List.mem_append_left _ member)

end Handshake

namespace Reference

-- An invite whose last completion request is overtaken by a decline.
def overtaken : List (NodeEvent crates) :=
  endpoints.matchEvents nodeIo "invite" "b:1" rightPin ++
    overtakenEvents "invite" 3 nodeIo (endpoints.macpMsg rightPin)

def overtakenTurn : NodeEvent crates := .resume ⟨"invite", 3⟩ nodeIo

-- An invite that is declined before its first completion request.
def declined : List (NodeEvent crates) :=
  endpoints.declinedEvents "invite" "b:1" rightPin nodeIo (endpoints.resumingMsg rightPin)

theorem overtaken_ends :
    (∃ f ∈ trace (nodeStep crates keeping) inviterNode overtaken, EndsInvite f "invite") ∧
      CompletionPins (entry (nodeStep crates keeping)
        (run (nodeStep crates keeping) inviterNode overtaken) overtakenTurn) "invite"
        ⟨"invite", 0⟩ := by
  obtain ⟨last, paired, registers⟩ := endpoints.request_registers lawful nodeIo.draws "invite"
    rightPin rightPin
  have matched := (endpoints.match_serves nodeIo "invite" "b:1" rightPin lawful rfl (by decide)
    keeping ([] : List Paired)).1
  obtain ⟨⟨f, member, ends⟩, pins⟩ := overtaken_pins lawful matched (by decide) keeping nodeIo
    registers
  rw [overtaken, trace_append, run_append]
  exact ⟨⟨f, List.mem_append_right _ member, ends⟩, pins⟩

theorem declined_finds_free :
    EveryStep (FindsInviteFree keeping) (trace (nodeStep crates keeping) inviterNode declined) :=
  endpoints.declined_finds_free "invite" "b:1" rightPin lawful rfl (by decide) keeping [] nodeIo _

end Reference

/-- In a run in which every signal finds its invite free, it ends the trust. -/
theorem no_trust_after_signal_when_free (sink : TrustSink T) (profile : NodeProfile) (trust : T)
    (events : List (NodeEvent c))
    (guarded : EveryStep (FindsInviteFree sink)
      (trace (nodeStep c sink) (World.fresh c profile trust) events)) :
    EveryStep NoTrustAfterSignal (trace (nodeStep c sink) (World.fresh c profile trust) events) := by
  have start : TornDown [] (World.fresh c profile trust) :=
    { ended := fun _ ⟨_, wrong, _⟩ => (List.not_mem_nil wrong).elim
      forgotten := fun _ ⟨_, wrong, _⟩ => (List.not_mem_nil wrong).elim
      begun := fun _ _ wrong => by cases wrong
      cancelled := fun _ ⟨_, wrong, _⟩ => (List.not_mem_nil wrong).elim }
  refine EveryStep.of_invariant TornDown.step ?_ start events guarded
  intro history w event torn _ inviteId
  constructor
  · intro ended handle pins
    obtain ⟨id, io, call, blob, seen, named, -, holds, -⟩ := pins
    exact (torn.ended inviteId ended).2 id call blob handle named holds
  · intro cancelled pins
    obtain ⟨id, addr, handle, seen, named, ⟨io, call, -, found⟩, -⟩ := pins
    exact (torn.cancelled inviteId cancelled).2 id _ named found trivial

/-- A completion request that holds its session pins the joiner after a decline. -/
theorem decline_does_not_stop_pin : ¬ EveryStep NoTrustAfterSignal
    (trace (nodeStep Reference.crates Reference.keeping) Reference.inviterNode
      (Reference.overtaken ++ [Reference.overtakenTurn])) := by
  intro every
  obtain ⟨⟨f, earlier, ends⟩, pins⟩ := Reference.overtaken_ends
  rw [trace_append] at every
  obtain ⟨before, member, none⟩ := every.later earlier List.mem_cons_self
  exact (none "invite").1 ⟨f, member, ends⟩ _ pins

/-- The run of an invite that is declined in time, which the theorem covers. -/
theorem no_trust_after_decline_reference :
    (∃ f ∈ trace (nodeStep Reference.crates Reference.keeping) Reference.inviterNode
        Reference.declined, EndsInvite f "invite") ∧
      EveryStep NoTrustAfterSignal
        (trace (nodeStep Reference.crates Reference.keeping) Reference.inviterNode
          Reference.declined) :=
  ⟨Reference.endpoints.declined_ends "invite" "b:1" Reference.rightPin Reference.lawful rfl
      (by decide) Reference.keeping [] Reference.nodeIo _,
    no_trust_after_signal_when_free Reference.keeping Reference.inviterProfile []
      Reference.declined Reference.declined_finds_free⟩

end OpenPair
