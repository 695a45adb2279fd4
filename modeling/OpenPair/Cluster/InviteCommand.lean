import OpenPair.Cluster.HonestCommands

/-! What a success of `invite` means. -/

set_option autoImplicit false

namespace OpenPair

open Tasks Transition Operated

variable {c : Crates} {T : Type} {sink : TrustSink T}

def InviteStage.Printed (stage : InviteStage) (inviteId pin : String) : Prop :=
  match stage with
  | .waiting shown drawn _ => shown = inviteId ∧ drawn = pin
  | .joined shown drawn => shown = inviteId ∧ drawn = pin
  | .failed _ => True
  | _ => False

/-- A completion request of a joiner that proved its PIN has closed the gate. -/
def ClosedByPin (sink : TrustSink T) (history : List (NodeStep c T)) : Prop :=
  ∃ before e after inviteId handle, history = before ++ e :: after ∧
    CompletionPins e inviteId handle ∧ PinsProved before e ∧
    sink.isClustered e.before.shared.trust = false ∧ sink.isClustered e.after.shared.trust = true

theorem ClosedByPin.concat {history : List (NodeStep c T)} {last : NodeStep c T}
    (closed : ClosedByPin sink history) : ClosedByPin sink (history ++ [last]) := by
  obtain ⟨before, e, after, inviteId, handle, rfl, rest⟩ := closed
  exact ⟨before, e, after ++ [last], inviteId, handle, by simp, rest⟩

section

variable {joiner : String} {w : World c T} {stage next : InviteStage} {event : NodeEvent c}
  {seen : Option Observed}

theorem runInvite_acts {turn : InviteTurn} {call : Option (NodeEvent c)}
    (acts : (runInvite c sink joiner).acts w stage turn = (next, call)) :
    (next = stage ∧ call = none) ∨
      (∃ serial inviteId, stage = .starting ∧ next = .creating ⟨inviteId, serial⟩ ∧
        call = some (.call serial (.createInvite inviteId (normalizePairingAddr joiner)))) ∨
      ∃ inviteId pin polls, stage = .waiting inviteId pin polls ∧ call = none ∧
        ((∃ left, next = .waiting inviteId pin left) ∨ (∃ e, next = .failed e) ∨
          (next = .joined inviteId pin ∧ sink.isClustered w.shared.trust = true)) := by
  simp only [runInvite] at acts
  split at acts
  · cases acts
    exact .inr (.inl ⟨_, _, rfl, rfl, rfl⟩)
  · split at acts
    · next clustered =>
      cases acts
      exact .inr (.inr ⟨_, _, _, rfl, rfl, .inr (.inr ⟨rfl, clustered⟩)⟩)
    · cases acts
      exact .inr (.inr ⟨_, _, _, rfl, rfl, .inl ⟨_, rfl⟩⟩)
  · cases acts
    exact .inr (.inr ⟨_, _, _, rfl, rfl, .inr (.inl ⟨_, rfl⟩)⟩)
  · cases acts
    exact .inl ⟨rfl, rfl⟩

theorem runInvite_hears_other
    (other : ∀ own, stage = .creating own → (pairing c sink).id event ≠ own) :
    (runInvite c sink joiner).hears stage event seen = stage := by
  cases stage with
  | creating own => exact if_neg (other own rfl)
  | _ => rfl

theorem runInvite_hears_joined {inviteId pin : String}
    (joined : (runInvite c sink joiner).hears stage event seen = .joined inviteId pin) :
    stage = .joined inviteId pin := by
  cases stage with
  | creating own =>
    simp only [runInvite] at joined
    split at joined
    · unfold InviteStage.heard at joined
      split at joined <;> cases joined
    · cases joined
  | _ => exact joined

end

/-- What holds in a run of `invite`. -/
structure InviteRun (sink : TrustSink T) (history : List (NodeStep c T)) (w : World c T)
    (stage : InviteStage) : Prop where
  covered : Covered history w
  creating : ∀ {id task}, w.tasks id = some task → task.point.Creating → stage = .creating id
  submits : ∀ {id task}, w.tasks id = some task → ¬ task.point.Submits
  offered : ∀ f ∈ history, ∀ id pin, Offers f id pin → stage.Printed id.inviteId pin
  closed : sink.isClustered w.shared.trust = true → ClosedByPin sink history
  joined : ∀ {inviteId pin}, stage = .joined inviteId pin → ClosedByPin sink history

namespace InviteRun

variable {joiner : String} {history : List (NodeStep c T)} {w : World c T} {stage next : InviteStage}
  {event : NodeEvent c}

theorem quiet (inviting : InviteRun sink history w stage) {turn : InviteTurn}
    (acts : (runInvite c sink joiner).acts w stage turn = (next, none)) :
    InviteRun sink history w next := by
  rcases runInvite_acts acts with ⟨rfl, -⟩ | ⟨_, _, _, _, wrong⟩ | ⟨inviteId, pin, polls, rfl, -, ends⟩
  · exact inviting
  · cases wrong
  · refine { inviting with creating := ?_, offered := ?_, joined := ?_ }
    · intro id task found creating
      cases inviting.creating found creating
    · intro f member id drawn offers
      have printed := inviting.offered f member id drawn offers
      rcases ends with ⟨left, rfl⟩ | ⟨e, rfl⟩ | ⟨rfl, -⟩
      · exact printed
      · trivial
      · exact printed
    · intro shown drawn same
      rcases ends with ⟨left, rfl⟩ | ⟨e, rfl⟩ | ⟨-, clustered⟩
      · cases same
      · cases same
      · exact inviting.closed clustered

/-- Only the operator creates an invite, once, and no one submits a PIN. -/
theorem runInvite_input {arrived : Arrival c ⊕ InviteTurn}
    (given : (runInvite c sink joiner).input ⟨w, stage⟩ arrived = (next, some event)) :
    (next = stage ∧ ∃ arrival : Arrival c, event = arrival.event) ∨
      ∃ serial inviteId, stage = .starting ∧ next = .creating ⟨inviteId, serial⟩ ∧
        event = .call serial (.createInvite inviteId (normalizePairingAddr joiner)) := by
  cases arrived with
  | inl arrival =>
    cases given
    exact .inl ⟨rfl, arrival, rfl⟩
  | inr turn =>
    rcases runInvite_acts given with ⟨-, wrong⟩ | ⟨serial, inviteId, starts, creates, call⟩ |
      ⟨_, _, _, _, wrong, _⟩
    · cases wrong
    · exact .inr ⟨serial, inviteId, starts, creates, Option.some.inj call⟩
    · cases wrong

variable {arrived : Arrival c ⊕ InviteTurn}

theorem creating_before (inviting : InviteRun sink history w stage) {arrival : Arrival c}
    (arrives : event = arrival.event) {task : Task Call (Point c)}
    (found : (nodeStep c sink w event).1.tasks ((pairing c sink).id event) = some task)
    (creating : task.point.Creating) : stage = .creating ((pairing c sink).id event) := by
  rcases nodeStep_cases sink w event with idle | ⟨serial, call, rfl, new, started⟩ |
    ⟨own, io, ⟨call, point⟩, rfl, running, turned, advanced⟩
  · rw [idle] at found
    exact inviting.creating found creating
  · rw [started] at found
    obtain rfl := Option.some.inj ((put_self _ _ _).symm.trans found)
    obtain ⟨addr, made⟩ := World.start_creating creating
    cases arrival with
    | request number env =>
      obtain ⟨-, rfl⟩ := Event.call.inj arrives
      cases made
    | resume other io => cases arrives
  · rw [advanced] at found
    obtain rfl := Option.some.inj ((put_self _ _ _).symm.trans found)
    exact inviting.creating running (World.creating_effect turned creating)

theorem creating_step (inviting : InviteRun sink history w stage)
    (given : (runInvite c sink joiner).input ⟨w, stage⟩ arrived = (next, some event))
    {id : CallId} {task : Task Call (Point c)}
    (found : (nodeStep c sink w event).1.tasks id = some task) (creating : task.point.Creating) :
    (runInvite c sink joiner).hears next event (nodeStep c sink w event).2 = .creating id := by
  by_cases own : id = (pairing c sink).id event
  · subst own
    rw [runInvite_hears_quiet joiner _ _ (nodeStep_quiet found (creating_ended creating))]
    rcases runInvite_input given with ⟨rfl, arrival, arrives⟩ | ⟨serial, inviteId, -, rfl, rfl⟩
    · exact inviting.creating_before arrives found creating
    · rfl
  · have old : w.tasks id = some task := (step_tasks_other own).symm.trans found
    have was := inviting.creating old creating
    rcases runInvite_input given with ⟨rfl, -⟩ | ⟨_, _, rfl, _⟩
    · rw [was]
      refine runInvite_hears_other fun other mine => ?_
      rw [← InviteStage.creating.inj mine]
      exact Ne.symm own
    · cases was

theorem submits_step (inviting : InviteRun sink history w stage)
    (given : (runInvite c sink joiner).input ⟨w, stage⟩ arrived = (next, some event))
    {id : CallId} {task : Task Call (Point c)}
    (found : (nodeStep c sink w event).1.tasks id = some task) : ¬ task.point.Submits := by
  intro submits
  rcases nodeStep_cases sink w event with idle | ⟨serial, call, rfl, new, started⟩ |
    ⟨own, io, ⟨call, point⟩, rfl, running, turned, advanced⟩
  · rw [idle] at found
    exact inviting.submits found submits
  · rw [started] at found
    rcases put_tasks found with ⟨-, rfl⟩ | ⟨-, old⟩
    · obtain ⟨inviteId, pin, rfl⟩ := start_submits submits
      rcases runInvite_input given with ⟨-, arrival, same⟩ | ⟨_, _, _, _, same⟩
      · cases arrival <;> cases same
      · cases same
    · exact inviting.submits old submits
  · rw [advanced] at found
    rcases put_tasks found with ⟨-, rfl⟩ | ⟨-, old⟩
    · exact inviting.submits running (submits_effect turned submits).1
    · exact inviting.submits old submits

theorem offered_step (inviting : InviteRun sink history w stage)
    (given : (runInvite c sink joiner).input ⟨w, stage⟩ arrived = (next, some event))
    {id : CallId} {pin : String} (offers : Offers (entry (nodeStep c sink) w event) id pin) :
    ((runInvite c sink joiner).hears next event (nodeStep c sink w event).2).Printed id.inviteId
      pin := by
  obtain ⟨io, seen, rfl, output, returned⟩ := offers
  rcases nodeStep_cases sink w (.resume id io) with idle | ⟨serial, call, wrong, -⟩ |
    ⟨own, io', ⟨call, point⟩, same, running, turned, advanced⟩
  · rw [entry_output, idle] at output
    cases output
  · cases wrong
  · obtain ⟨rfl, rfl⟩ := Event.resume.inj same
    rw [entry_output, advanced] at output
    cases output
    obtain ⟨s, rfl, -⟩ := advance_invites returned
    have was : stage = .creating id := inviting.creating running trivial
    rcases runInvite_input given with ⟨rfl, -⟩ | ⟨_, _, _, _, wrong⟩
    · subst was
      have told : (some (w.shared.advance sink id io (.createInsert s pin)).seen).bind
          Observed.returned = some (.invited (.ok (id.inviteId, pin))) := returned
      rw [advanced]
      exact (congrArg (fun stage => stage.Printed id.inviteId pin)
        (runInvite_hears_own joiner rfl told)).mpr ⟨rfl, rfl⟩
    · cases wrong

theorem step (lawful : c.Lawful) (inviting : InviteRun sink history w stage)
    (given : (runInvite c sink joiner).input ⟨w, stage⟩ arrived = (next, some event)) :
    InviteRun sink (history ++ [entry (nodeStep c sink) w event]) (nodeStep c sink w event).1
      ((runInvite c sink joiner).hears next event (nodeStep c sink w event).2) where
  covered := Covered.step lawful history w event inviting.covered
  creating found creating := inviting.creating_step given found creating
  submits found := inviting.submits_step given found
  offered f member id pin offers := by
    rcases List.mem_append.mp member with old | new
    · have printed := inviting.offered f old id pin offers
      rcases runInvite_input given with ⟨rfl, -⟩ | ⟨_, _, rfl, _⟩
      · rw [runInvite_hears_other fun own same => ?_]
        · exact printed
        · subst same
          cases printed
      · cases printed
    · obtain rfl := List.mem_singleton.mp new
      exact inviting.offered_step given offers
  closed clustered := by
    cases before : sink.isClustered w.shared.trust with
    | true => exact (inviting.closed before).concat
    | false =>
      rcases trust_step sink w event with ⟨kept, -⟩ | ⟨inviteId, handle, pins⟩ | ⟨id, joins⟩
      · rw [kept, before] at clustered
        cases clustered
      · exact ⟨history, _, [], inviteId, handle, rfl, pins, inviting.covered.gives lawful event,
          before, clustered⟩
      · obtain ⟨addr, handle, seen, ⟨io, call, -, running⟩, -⟩ := joins
        exact absurd trivial (inviting.submits running)
  joined same := by
    have was := runInvite_hears_joined same
    rcases runInvite_input given with ⟨rfl, -⟩ | ⟨_, _, -, rfl, -⟩
    · exact (inviting.joined was).concat
    · cases was

theorem fresh (profile : NodeProfile) {trust : T} (free : sink.isClustered trust = false) :
    InviteRun sink [] (World.fresh c profile trust) .starting where
  covered := .fresh profile trust
  creating wrong := by cases wrong
  submits wrong := by cases wrong
  offered _ wrong := (List.not_mem_nil wrong).elim
  closed clustered := by
    cases free.symm.trans clustered
  joined wrong := by cases wrong

end InviteRun

/-- A run of `invite` on a node of no cluster, whatever reaches its endpoint: where it
reports that a peer has joined, a completion request for its invite has closed the
gate, with a MAC that covers the PIN it printed. -/
theorem invite_reports_proved (lawful : c.Lawful) (sink : TrustSink T) (profile : NodeProfile)
    {trust : T} (free : sink.isClustered trust = false) (joiner : String)
    (events : List (Arrival c ⊕ InviteTurn)) {inviteId pin : String}
    (reports : (run ((runInvite c sink joiner).step (nodeStep c sink))
      ⟨World.fresh c profile trust, .starting⟩ events).stage = .joined inviteId pin) :
    ∃ before e after handle, taken (trace ((runInvite c sink joiner).step (nodeStep c sink))
        ⟨World.fresh c profile trust, .starting⟩ events) = before ++ e :: after ∧
      CompletionPins e inviteId handle ∧ sink.isClustered e.before.shared.trust = false ∧
      sink.isClustered e.after.shared.trust = true ∧
      ∃ id s draws blob, Hands e id handle s draws blob ∧ s.Proves blob pin := by
  have inviting := run_taken (P := fun history w stage => InviteRun sink history w stage)
    (fun _ _ _ _ _ inviting (acts : (runInvite c sink joiner).acts _ _ _ = _) => inviting.quiet acts)
    (fun _ _ _ _ _ _ inviting (given : (runInvite c sink joiner).input _ _ = _) =>
      inviting.step lawful given)
    (InviteRun.fresh profile free) events
  obtain ⟨before, e, after, shown, handle, split, pins, proved, opened, closed⟩ :=
    inviting.joined reports
  obtain ⟨rfl, drawn, id, s, draws, blob, ⟨f, member, offers⟩, hands, proves⟩ :=
    proved shown handle pins
  have printed := inviting.offered f (by rw [split]; exact List.mem_append_left _ member) handle
    drawn offers
  rw [reports] at printed
  obtain ⟨rfl, rfl⟩ := printed
  exact ⟨before, e, after, handle, split, pins, opened, closed, id, s, draws, blob, hands, proves⟩

theorem Reference.invited_reports :
    Reference.invited.stage = .joined "invite" (mintPin Reference.rightPin) := by
  have named : "invite".isEmpty = false := by decide
  have own : Reference.inviterProfile.pairingInfo Reference.crates none =
    Reference.endpoints.inviter.info := rfl
  obtain ⟨_, -, reports, -⟩ := Reference.endpoints.invite_ends Reference.lawful own
    (clusterTrust Reference.crates []) named "b" Reference.rightPin Reference.nodeIo
    fun _ => Reference.home_closes
  exact reports

/-- The invite of the reference parties. -/
theorem invite_reports_proved_reference :
    ∃ before e after handle, taken (trace
        ((runInvite Reference.crates (clusterTrust Reference.crates []) "b").step
          (nodeStep Reference.crates (clusterTrust Reference.crates [])))
        ⟨World.fresh Reference.crates Reference.inviterProfile Reference.home, .starting⟩
        (Reference.endpoints.inviteRun "invite" Reference.rightPin Reference.nodeIo)) =
          before ++ e :: after ∧ CompletionPins e "invite" handle ∧
      (clusterTrust Reference.crates []).isClustered e.before.shared.trust = false ∧
      (clusterTrust Reference.crates []).isClustered e.after.shared.trust = true ∧
      ∃ id s draws blob, Hands e id handle s draws blob ∧
        s.Proves blob (mintPin Reference.rightPin) :=
  invite_reports_proved Reference.lawful (clusterTrust Reference.crates []) Reference.inviterProfile
    rfl "b" _ Reference.invited_reports

end OpenPair
