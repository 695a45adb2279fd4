import OpenPair.Cluster.HonestCommands

/-! What `join` does to the trust of its node. -/

set_option autoImplicit false

namespace OpenPair

open Tasks Transition Operated

variable {c : Crates} {T : Type} {sink : TrustSink T}

def Unpinned (history : List (NodeStep c T)) : Prop := ∀ f ∈ history, ∀ paired, ¬ Pins f paired

theorem Unpinned.concat {history : List (NodeStep c T)} {last : NodeStep c T}
    (unpinned : Unpinned history) (quiet : ∀ paired, ¬ Pins last paired) :
    Unpinned (history ++ [last]) := by
  intro f member
  rcases List.mem_append.mp member with old | new
  · exact unpinned f old
  · rw [List.mem_singleton.mp new]
    exact quiet

/-- A peer is pinned by a `submit_pin`, with the gate open and no other one before. -/
def JoinsOnce (sink : TrustSink T) (before : List (NodeStep c T)) (e : NodeStep c T) : Prop :=
  ∀ paired, Pins e paired →
    (∃ id, JoinPins e id) ∧ sink.isClustered e.before.shared.trust = false ∧ Unpinned before

def JoinStage.Early : JoinStage → Prop
  | .polling | .listing | .prompted _ => True
  | _ => False

-- The peer that a `submit_pin` has pinned.
def Point.joined : Point c → Option Paired
  | .submitForget _ paired | .submitForgetPending _ paired | .submitAck paired => some paired
  | _ => none

section

variable {n m : PairingNode c T} {id : CallId} {io : Io c} {point after : Point c}
  {pinned : Option Paired} {paired : Paired}

theorem ended_joined (ended : point.Ended) : point.joined = none := by
  cases point <;> first | rfl | exact ended.elim

theorem joined_effect (effect : n.Effect sink id point m after pinned)
    (later : after.joined = some paired) : point.joined = some paired ∨ pinned = some paired := by
  cases effect with
  | stays => exact .inl later
  | leaves more settled ended => cases (ended_joined ended).symm.trans later
  | joinerStepped found ended => cases (ended_joined ended).symm.trans later
  | inviterStepped found answered quiet ended => cases (ended_joined ended).symm.trans later
  | joinerPinned => exact .inr later
  | forgotten => exact .inl later
  | forgottenPending => exact .inl later
  | _ => cases later

theorem first_joined (first : point.First) : point.joined = none := by
  cases point <;> first | rfl | exact first.elim

theorem submits_ended (submits : point.Submits) (ended : point.Ended) : False := by
  cases point <;> first | exact submits | exact ended

theorem pinning_effect (effect : n.Effect sink id point m after (some paired)) :
    ¬ after.Submits := by
  cases effect with
  | inviterPinned => exact not_false
  | joinerPinned => exact not_false

theorem advance_joined
    (accepts : (n.advance sink id io point).seen.returned = some (.submitted (.ok paired))) :
    point.joined = some paired := by
  obtain ⟨peer, rfl⟩ := advance_accepts accepts
  cases accepts
  rfl

theorem start_accepts (call : Call) :
    (n.start call).seen.returned ≠ some (.submitted (.ok paired)) := by
  intro accepts
  cases call with
  | request env =>
    simp only [PairingNode.start] at accepts
    repeat' split at accepts
    all_goals cases accepts
  | createInvite inviteId addr => cases accepts
  | submitPin inviteId pin =>
    simp only [PairingNode.start] at accepts
    split at accepts <;> cases accepts

end

/-! ## The operator -/

section

variable {w : World c T} {stage next : JoinStage} {event : NodeEvent c} {seen : Option Observed}

theorem runJoin_acts {turn : JoinTurn} {call : Option (NodeEvent c)}
    (acts : (runJoin c sink).acts w stage turn = (next, call)) :
    (next = stage ∧ call = none) ∨ stage.Early ∧
      ((call = none ∧ (next.Early ∨ (∃ e, next = .ended (.error e)) ∨
          (next = .ended (.ok none) ∧ sink.isClustered w.shared.trust = true))) ∨
        ∃ serial inviteId pin, next = .submitting ⟨inviteId, serial⟩ ∧
          call = some (.call serial (.submitPin inviteId pin))) := by
  simp only [runJoin] at acts
  split at acts
  · split at acts
    · next clustered =>
      cases acts
      exact .inr ⟨trivial, .inl ⟨rfl, .inr (.inr ⟨rfl, clustered⟩)⟩⟩
    · cases acts
      exact .inr ⟨trivial, .inl ⟨rfl, .inl trivial⟩⟩
  · split at acts
    all_goals
      cases acts
      exact .inr ⟨trivial, .inl ⟨rfl, .inl trivial⟩⟩
  · split at acts
    · cases acts
      exact .inr ⟨trivial, .inl ⟨rfl, .inr (.inl ⟨_, rfl⟩)⟩⟩
    · cases acts
      exact .inr ⟨trivial, .inr ⟨_, _, _, rfl, rfl⟩⟩
  · cases acts
    exact .inl ⟨rfl, rfl⟩

/-- Only the operator submits a PIN, once, and no one creates an invite. -/
theorem runJoin_input {arrived : Arrival c ⊕ JoinTurn}
    (given : (runJoin c sink).input ⟨w, stage⟩ arrived = (next, some event)) :
    (next = stage ∧ ∃ arrival : Arrival c, event = arrival.event) ∨
      ∃ serial inviteId pin, stage.Early ∧ next = .submitting ⟨inviteId, serial⟩ ∧
        event = .call serial (.submitPin inviteId pin) := by
  cases arrived with
  | inl arrival =>
    cases given
    exact .inl ⟨rfl, arrival, rfl⟩
  | inr turn =>
    rcases runJoin_acts given with ⟨-, wrong⟩ |
      ⟨early, ⟨wrong, -⟩ | ⟨serial, inviteId, pin, submits, call⟩⟩
    · cases wrong
    · cases wrong
    · exact .inr ⟨serial, inviteId, pin, early, submits, Option.some.inj call⟩

theorem runJoin_hears_other
    (other : ∀ own, stage = .submitting own → (pairing c sink).id event ≠ own) :
    (runJoin c sink).hears stage event seen = stage := by
  cases stage with
  | submitting own => exact if_neg (other own rfl)
  | _ => rfl

theorem runJoin_hears (stage : JoinStage) (event : NodeEvent c) (seen : Option Observed) :
    (runJoin c sink).hears stage event seen = stage ∨ ∃ own, stage = .submitting own ∧
      (pairing c sink).id event = own ∧
      ((∃ e, (runJoin c sink).hears stage event seen = .ended (.error e)) ∨
        ∃ paired, (runJoin c sink).hears stage event seen = .ended (.ok (some paired)) ∧
          seen.bind Observed.returned = some (.submitted (.ok paired))) := by
  cases stage with
  | submitting own =>
    simp only [runJoin]
    split
    · next named =>
      unfold JoinStage.heard
      split
      · next paired returned =>
        exact .inr ⟨own, rfl, named, .inr ⟨paired, rfl, returned⟩⟩
      · exact .inr ⟨own, rfl, named, .inl ⟨_, rfl⟩⟩
      · exact .inl rfl
    · exact .inl rfl
  | _ => exact .inl rfl

theorem submits_pins {task : Task Call (Point c)}
    (found : (nodeStep c sink w event).1.tasks ((pairing c sink).id event) = some task)
    (submits : task.point.Submits) (paired : Paired) :
    ¬ Pins (entry (nodeStep c sink) w event) paired := by
  rintro ⟨seen, shown, pins⟩
  rcases nodeStep_cases sink w event with idle | ⟨serial, call, rfl, new, started⟩ |
    ⟨id, io, running, rfl, old, turned, advanced⟩
  · rw [entry_output, idle] at shown
    cases shown
  · rw [entry_output, started] at shown
    cases shown
    cases (start_pins (n := w.shared) call).symm.trans pins
  · rw [entry_output, advanced] at shown
    cases shown
    rw [advanced] at found
    obtain rfl := Option.some.inj ((put_self _ _ _).symm.trans found)
    have effect : w.shared.Effect sink id running.point _ _ _ := turned
    rw [pins] at effect
    exact pinning_effect effect submits

end

/-- What holds in a run of `join`. -/
structure JoinRun (sink : TrustSink T) (history : List (NodeStep c T)) (w : World c T)
    (stage : JoinStage) : Prop where
  invited : w.Invited
  calls : ∀ {id task inviteId addr}, w.tasks id = some task → task.call ≠ .createInvite inviteId addr
  submits : ∀ {id task}, w.tasks id = some task → task.point.Submits →
    stage = .submitting id ∧ Unpinned history
  early : stage.Early → Unpinned history
  opened : Unpinned history → sink.isClustered w.shared.trust = false
  pinned : ∀ {id task paired}, w.tasks id = some task → task.point.joined = some paired →
    ∃ f ∈ history, Pins f paired
  ended : ∀ {result}, stage = .ended (.ok result) → ∃ paired, result = some paired ∧
    ∃ f ∈ history, Pins f paired
  once : EveryStep (JoinsOnce sink) history

namespace JoinRun

variable {history : List (NodeStep c T)} {w : World c T} {stage next : JoinStage}
  {event : NodeEvent c} {id : CallId}

theorem quiet (joining : JoinRun sink history w stage) {turn : JoinTurn}
    (acts : (runJoin c sink).acts w stage turn = (next, none)) : JoinRun sink history w next := by
  rcases runJoin_acts acts with ⟨rfl, -⟩ | ⟨early, ⟨-, ends⟩ | ⟨_, _, _, _, wrong⟩⟩
  · exact joining
  · have unpinned := joining.early early
    refine { joining with submits := ?_, early := fun _ => unpinned, ended := ?_ }
    · intro id task found submits
      rw [(joining.submits found submits).1] at early
      exact early.elim
    · rintro result rfl
      rcases ends with early | ⟨e, wrong⟩ | ⟨-, clustered⟩
      · exact early.elim
      · cases wrong
      · -- No one has joined a node that was open.
        cases (joining.opened unpinned).symm.trans clustered
  · cases wrong

theorem pins_step (joining : JoinRun sink history w stage) :
    ((nodeStep c sink w event).1.shared.trust = w.shared.trust ∧
        ∀ paired, ¬ Pins (entry (nodeStep c sink) w event) paired) ∨
      ∃ id, JoinPins (entry (nodeStep c sink) w event) id ∧ stage = .submitting id ∧
        Unpinned history := by
  rcases trust_step sink w event with kept | ⟨inviteId, handle, pins⟩ | ⟨id, pins⟩
  · exact .inl kept
  · obtain ⟨id, s, draws, blob, out, t, -, hands, -⟩ := pins.hands joining.invited
    obtain ⟨io, call, -, -, -, session⟩ := hands
    obtain ⟨addr, created⟩ := joining.invited.sessions session
    exact absurd rfl (joining.calls created)
  · have same := pins
    obtain ⟨addr, handle, seen, ⟨io, call, -, running⟩, -⟩ := same
    exact .inr ⟨id, pins, joining.submits running trivial⟩

theorem other_pins (joining : JoinRun sink history w (.submitting id))
    (other : (pairing c sink).id event ≠ id) :
    ∀ paired, ¬ Pins (entry (nodeStep c sink) w event) paired := by
  rcases joining.pins_step with ⟨-, unpinned⟩ |
    ⟨own, ⟨addr, handle, seen, ⟨io, call, same, -⟩, -⟩, mine, -⟩
  · exact unpinned
  · obtain rfl : event = .resume own io := same
    exact absurd (JoinStage.submitting.inj mine).symm other

theorem submits_before (joining : JoinRun sink history w stage) {arrival : Arrival c}
    (arrives : event = arrival.event) {task : Task Call (Point c)}
    (found : (nodeStep c sink w event).1.tasks ((pairing c sink).id event) = some task)
    (submits : task.point.Submits) :
    stage = .submitting ((pairing c sink).id event) ∧ Unpinned history := by
  rcases nodeStep_cases sink w event with idle | ⟨serial, call, rfl, new, started⟩ |
    ⟨own, io, ⟨call, point⟩, rfl, running, turned, advanced⟩
  · rw [idle] at found
    exact joining.submits found submits
  · rw [started] at found
    obtain rfl := Option.some.inj ((put_self _ _ _).symm.trans found)
    obtain ⟨inviteId, pin, rfl⟩ := start_submits submits
    cases arrival <;> cases arrives
  · rw [advanced] at found
    obtain rfl := Option.some.inj ((put_self _ _ _).symm.trans found)
    exact joining.submits running (submits_effect turned submits).1

variable {arrived : Arrival c ⊕ JoinTurn}

theorem submits_step (joining : JoinRun sink history w stage)
    (given : (runJoin c sink).input ⟨w, stage⟩ arrived = (next, some event))
    {task : Task Call (Point c)}
    (found : (nodeStep c sink w event).1.tasks id = some task) (submits : task.point.Submits) :
    (runJoin c sink).hears next event (nodeStep c sink w event).2 = .submitting id ∧
      Unpinned (history ++ [entry (nodeStep c sink) w event]) := by
  by_cases own : id = (pairing c sink).id event
  · subst own
    rw [runJoin_hears_quiet _ _ (nodeStep_quiet found (submits_ended submits))]
    have concat (unpinned : Unpinned history) :
        Unpinned (history ++ [entry (nodeStep c sink) w event]) :=
      unpinned.concat (submits_pins found submits)
    rcases runJoin_input given with ⟨rfl, arrival, arrives⟩ | ⟨serial, inviteId, pin, early, rfl, rfl⟩
    · obtain ⟨waits, unpinned⟩ := joining.submits_before arrives found submits
      exact ⟨waits, concat unpinned⟩
    · exact ⟨rfl, concat (joining.early early)⟩
  · have old : w.tasks id = some task := (step_tasks_other own).symm.trans found
    obtain ⟨rfl, unpinned⟩ := joining.submits old submits
    refine ⟨?_, unpinned.concat (joining.other_pins (Ne.symm own))⟩
    rcases runJoin_input given with ⟨rfl, -⟩ | ⟨_, _, _, early, -⟩
    · refine runJoin_hears_other fun other mine => ?_
      rw [← JoinStage.submitting.inj mine]
      exact Ne.symm own
    · exact early.elim

theorem pinned_step (joining : JoinRun sink history w stage) {task : Task Call (Point c)}
    {paired : Paired} (found : (nodeStep c sink w event).1.tasks id = some task)
    (joined : task.point.joined = some paired) :
    ∃ f ∈ history ++ [entry (nodeStep c sink) w event], Pins f paired := by
  have kept {task : Task Call (Point c)} (was : w.tasks id = some task)
      (joined : task.point.joined = some paired) :
      ∃ f ∈ history ++ [entry (nodeStep c sink) w event], Pins f paired := by
    obtain ⟨f, member, pins⟩ := joining.pinned was joined
    exact ⟨f, List.mem_append_left _ member, pins⟩
  rcases nodeStep_cases sink w event with idle | ⟨serial, call, rfl, new, started⟩ |
    ⟨own, io, ⟨call, point⟩, rfl, running, turned, advanced⟩
  · rw [idle] at found
    exact kept found joined
  · rw [started] at found
    rcases put_tasks found with ⟨-, rfl⟩ | ⟨-, old⟩
    · cases (first_joined (w.shared.start_first call)).symm.trans joined
    · exact kept old joined
  · have output := congrArg Prod.snd advanced
    rw [advanced] at found
    rcases put_tasks found with ⟨rfl, rfl⟩ | ⟨-, old⟩
    · rcases joined_effect turned joined with earlier | pins
      · exact kept running earlier
      · exact ⟨_, List.mem_append_right _ List.mem_cons_self, _, output, pins⟩
    · exact kept old joined

theorem ended_step (joining : JoinRun sink history w stage)
    (given : (runJoin c sink).input ⟨w, stage⟩ arrived = (next, some event)) {result : Option Paired}
    (ended : (runJoin c sink).hears next event (nodeStep c sink w event).2 = .ended (.ok result)) :
    ∃ paired, result = some paired ∧
      ∃ f ∈ history ++ [entry (nodeStep c sink) w event], Pins f paired := by
  rcases runJoin_hears next event (nodeStep c sink w event).2 with same |
    ⟨own, -, -, ⟨e, failed⟩ | ⟨paired, told, returned⟩⟩
  · rw [same] at ended
    rcases runJoin_input given with ⟨rfl, -⟩ | ⟨_, _, _, -, rfl, -⟩
    · obtain ⟨paired, some, f, member, pins⟩ := joining.ended ended
      exact ⟨paired, some, f, List.mem_append_left _ member, pins⟩
    · cases ended
  · cases failed.symm.trans ended
  · obtain rfl := Except.ok.inj (JoinStage.ended.inj (told.symm.trans ended))
    refine ⟨paired, rfl, ?_⟩
    rcases nodeStep_cases sink w event with idle | ⟨serial, call, rfl, new, started⟩ |
      ⟨own, io, ⟨call, point⟩, rfl, running, turned, advanced⟩
    · rw [idle] at returned
      cases returned
    · rw [started] at returned
      exact absurd returned (start_accepts call)
    · rw [advanced] at returned
      obtain ⟨f, member, pins⟩ := joining.pinned running (advance_joined returned)
      exact ⟨f, List.mem_append_left _ member, pins⟩

theorem calls_step (joining : JoinRun sink history w stage)
    (given : (runJoin c sink).input ⟨w, stage⟩ arrived = (next, some event))
    {task : Task Call (Point c)}
    (found : (nodeStep c sink w event).1.tasks id = some task) {inviteId addr : String} :
    task.call ≠ .createInvite inviteId addr := by
  rcases nodeStep_cases sink w event with idle | ⟨serial, call, rfl, new, started⟩ |
    ⟨own, io, ⟨call, point⟩, rfl, running, turned, advanced⟩
  · rw [idle] at found
    exact joining.calls found
  · rw [started] at found
    rcases put_tasks found with ⟨-, rfl⟩ | ⟨-, old⟩
    · rintro rfl
      rcases runJoin_input given with ⟨-, arrival, same⟩ | ⟨_, _, _, -, -, same⟩
      · cases arrival <;> cases same
      · cases same
    · exact joining.calls old
  · rw [advanced] at found
    rcases put_tasks found with ⟨-, rfl⟩ | ⟨-, old⟩
    · have kept : call ≠ .createInvite inviteId addr := joining.calls running
      exact kept
    · exact joining.calls old

theorem step (joining : JoinRun sink history w stage)
    (given : (runJoin c sink).input ⟨w, stage⟩ arrived = (next, some event)) :
    JoinRun sink (history ++ [entry (nodeStep c sink) w event]) (nodeStep c sink w event).1
      ((runJoin c sink).hears next event (nodeStep c sink w event).2) where
  invited := joining.invited.step event
  calls found := joining.calls_step given found
  submits found submits := joining.submits_step given found submits
  early early := by
    rcases runJoin_hears next event (nodeStep c sink w event).2 with same |
      ⟨own, -, -, ⟨e, failed⟩ | ⟨paired, told, -⟩⟩
    · rw [same] at early
      rcases runJoin_input given with ⟨rfl, -⟩ | ⟨_, _, _, -, rfl, -⟩
      · rcases joining.pins_step with ⟨-, quiet⟩ | ⟨id, -, rfl, -⟩
        · exact (joining.early early).concat quiet
        · exact early.elim
      · exact early.elim
    · rw [failed] at early
      exact early.elim
    · rw [told] at early
      exact early.elim
  opened unpinned := by
    have before : Unpinned history := fun f member => unpinned f (List.mem_append_left _ member)
    rcases joining.pins_step with ⟨kept, -⟩ | ⟨id, ⟨_, _, seen, -, shown, pins⟩, -⟩
    · rw [kept]
      exact joining.opened before
    · obtain ⟨paired, pinned⟩ := Option.ne_none_iff_exists'.mp pins
      exact absurd ⟨seen, shown, pinned⟩
        (unpinned _ (List.mem_append_right _ List.mem_cons_self) paired)
  pinned found joined := joining.pinned_step found joined
  ended ended := joining.ended_step given ended
  once := by
    refine EveryStep.concat.mpr ⟨joining.once, fun paired pins => ?_⟩
    rcases joining.pins_step with ⟨-, quiet⟩ | ⟨id, joins, -, unpinned⟩
    · exact absurd pins (quiet paired)
    · exact ⟨⟨id, joins⟩, joining.opened unpinned, unpinned⟩

theorem fresh (profile : NodeProfile) {trust : T} (free : sink.isClustered trust = false) :
    JoinRun sink [] (World.fresh c profile trust) .polling where
  invited := .fresh profile trust
  calls wrong := by cases wrong
  submits wrong := by cases wrong
  early _ f wrong := (List.not_mem_nil wrong).elim
  opened _ := free
  pinned wrong := by cases wrong
  ended wrong := by cases wrong
  once := .nil

end JoinRun

/-- A run of `join` on a node of no cluster, whatever reaches its endpoint: it pins one
peer at most, while its node is in no cluster, and ends with a success only after it
has pinned the peer that it names. -/
theorem join_pins_once (sink : TrustSink T) (profile : NodeProfile) {trust : T}
    (free : sink.isClustered trust = false) (events : List (Arrival c ⊕ JoinTurn)) :
    EveryStep (JoinsOnce sink) (taken (trace ((runJoin c sink).step (nodeStep c sink))
        ⟨World.fresh c profile trust, .polling⟩ events)) ∧
      ∀ result, (run ((runJoin c sink).step (nodeStep c sink))
          ⟨World.fresh c profile trust, .polling⟩ events).stage = .ended (.ok result) →
        ∃ paired, result = some paired ∧
          ∃ f ∈ taken (trace ((runJoin c sink).step (nodeStep c sink))
            ⟨World.fresh c profile trust, .polling⟩ events), Pins f paired := by
  have joining := run_taken (P := fun history w stage => JoinRun sink history w stage)
    (fun _ _ _ _ _ joining (acts : (runJoin c sink).acts _ _ _ = _) => joining.quiet acts)
    (fun _ _ _ _ _ _ joining (given : (runJoin c sink).input _ _ = _) => joining.step given)
    (JoinRun.fresh profile free) events
  exact ⟨joining.once, fun result ended => joining.ended ended⟩

theorem Reference.joined_ends : ∃ paired, paired.With Reference.endpoints.inviter ∧
    Reference.joined.stage = .ended (.ok (some paired)) := by
  have named : "invite".isEmpty = false := by decide
  have free : (clusterTrust Reference.crates []).isClustered Reference.home = false := rfl
  have own : Reference.joinerProfile.pairingInfo Reference.crates none =
    Reference.endpoints.joiner.info := rfl
  have drawn : Reference.joinerIo.draws = Reference.endpoints.peerDraws := rfl
  obtain ⟨paired, peer, ends, -⟩ := Reference.endpoints.join_ends Reference.lawful
    (clusterTrust Reference.crates []) named free own drawn (isValidPin_mintPin Reference.rightPin)
    (by decide) 0 Reference.typed
  exact ⟨paired, peer, ends⟩

/-- The join of the reference parties, which pins the inviter. -/
theorem join_pins_once_reference :
    ∃ paired, Reference.joined.stage = .ended (.ok (some paired)) ∧
      ∃ f ∈ taken (trace ((runJoin Reference.crates (clusterTrust Reference.crates [])).step
          (nodeStep Reference.crates (clusterTrust Reference.crates [])))
        ⟨World.fresh Reference.crates Reference.joinerProfile Reference.home, .polling⟩
        (Reference.endpoints.joinRun "invite" (mintPin Reference.rightPin) Reference.joinerIo 0
          (.ok "000000\n"))), Pins f paired := by
  obtain ⟨paired, -, ends⟩ := Reference.joined_ends
  have free : (clusterTrust Reference.crates []).isClustered Reference.home = false := rfl
  obtain ⟨-, pinned⟩ := join_pins_once (clusterTrust Reference.crates []) Reference.joinerProfile
    free (Reference.endpoints.joinRun "invite" (mintPin Reference.rightPin) Reference.joinerIo 0
      (.ok "000000\n"))
  obtain ⟨peer, same, f, member, pins⟩ := pinned (some paired) ends
  obtain rfl := Option.some.inj same
  exact ⟨paired, ends, f, member, pins⟩

end OpenPair
