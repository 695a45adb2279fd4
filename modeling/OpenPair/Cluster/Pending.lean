import OpenPair.Cluster.NodeJoining

/-! The invites an endpoint shows, and the sessions that answer them. -/

set_option autoImplicit false

namespace OpenPair

open Tasks Transition

variable {c : Crates} {T : Type} {sink : TrustSink T}

def PairingNode.Answerable (n : PairingNode c T) : Prop :=
  ∀ invite ∈ n.pendingInvites, ∃ handle cell,
    n.joiners.lookup invite.inviteId = some handle ∧ n.joinerSessions handle = some cell

def Point.Withdraws : Point c → Prop
  | .cancelPending | .submitForgetPending _ _ | .failForgetPending _ => True
  | _ => False

/-- A call is about to stop showing the invite. -/
def World.Withdrawing (w : World c T) (inviteId : String) : Prop :=
  ∃ id task, id.inviteId = inviteId ∧ w.tasks id = some task ∧ task.point.Withdraws

/-- No session is evicted from under an invite that stays shown, and no invite is
shown after its session has gone. -/
structure KeepsAnswerable (e : NodeStep c T) : Prop where
  evicted : ∀ id handle reply, TurnAt e id (.initialEvict handle reply) →
    e.before.shared.pending.lookup id.inviteId = none ∨ e.before.Withdrawing id.inviteId
  shown : ∀ id invite reply, TurnAt e id (.initialPending invite reply) →
    e.before.shared.joiners.lookup id.inviteId ≠ none ∨ e.before.Withdrawing id.inviteId

/-- What holds in such a run, between the turns of the calls as well. -/
structure World.Backed (w : World c T) : Prop where
  shown : ∀ inviteId, w.shared.pending.lookup inviteId ≠ none →
    w.shared.joiners.lookup inviteId ≠ none ∨ w.Withdrawing inviteId
  sessions : ∀ inviteId handle, w.shared.joiners.lookup inviteId = some handle →
    w.shared.joinerSessions handle ≠ none

section

variable {n m : PairingNode c T} {id : CallId} {point after : Point c} {pinned : Option Paired}
  {inviteId : String}

theorem PairingNode.setJoiner_self (handle : CallId) (s : JoinerSession c) (held : Bool) :
    (n.setJoiner handle s held).joinerSessions handle = some ⟨s, held⟩ := Function.update_self _ _ _

theorem PairingNode.setJoiner_cell (handle : CallId) (s : JoinerSession c) (held : Bool)
    {other : CallId} (found : n.joinerSessions other ≠ none) :
    (n.setJoiner handle s held).joinerSessions other ≠ none := by
  by_cases same : other = handle
  · rw [same, n.setJoiner_self]
    exact Option.some_ne_none _
  · have kept : (n.setJoiner handle s held).joinerSessions other = n.joinerSessions other :=
      Function.update_of_ne same _ _
    rw [kept]
    exact found

theorem pending_effect (effect : n.Effect sink id point m after pinned)
    (shown : m.pending.lookup inviteId ≠ none) :
    (n.pending.lookup inviteId ≠ none ∧ (point.Withdraws → id.inviteId ≠ inviteId)) ∨
      ∃ invite reply, point = .initialPending invite reply ∧ invite.inviteId = inviteId := by
  have erased {key : String} (found : (n.pending.erase key).lookup inviteId ≠ none) :
      n.pending.lookup inviteId ≠ none ∧ key ≠ inviteId := by
    obtain ⟨invite, found⟩ := Option.ne_none_iff_exists'.mp found
    obtain ⟨differs, old⟩ := lookup_erase_some found
    exact ⟨Option.ne_none_iff_exists'.mpr ⟨invite, old⟩, differs.symm⟩
  cases effect with
  | stays settled =>
    refine .inl ⟨shown, fun withdraws => absurd ?_ settled⟩
    cases point <;> first | exact withdraws.elim | trivial
  | leaves more settled =>
    refine .inl ⟨shown, fun withdraws => absurd ?_ settled⟩
    cases point <;> first | exact withdraws.elim | trivial
  | joinerStepped held =>
    refine .inl ⟨shown, fun withdraws => ?_⟩
    cases point <;> first | exact withdraws.elim | cases held
  | @shown invite reply =>
    by_cases same : inviteId = invite.inviteId
    · exact .inr ⟨invite, reply, rfl, same.symm⟩
    · rw [AList.lookup_insert_ne same] at shown
      exact .inl ⟨shown, False.elim⟩
  | cancelledPending | forgottenPending | failForgottenPending =>
    obtain ⟨old, differs⟩ := erased shown
    exact .inl ⟨old, fun _ => differs⟩
  | _ => exact .inl ⟨shown, False.elim⟩

theorem joiners_effect (effect : n.Effect sink id point m after pinned)
    (found : n.joiners.lookup inviteId ≠ none) :
    m.joiners.lookup inviteId ≠ none ∨ (id.inviteId = inviteId ∧
      (after.Withdraws ∨ ∃ handle reply, point = .initialEvict handle reply)) := by
  have erased (more : after.Withdraws ∨ ∃ handle reply, point = .initialEvict handle reply) :
      (n.joiners.erase id.inviteId).lookup inviteId ≠ none ∨ (id.inviteId = inviteId ∧
        (after.Withdraws ∨ ∃ handle reply, point = .initialEvict handle reply)) := by
    by_cases same : inviteId = id.inviteId
    · exact .inr ⟨same.symm, more⟩
    · rw [AList.lookup_erase_ne same]
      exact .inl found
  cases effect with
  | opened =>
    by_cases same : inviteId = id.inviteId
    · subst same
      refine .inl ?_
      change (n.joiners.insert id.inviteId id).lookup id.inviteId ≠ none
      rw [AList.lookup_insert]
      exact Option.some_ne_none _
    · exact .inl ((AList.lookup_insert_ne same).trans_ne found)
  | @evicted handle reply => exact erased (.inr ⟨handle, reply, rfl⟩)
  | cancelled | forgotten | failForgotten => exact erased (.inl trivial)
  | _ => exact .inl found

theorem cells_effect (keyed : n.Keyed) (held : point.For id.inviteId)
    (effect : n.Effect sink id point m after pinned)
    (cells : ∀ inviteId handle, n.joiners.lookup inviteId = some handle →
      n.joinerSessions handle ≠ none) (handle : CallId)
    (found : m.joiners.lookup inviteId = some handle) : m.joinerSessions handle ≠ none := by
  cases effect with
  | opened =>
    rcases lookup_insert_cases found with ⟨rfl, rfl⟩ | old
    · rw [PairingNode.setJoiner_self]
      exact Option.some_ne_none _
    · exact PairingNode.setJoiner_cell _ _ _ (cells inviteId handle old)
  | joinerStepped | refused | waiting | fed | sending | succeeded | failed =>
    exact PairingNode.setJoiner_cell _ _ _ (cells inviteId handle found)
  | @evicted own reply sessions others =>
    obtain ⟨differs, old⟩ := lookup_erase_some found
    have apart : handle ≠ own := by
      rintro rfl
      exact differs ((keyed.joiners old).symm.trans held)
    exact (others handle apart).trans_ne (cells inviteId handle old)
  | cancelled | forgotten | failForgotten =>
    exact cells inviteId handle (lookup_erase_some found).2
  | _ => exact cells inviteId handle found

end

namespace World

variable {w : World c T} {id : CallId} {inviteId : String}

theorem Withdrawing.put {call : Call} {turn : PairingNode.Turn c T}
    (withdrawing : w.Withdrawing inviteId)
    (other : ∀ task, w.tasks id = some task → task.point.Withdraws → id.inviteId ≠ inviteId) :
    World.Withdrawing (w.put id call turn) inviteId := by
  obtain ⟨own, task, named, found, withdraws⟩ := withdrawing
  have apart : own ≠ id := by
    rintro rfl
    exact other task found withdraws named
  exact ⟨own, task, named, (put_other call turn apart).trans found, withdraws⟩

theorem Backed.call (backed : w.Backed) {serial : Nat} {call : Call}
    (new : w.tasks ⟨call.inviteId, serial⟩ = none) :
    World.Backed (w.put ⟨call.inviteId, serial⟩ call (w.shared.start call)) := by
  have same := w.shared.start_shared call
  refine ⟨fun inviteId shown => ?_, fun inviteId handle found => ?_⟩
  · rw [put_shared, same] at shown ⊢
    refine (backed.shown inviteId shown).imp_right fun withdrawing => withdrawing.put ?_
    intro task found
    rw [new] at found
    cases found
  · rw [put_shared, same] at found ⊢
    exact backed.sessions inviteId handle found

theorem Backed.turn (backed : w.Backed) (keyed : w.Keyed) {task : Task Call (Point c)}
    {turn : PairingNode.Turn c T} (found : w.tasks id = some task)
    (effect : w.shared.Turned sink id task.point turn)
    (evicted : ∀ handle reply, task.point = .initialEvict handle reply →
      w.shared.pending.lookup id.inviteId = none ∨ w.Withdrawing id.inviteId)
    (shown : ∀ invite reply, task.point = .initialPending invite reply →
      w.shared.joiners.lookup id.inviteId ≠ none ∨ w.Withdrawing id.inviteId) :
    World.Backed (w.put id task.call turn) := by
  have held := (keyed.tasks found).2
  have stays {inviteId : String} (withdrawing : w.Withdrawing inviteId)
      (other : task.point.Withdraws → id.inviteId ≠ inviteId) :
      World.Withdrawing (w.put id task.call turn) inviteId := by
    refine withdrawing.put fun own same => ?_
    rw [← Option.some.inj (found.symm.trans same)]
    exact other
  refine ⟨fun inviteId visible => ?_, fun inviteId handle entry =>
    cells_effect keyed.node held effect backed.sessions handle entry⟩
  rcases pending_effect effect visible with ⟨old, other⟩ | ⟨invite, reply, point, rfl⟩
  · rcases backed.shown inviteId old with entry | withdrawing
    · rcases joiners_effect effect entry with kept | ⟨rfl, withdraws | ⟨handle, reply, point⟩⟩
      · exact .inl kept
      · exact .inr ⟨id, _, rfl, put_self id task.call turn, withdraws⟩
      · refine .inr (stays ?_ other)
        exact (evicted handle reply point).resolve_left old
    · exact .inr (stays withdrawing other)
  · -- The invite is shown in this turn, and its call does no more.
    rw [point] at held
    have named : invite.inviteId = id.inviteId := held
    rw [named]
    have withdraws : ¬ task.point.Withdraws := by
      rw [point]
      exact not_false
    rcases shown invite reply point with entry | withdrawing
    · rcases joiners_effect effect entry with kept | ⟨-, more | ⟨handle, other, wrong⟩⟩
      · exact .inl kept
      · exact .inr ⟨id, _, rfl, put_self id task.call turn, more⟩
      · rw [point] at wrong
        cases wrong
    · exact .inr (stays withdrawing fun wrong => absurd wrong withdraws)

theorem Backed.step (backed : w.Backed) (keyed : w.Keyed) (event : NodeEvent c)
    (guarded : KeepsAnswerable (entry (nodeStep c sink) w event)) :
    (nodeStep c sink w event).1.Backed := by
  refine nodeStep_keep backed (fun serial call _ new => backed.call new) ?_
  intro id io task same found effect
  have at_ (point : Point c) (here : task.point = point) :
      TurnAt (entry (nodeStep c sink) w event) id point :=
    ⟨io, task.call, same, here ▸ found⟩
  exact backed.turn keyed found effect
    (fun handle reply here => guarded.evicted id handle reply (at_ _ here))
    fun invite reply here => guarded.shown id invite reply (at_ _ here)

theorem Backed.fresh (profile : NodeProfile) (trust : T) : (World.fresh c profile trust).Backed where
  shown inviteId wrong := absurd rfl wrong
  sessions inviteId handle wrong := by cases wrong

theorem Backed.run (sink : TrustSink T) (profile : NodeProfile) (trust : T)
    (events : List (NodeEvent c))
    (guarded : EveryStep (fun _ e => KeepsAnswerable e)
      (trace (nodeStep c sink) (World.fresh c profile trust) events)) :
    (run (nodeStep c sink) (World.fresh c profile trust) events).Backed := by
  have start : (World.fresh c profile trust).Backed ∧ (World.fresh c profile trust).Keyed :=
    ⟨.fresh profile trust, .fresh profile trust⟩
  exact (history_invariant (P := fun _ w => w.Backed ∧ w.Keyed)
    (fun _ _ event both guard => ⟨both.1.step both.2 event guard, both.2.step event⟩)
    start events guarded).1

/-- Between the calls every invite shown has its session. -/
theorem Backed.answerable (backed : w.Backed) (keyed : w.Keyed) (idle : w.Idle) :
    w.shared.Answerable := by
  intro invite member
  obtain ⟨⟨inviteId, found⟩, listed, rfl⟩ := List.mem_map.mp member
  have lookup := AList.mem_lookup_iff.mpr listed
  obtain rfl := keyed.node.pending lookup
  have shown : w.shared.pending.lookup found.inviteId ≠ none := by
    rw [Option.mem_def.mp lookup]
    exact Option.some_ne_none _
  have entry : w.shared.joiners.lookup found.inviteId ≠ none := by
    refine (backed.shown _ shown).resolve_right ?_
    rintro ⟨id, task, -, running, withdraws⟩
    have ended := idle id task running
    cases point : task.point <;> rw [point] at ended withdraws <;>
      first | exact ended.elim | exact withdraws.elim
  obtain ⟨handle, entry⟩ := Option.ne_none_iff_exists'.mp entry
  obtain ⟨cell, session⟩ := Option.ne_none_iff_exists'.mp (backed.sessions _ _ entry)
  exact ⟨handle, cell, entry, session⟩

end World

theorem PairingNode.Answerable.finds {n : PairingNode c T} (answerable : n.Answerable)
    {invite : PendingInvite} (member : invite ∈ n.pendingInvites) (serial : Nat) (pin : String) :
    ∃ handle, n.submitLookup ⟨invite.inviteId, serial⟩ pin = n.waits (.submitFeed pin handle) := by
  obtain ⟨handle, cell, entry, -⟩ := answerable invite member
  refine ⟨handle, ?_⟩
  simp only [PairingNode.submitLookup, entry]

/-! ### An initial request -/

section

variable {w : World c T} {id handle : CallId} {s t : JoinerSession c} {next : Nat} {io : Io c}
  {blob : Bytes} {call : Call}

theorem KeepsAnswerable.of_call {serial : Nat} :
    KeepsAnswerable (entry (nodeStep c sink) w (.call serial call)) :=
  ⟨fun _ _ _ turn => (not_turnAt_call turn).elim, fun _ _ _ turn => (not_turnAt_call turn).elim⟩

theorem KeepsAnswerable.of_turn {turn : PairingNode.Turn c T}
    (evicted : ∀ handle reply, turn.point ≠ .initialEvict handle reply)
    (shown : ∀ invite reply, turn.point = .initialPending invite reply →
      turn.shared.joiners.lookup id.inviteId ≠ none) :
    KeepsAnswerable (entry (nodeStep c sink) (w.put id call turn) (.resume id io)) where
  evicted own handle reply at_ := absurd at_.of_put.2.symm (evicted handle reply)
  shown own invite reply at_ := by
    obtain ⟨rfl, point⟩ := at_.of_put
    exact .inl (shown invite reply point.symm)

theorem initial_keeps_answerable (lawful : c.Lawful) (id : CallId) {serial : Nat}
    {m : PairingNode c T}
    (new : w.tasks ⟨id.inviteId, serial⟩ = none) (named : id.inviteId.isEmpty = false)
    (sink : TrustSink T) (looks : w.shared.advance sink ⟨id.inviteId, serial⟩ io
      (.initialLookup blob) = m.waits (.initialSession blob handle)) :
    EveryStep (fun _ e => KeepsAnswerable e)
      (trace (nodeStep c sink) w (initialEvents id.inviteId serial io blob)) := by
  rw [initialEvents, trace, call_initial lawful new named, trace, World.asked,
    nodeStep_put sink looks, trace, trace, EveryStep.cons, EveryStep.cons, EveryStep.singleton]
  refine ⟨.of_call, .of_turn ?_ ?_, .of_turn ?_ ?_⟩ <;> intro _ _ wrong <;> cases wrong

theorem waiting_keeps_answerable (lawful : c.Lawful) (answers : w.Answers id s next)
    (named : id.inviteId.isEmpty = false) (sink : TrustSink T) {bytes : Bytes}
    (answered : s.onInitial io.draws blob = (t, some (.ok bytes))) {i : PeerIdentity}
    (waits : t.state = .waiting) (inviter : t.inviter = some i) :
    EveryStep (fun _ e => KeepsAnswerable e) (trace (nodeStep c sink) w
      (initialEvents id.inviteId next io blob ++ [.resume ⟨id.inviteId, next⟩ io])) := by
  rw [trace_append, EveryStep.append, trace, trace, EveryStep.singleton,
    run_showing lawful answers named sink answered waits inviter]
  refine ⟨initial_keeps_answerable lawful id (answers.free next le_rfl) named sink
    (advance_lookup ⟨id.inviteId, next⟩ sink answers.entry), .of_turn ?_ ?_⟩
  · intro _ _ wrong
    cases wrong
  · intro _ _ _
    exact answers.entry.trans_ne (Option.some_ne_none _)

theorem advance_refuses {n : PairingNode c T} (own : CallId) (sink : TrustSink T)
    (session : n.joinerSessions id = some ⟨s, false⟩) {e : String}
    (refused : s.onInitial io.draws blob = (t, some (.error e))) :
    n.advance sink own io (.initialSession blob id) = (n.setJoiner id t true).waits
      (.initialEvict id (initialReply own.inviteId (.error e))) := by
  have request : s.initialRequest io.draws own.inviteId blob = (t, some (.error e)) := by
    simp only [JoinerSession.initialRequest, refused, Option.map_some, Except.map]
  simp only [PairingNode.advance, PairingNode.withJoiner, joiner_free session,
    PairingNode.initialSession, request]

theorem run_evicting (lawful : c.Lawful) (answers : w.Answers id s next)
    (named : id.inviteId.isEmpty = false) (sink : TrustSink T) {e : String}
    (refused : s.onInitial io.draws blob = (t, some (.error e))) :
    (run (nodeStep c sink) w
        (initialEvents id.inviteId next io blob ++ [.resume ⟨id.inviteId, next⟩ io])).Idle ∧
      (run (nodeStep c sink) w (initialEvents id.inviteId next io blob ++
          [.resume ⟨id.inviteId, next⟩ io])).shared.joiners.lookup id.inviteId = none ∧
      (run (nodeStep c sink) w (initialEvents id.inviteId next io blob ++
          [.resume ⟨id.inviteId, next⟩ io])).shared.pending = w.shared.pending := by
  have turn : w.shared.advance sink ⟨id.inviteId, next⟩ io (.initialSession blob id) = _ :=
    advance_refuses ⟨id.inviteId, next⟩ sink answers.session refused
  rw [initialEvents, List.cons_append, List.cons_append, List.cons_append, List.nil_append, run,
    call_initial lawful (answers.free next le_rfl) named, run, World.asked,
    nodeStep_put sink (advance_lookup ⟨id.inviteId, next⟩ sink answers.entry), run,
    nodeStep_put sink turn, run, nodeStep_put sink rfl, run]
  exact ⟨answers.idle.put trivial, AList.lookup_erase _ _, rfl⟩

end

namespace Handshake

variable {x : Handshake c} {w : World c T} {inviteId : String} {io : Io c} (lawful : c.Lawful)
include lawful

theorem Invitable.keeps_answerable (invitable : x.Invitable sink w inviteId)
    (drawn : io.draws = x.peerDraws) :
    EveryStep (fun _ e => KeepsAnswerable e)
      (trace (nodeStep c sink) w (x.joinEvents inviteId io)) := by
  have opened := (invitable.discovers lawful io).1
  have negotiated := (join_negotiates lawful opened invitable.named sink io).1
  have waits := x.joiner_waits lawful
  rw [← drawn] at waits
  let id : CallId := ⟨inviteId, 0⟩
  have absent : w.shared.joiners.lookup id.inviteId = none := invitable.absent
  have opens : w.shared.advance sink id io (.initialLookup (c.encodeWire discoveryRequest)) = _ :=
    advance_opens sink absent (firstType_discovery lawful) invitable.unclustered
  rw [joinEvents, trace_append, trace_append, EveryStep.append, EveryStep.append]
  refine ⟨?_, ?_, ?_⟩
  · exact initial_keeps_answerable lawful id (invitable.new 0) invitable.named sink opens
  · exact initial_keeps_answerable lawful id (opened.free 1 le_rfl) invitable.named sink
      (advance_lookup _ sink opened.entry)
  · exact waiting_keeps_answerable lawful negotiated invitable.named sink waits rfl rfl

/-- A joiner refuses what it cannot decode. -/
theorem joiner_refuses_nothing (x : Handshake c) (draws : Draws c) (p : Peer c) :
    (x.joining p).onInitial draws [] = (x.joining p, some (.error "eap-noob: malformed JSON")) := by
  have received : p.receive draws [] = _ := Peer.receive_malformed lawful.wire_empty
  simp only [JoinerSession.onInitial, joining, received, fail]
  rfl

def strayEvents (inviteId : String) (io : Io c) : List (NodeEvent c) :=
  initialEvents inviteId 3 io [] ++ [.resume ⟨inviteId, 3⟩ io]

/-- The invite is shown on with no session behind it. -/
theorem Invitable.stranded (invitable : x.Invitable sink w inviteId)
    (drawn : io.draws = x.peerDraws) :
    (run (nodeStep c sink) w (x.joinEvents inviteId io ++ strayEvents inviteId io)).Idle ∧
      ¬ (run (nodeStep c sink) w
        (x.joinEvents inviteId io ++ strayEvents inviteId io)).shared.Answerable := by
  obtain ⟨waiting, shown⟩ := invitable.joins lawful drawn
  rw [run_append]
  have stray : (run (nodeStep c sink) _ (strayEvents inviteId io)).Idle ∧
      (run (nodeStep c sink) _ (strayEvents inviteId io)).shared.joiners.lookup inviteId = none ∧
      (run (nodeStep c sink) _ (strayEvents inviteId io)).shared.pending = _ :=
    run_evicting lawful waiting invitable.named sink
      (x.joiner_refuses_nothing lawful io.draws x.peerWaiting)
  obtain ⟨idle, evicted, pending⟩ := stray
  refine ⟨idle, fun answerable => ?_⟩
  have listed : PendingInvite.of inviteId x.inviter ∈ (run (nodeStep c sink)
      (run (nodeStep c sink) w (x.joinEvents inviteId io))
        (strayEvents inviteId io)).shared.pendingInvites := by
    refine List.mem_map.mpr ⟨⟨inviteId, .of inviteId x.inviter⟩, AList.mem_lookup_iff.mp ?_, rfl⟩
    rw [pending, shown]
    exact AList.lookup_insert _
  obtain ⟨handle, cell, entry, -⟩ := answerable _ listed
  exact Option.some_ne_none _ (entry.symm.trans evicted)

end Handshake

/-- In a run in which no session goes from under an invite that stays shown,
every invite shown between the calls has one, and a `submit_pin` finds it. -/
theorem shown_invites_answerable (sink : TrustSink T) (profile : NodeProfile) (trust : T)
    (events : List (NodeEvent c))
    (guarded : EveryStep (fun _ e => KeepsAnswerable e)
      (trace (nodeStep c sink) (World.fresh c profile trust) events))
    (idle : (run (nodeStep c sink) (World.fresh c profile trust) events).Idle) :
    (run (nodeStep c sink) (World.fresh c profile trust) events).shared.Answerable ∧
      ∀ invite ∈ (run (nodeStep c sink)
          (World.fresh c profile trust) events).shared.pendingInvites,
        ∀ serial pin, ∃ handle,
          (run (nodeStep c sink) (World.fresh c profile trust) events).shared.submitLookup
              ⟨invite.inviteId, serial⟩ pin =
            (run (nodeStep c sink) (World.fresh c profile trust) events).shared.waits
              (.submitFeed pin handle) := by
  have backed := World.Backed.run sink profile trust events guarded
  have keyed := World.Keyed.run sink profile trust events
  have answerable := backed.answerable keyed idle
  exact ⟨answerable, fun invite member serial pin => answerable.finds member serial pin⟩

/-- A stray message leaves an invite shown that no PIN can answer. -/
theorem stray_message_strands_invite :
    (run (nodeStep Reference.crates Reference.keeping) Reference.joinerNode
        (Reference.endpoints.joinEvents "invite" Reference.joinerIo ++
          Handshake.strayEvents "invite" Reference.joinerIo)).Idle ∧
      ¬ (run (nodeStep Reference.crates Reference.keeping) Reference.joinerNode
        (Reference.endpoints.joinEvents "invite" Reference.joinerIo ++
          Handshake.strayEvents "invite" Reference.joinerIo)).shared.Answerable :=
  (Reference.invitable "invite" (by decide)).stranded Reference.lawful rfl

/-- An invite that is shown after its Initial Exchange, with its session. -/
theorem shown_invites_answerable_reference :
    (run (nodeStep Reference.crates Reference.keeping) Reference.joinerNode
        (Reference.endpoints.joinEvents "invite" Reference.joinerIo)).shared.pendingInvites =
          [.of "invite" Reference.endpoints.inviter] ∧
      (run (nodeStep Reference.crates Reference.keeping) Reference.joinerNode
        (Reference.endpoints.joinEvents "invite" Reference.joinerIo)).shared.Answerable := by
  have invitable := Reference.invitable "invite" (by decide)
  have drawn : Reference.joinerIo.draws = Reference.endpoints.peerDraws := rfl
  obtain ⟨waiting, shown⟩ := invitable.joins Reference.lawful drawn
  refine ⟨?_, (shown_invites_answerable Reference.keeping Reference.joinerProfile [] _
    (invitable.keeps_answerable Reference.lawful rfl) waiting.idle).1⟩
  rw [shown]
  rfl

end OpenPair
