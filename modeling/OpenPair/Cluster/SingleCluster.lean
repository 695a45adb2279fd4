import OpenPair.Cluster.Isolation
import OpenPair.Cluster.Retry
import OpenPair.Cluster.TrustSink

/-! One cluster a node: the gate is read when an invite comes in, and closed when
a `submit_pin` pins the inviter.
-/

set_option autoImplicit false

namespace OpenPair

open FileTree Tasks Transition

variable {c : Crates} {T : Type} {sink : TrustSink T}

/-! ## The sink of the daemon -/

/-- With what fails in the pins to come. -/
structure DaemonTrust where
  sink : ClusterTrustSink
  faults : Nat → Faults := fun _ => {}

variable (c) in
def clusterTrust (cwd : Place) : TrustSink DaemonTrust where
  pinPeer t paired := ⟨t.sink.pinPeer c (t.faults 0) cwd paired, fun k => t.faults (k + 1)⟩
  isClustered t := t.sink.isClustered

def TrustSink.Closing (sink : TrustSink T) : Prop :=
  ∀ t paired, sink.isClustered t = true → sink.isClustered (sink.pinPeer t paired) = true

theorem clusterTrust_closing (cwd : Place) : (clusterTrust c cwd).Closing := by
  intro t paired clustered
  have flagged : t.sink.clustered = true := clustered
  simp only [clusterTrust, ClusterTrustSink.isClustered, ClusterTrustSink.pinPeer]
  split
  · rfl
  · exact flagged

/-! ## Joins -/

-- A `submit_pin` calls `pin_peer`.
def JoinPins (e : NodeStep c T) (id : CallId) : Prop :=
  ∃ addr handle seen, TurnAt e id (.submitPaired addr handle) ∧ e.output = some seen ∧
    seen.pinned ≠ none

-- A `submit_pin` returns `Ok`.
def JoinReturns (e : NodeStep c T) (id : CallId) : Prop :=
  ∃ io seen paired, e.input = .resume id io ∧ e.output = some seen ∧
    seen.returned = some (.submitted (.ok paired))

/-- No `submit_pin` of a clustered node pins its inviter, or returns `Ok` unless
it pinned its own before; of two that pin, the first left the node in no cluster. -/
structure SingleCluster (sink : TrustSink T) (before : List (NodeStep c T)) (e : NodeStep c T) :
    Prop where
  pins : ∀ id, JoinPins e id → sink.isClustered e.before.shared.trust = false
  returns : ∀ id, JoinReturns e id → ∃ f ∈ before, JoinPins f id ∧
    sink.isClustered f.before.shared.trust = false
  once : ∀ f ∈ before, ∀ id other, JoinPins f id → JoinPins e other →
    sink.isClustered f.after.shared.trust = false

/-- The session of a `submit_pin` takes the message that ends the exchange. -/
def Confirmed (e : NodeStep c T) (id : CallId) : Prop :=
  ∃ io call addr handle resp s t step, e.input = .resume id io ∧
    e.before.tasks id = some ⟨call, .submitSession addr handle resp⟩ ∧
    e.before.shared.joiner handle = some s ∧
    s.completionResponse io.draws resp = (t, some (.ok (.done step))) ∧ step.success = true

/-- A `submit_pin` that is confirmed and has not pinned yet. -/
def World.Joining (w : World c T) : Prop :=
  ∃ id call addr handle, w.tasks id = some ⟨call, .submitPaired addr handle⟩

/-- An exchange is confirmed in a node of no cluster, and no other that would end
in a pin is until the inviter is pinned. -/
structure JoinsAlone (sink : TrustSink T) (e : NodeStep c T) : Prop where
  unclustered : ∀ id, Confirmed e id → sink.isClustered e.before.shared.trust = false
  joining : ∀ id, Confirmed e id → ¬ e.before.Joining
  inviting : ∀ inviteId handle, CompletionPins e inviteId handle → ¬ e.before.Joining

-- A `submit_pin` that has pinned its inviter.
def Point.Pinned : Point c → Prop
  | .submitForget _ _ | .submitForgetPending _ _ | .submitAck _ => True
  | _ => False

structure Single (sink : TrustSink T) (history : List (NodeStep c T)) (w : World c T) : Prop where
  unclustered : w.Joining → sink.isClustered w.shared.trust = false
  alone : ∀ {id other call made addr from_ handle held},
    w.tasks id = some ⟨call, .submitPaired addr handle⟩ →
      w.tasks other = some ⟨made, .submitPaired from_ held⟩ → other = id
  pinned : ∀ {id task}, w.tasks id = some task → task.point.Pinned →
    ∃ f ∈ history, JoinPins f id ∧ sink.isClustered f.before.shared.trust = false
  once : ∀ f ∈ history, ∀ id, JoinPins f id → sink.isClustered f.after.shared.trust = true →
    sink.isClustered w.shared.trust = true

theorem Point.Pinned.elim_ended {point : Point c} (pinned : point.Pinned) (ended : point.Ended) :
    False := by
  cases point <;> first | exact pinned | exact ended

theorem Point.Pinned.elim_first {point : Point c} (pinned : point.Pinned) (first : point.First) :
    False := by
  cases point <;> first | exact pinned | exact first

section

variable {n m : PairingNode c T} {id : CallId} {io : Io c} {point after : Point c}
  {pinned : Option Paired}

theorem trust_effect (effect : n.Effect sink id point m after pinned) : m.trust = n.trust ∨
    ∃ paired, pinned = some paired ∧ m.trust = sink.pinPeer n.trust paired ∧
      ((∃ addr handle, point = .submitPaired addr handle) ∨
        ∃ blob handle, point = .completionSession blob handle) := by
  cases effect with
  | inviterPinned => exact .inr ⟨_, rfl, rfl, .inr ⟨_, _, rfl⟩⟩
  | joinerPinned => exact .inr ⟨_, rfl, rfl, .inl ⟨_, _, rfl⟩⟩
  | _ => exact .inl rfl

theorem paired_effect {addr : String} {handle : CallId}
    (effect : n.Effect sink id point m after pinned) (about : after = .submitPaired addr handle) :
    m.trust = n.trust ∧
      (point = .submitPaired addr handle ∨ ∃ resp, point = .submitSession addr handle resp) := by
  subst about
  cases effect with
  | stays => exact ⟨rfl, .inl rfl⟩
  | leaves more settled ended => cases ended
  | joinerStepped found ended => cases ended
  | inviterStepped found answered quiet ended => cases ended
  | succeeded => exact ⟨rfl, .inr ⟨_, rfl⟩⟩

theorem submitSession_confirms {addr from_ : String} {handle held : CallId}
    {resp : PairingEnvelope}
    (about : (n.advance sink id io (.submitSession from_ held resp)).point =
      .submitPaired addr handle) : ∃ s t step, n.joiner held = some s ∧
      s.completionResponse io.draws resp = (t, some (.ok (.done step))) ∧ step.success = true := by
  simp only [PairingNode.advance, PairingNode.withJoiner] at about
  split at about
  · cases about
  · next s free =>
    unfold PairingNode.submitSession at about
    split at about
    · cases about
    · cases about
    · cases about
    · next t step stepped =>
      split at about
      · next success => exact ⟨s, t, step, free, stepped, success⟩
      · cases about

theorem pinned_effect (effect : n.Effect sink id point m after pinned) (later : after.Pinned) :
    point.Pinned ∨ (∃ addr handle, point = .submitPaired addr handle) ∧ pinned ≠ none := by
  cases effect with
  | stays => exact .inl later
  | leaves more settled ended => exact (later.elim_ended ended).elim
  | joinerStepped found ended => exact (later.elim_ended ended).elim
  | inviterStepped found answered quiet ended => exact (later.elim_ended ended).elim
  | joinerPinned => exact .inr ⟨⟨_, _, rfl⟩, Option.some_ne_none _⟩
  | forgotten => exact .inl trivial
  | forgottenPending => exact .inl trivial
  | _ => cases later

theorem advance_accepts {paired : Paired}
    (accepts : (n.advance sink id io point).seen.returned = some (.submitted (.ok paired))) :
    ∃ paired, point = .submitAck paired := by
  cases point
  case submitAck paired => exact ⟨paired, rfl⟩
  -- Every other return answers a request or is an error.
  all_goals
    simp only [PairingNode.advance, PairingNode.withJoiner, PairingNode.initialLookup,
      PairingNode.initialSession, PairingNode.completionLookup, PairingNode.completionSession,
      PairingNode.createAwait, PairingNode.submitLookup, PairingNode.submitFeed,
      PairingNode.submitSession, PairingNode.submitPaired] at accepts
    repeat' split at accepts
    all_goals cases accepts

end

section

variable {w : World c T} {event : NodeEvent c} {id : CallId} {call : Call} {addr : String}
  {handle : CallId}

theorem joining_step
    (found : (nodeStep c sink w event).1.tasks id = some ⟨call, .submitPaired addr handle⟩) :
    w.tasks id = some ⟨call, .submitPaired addr handle⟩ ∨
      Confirmed (entry (nodeStep c sink) w event) id := by
  rcases nodeStep_cases sink w event with idle | ⟨serial, made, rfl, new, started⟩ |
    ⟨own, io, ⟨made, point⟩, rfl, running, turned, advanced⟩
  · rw [idle] at found
    exact .inl found
  · rw [started] at found
    rcases put_tasks found with ⟨-, started⟩ | ⟨-, old⟩
    · have first := w.shared.start_first made
      rw [← (Task.mk.inj started).2] at first
      exact first.elim
    · exact .inl old
  · rw [advanced] at found
    rcases put_tasks found with ⟨rfl, reached⟩ | ⟨-, old⟩
    · obtain ⟨rfl, about⟩ := Task.mk.inj reached
      -- The call was about to pin already, or the answer that it took ends its exchange.
      rcases (paired_effect turned about.symm).2 with rfl | ⟨resp, rfl⟩
      · exact .inl running
      · obtain ⟨s, t, step, free, stepped, success⟩ := submitSession_confirms about.symm
        exact .inr ⟨io, call, addr, handle, resp, s, t, step, rfl, running, free, stepped, success⟩
    · exact .inl old

theorem clustered_step (closing : sink.Closing) (closed : sink.isClustered w.shared.trust = true) :
    sink.isClustered (nodeStep c sink w event).1.shared.trust = true := by
  rcases shared_step sink w event with ⟨same, -⟩ | ⟨own, point, after, pinned, -, effect⟩
  · rw [same]
    exact closed
  · rcases trust_effect effect with kept | ⟨paired, -, pins, -⟩
    · rw [kept]
      exact closed
    · rw [pins]
      exact closing _ _ closed

end

namespace Single

variable {history : List (NodeStep c T)} {w : World c T} {event : NodeEvent c}

/-- A turn of a node in which the inviter of a confirmed exchange is not pinned yet
leaves the gate as it is, unless it pins that inviter. -/
theorem trust_stays (single : Single sink history w)
    (guarded : JoinsAlone sink (entry (nodeStep c sink) w event)) {own : CallId} {io : Io c}
    {task : Task Call (Point c)} (same : event = .resume own io) (running : w.tasks own = some task)
    {id : CallId} {call : Call} {addr : String} {handle : CallId} (other : id ≠ own)
    (waiting : w.tasks id = some ⟨call, .submitPaired addr handle⟩) :
    (w.shared.advance sink own io task.point).shared.trust = w.shared.trust := by
  subst same
  obtain ⟨made, point⟩ := task
  have effect := PairingNode.advance_turned sink w.shared own io point
  rcases trust_effect effect with kept | ⟨paired, seen, -, ⟨addr, handle, rfl⟩ | ⟨blob, handle, rfl⟩⟩
  · exact kept
  · -- Of two calls that are about to pin, one would be the other.
    exact absurd (single.alone running waiting) other
  · -- A completion request that pins is not let in meanwhile.
    have step : nodeStep c sink w (.resume own io) = _ := step_resume (p := pairing c sink) running
    have pins : CompletionPins (entry (nodeStep c sink) w (.resume own io)) own.inviteId handle := by
      refine ⟨own, io, made, blob, _, rfl, rfl, running, congrArg Prod.snd step, ?_⟩
      exact ne_of_eq_of_ne seen (Option.some_ne_none paired)
    exact absurd ⟨id, call, addr, _, waiting⟩ (guarded.inviting _ _ pins)

theorem unclustered_step (single : Single sink history w)
    (guarded : JoinsAlone sink (entry (nodeStep c sink) w event))
    (joining : (nodeStep c sink w event).1.Joining) :
    sink.isClustered (nodeStep c sink w event).1.shared.trust = false := by
  obtain ⟨id, call, addr, handle, found⟩ := joining
  have before : sink.isClustered w.shared.trust = false := by
    rcases joining_step found with old | confirmed
    · exact single.unclustered ⟨id, call, addr, handle, old⟩
    · exact guarded.unclustered id confirmed
  rcases nodeStep_cases sink w event with idle | ⟨serial, made, rfl, new, started⟩ |
    ⟨own, io, task, same, running, turned, advanced⟩
  · rw [idle]
    exact before
  · rw [started, put_shared, w.shared.start_shared made]
    exact before
  · rw [advanced] at found ⊢
    have kept : (w.shared.advance sink own io task.point).shared.trust = w.shared.trust := by
      rcases put_tasks found with ⟨rfl, reached⟩ | ⟨other, old⟩
      · exact (paired_effect turned (Task.mk.inj reached).2.symm).1
      · exact single.trust_stays guarded same running other old
    rw [put_shared, kept]
    exact before

theorem step (closing : sink.Closing) (history : List (NodeStep c T)) (w : World c T)
    (event : NodeEvent c) (single : Single sink history w)
    (guarded : JoinsAlone sink (entry (nodeStep c sink) w event)) :
    Single sink (history ++ [entry (nodeStep c sink) w event]) (nodeStep c sink w event).1 where
  unclustered := single.unclustered_step guarded
  alone first second := by
    rcases joining_step first with old | confirmed
    · rcases joining_step second with older | confirmed
      · exact single.alone old older
      · exact absurd ⟨_, _, _, _, old⟩ (guarded.joining _ confirmed)
    · rcases joining_step second with old | again
      · exact absurd ⟨_, _, _, _, old⟩ (guarded.joining _ confirmed)
      · -- One step ends one exchange.
        obtain ⟨_, _, _, _, _, _, _, _, left, -⟩ := confirmed
        obtain ⟨_, _, _, _, _, _, _, _, right, -⟩ := again
        exact (Event.resume.inj (right.symm.trans left)).1
  pinned {id task} found later := by
    have kept {point : Point c} (was : w.tasks id = some ⟨task.call, point⟩) (pinned : point.Pinned) :
        ∃ f ∈ history ++ [entry (nodeStep c sink) w event],
          JoinPins f id ∧ sink.isClustered f.before.shared.trust = false := by
      obtain ⟨f, member, holds⟩ := single.pinned was pinned
      exact ⟨f, List.mem_append_left _ member, holds⟩
    rcases nodeStep_cases sink w event with idle | ⟨serial, made, rfl, new, started⟩ |
      ⟨own, io, ⟨made, point⟩, rfl, running, turned, advanced⟩
    · rw [idle] at found
      exact kept found later
    · rw [started] at found
      rcases put_tasks found with ⟨-, rfl⟩ | ⟨-, old⟩
      · have first := w.shared.start_first made
        exact (later.elim_first first).elim
      · exact kept old later
    · have output := congrArg Prod.snd advanced
      rw [advanced] at found
      rcases put_tasks found with ⟨rfl, rfl⟩ | ⟨-, old⟩
      · -- The pin is in the history already, or it is this step.
        rcases pinned_effect turned later with earlier | ⟨⟨addr, handle, rfl⟩, pins⟩
        · exact kept running earlier
        · refine ⟨entry (nodeStep c sink) w (.resume id io), by simp, ?_, ?_⟩
          · exact ⟨addr, handle, _, ⟨io, made, rfl, running⟩, output, pins⟩
          · exact single.unclustered ⟨id, made, addr, handle, running⟩
      · exact kept old later
  once f member id pins clustered := by
    rcases List.mem_append.mp member with old | new
    · exact clustered_step closing (single.once f old id pins clustered)
    · rw [List.mem_singleton.mp new] at clustered
      exact clustered

theorem gives (history : List (NodeStep c T)) (w : World c T) (event : NodeEvent c)
    (single : Single sink history w) :
    SingleCluster sink history (entry (nodeStep c sink) w event) where
  pins id := by
    rintro ⟨addr, handle, seen, ⟨io, call, -, running⟩, -⟩
    exact single.unclustered ⟨id, call, addr, handle, running⟩
  returns id := by
    rintro ⟨io, seen, paired, input, output, accepts⟩
    obtain rfl : event = .resume id io := input
    rcases nodeStep_cases sink w (.resume id io) with idle | ⟨serial, made, wrong, -⟩ |
      ⟨own, io', ⟨made, point⟩, same, running, turned, advanced⟩
    · rw [entry_output, idle] at output
      cases output
    · cases wrong
    · cases same
      rw [entry_output, advanced] at output
      cases output
      obtain ⟨paired, rfl⟩ := advance_accepts accepts
      exact single.pinned running trivial
  once f member id other pins := by
    rintro ⟨addr, handle, seen, ⟨io, call, -, running⟩, -⟩
    have free := single.unclustered ⟨other, call, addr, handle, running⟩
    by_contra clustered
    have closed := single.once f member id pins (eq_true_of_ne_false clustered)
    exact absurd (free.symm.trans closed) nofun

theorem fresh (profile : NodeProfile) (trust : T) :
    Single sink [] (World.fresh c profile trust) where
  unclustered := fun ⟨_, _, _, _, wrong⟩ => by cases wrong
  alone wrong := by cases wrong
  pinned wrong := by cases wrong
  once _ wrong := (List.not_mem_nil wrong).elim

end Single

/-! ## A `submit_pin` that its inviter answers -/

namespace JoinerSession

variable {s t : JoinerSession c} {draws : Draws c} {bytes : Bytes}

theorem completionResponse_sends (lawful : c.Lawful) {msg : Bytes} (inviteId : String)
    (heard : s.onCompletion draws bytes = (t, some { send := some msg })) :
    s.completionResponse draws (.withMsg c inviteId Phase.completion bytes) =
      (t, some (.ok (.send msg))) := by
  simp only [completionResponse, PairingEnvelope.blob_withMsg lawful, heard, Option.map_some,
    Bool.false_eq_true, if_false]

theorem completionResponse_ends (lawful : c.Lawful) {step : OpenPair.Step} (inviteId : String)
    (heard : s.onCompletion draws bytes = (t, some step)) (done : step.done = true) :
    s.completionResponse draws (.withMsg c inviteId Phase.completion bytes) =
      (t, some (.ok (.done step))) := by
  simp only [completionResponse, PairingEnvelope.blob_withMsg lawful, heard, Option.map_some, done,
    if_true]

end JoinerSession

namespace Handshake

variable (x : Handshake c)

-- The inviter's messages of the Completion Exchange, by the round.
def confirmations (noob : Bytes) : Nat → Bytes
  | 0 => c.encodeWire discoveryRequest
  | 1 => c.encodeWire (x.serverResumed noob (x.peerArmed noob).discoveryResponse).noobIdRequest
  | 2 => c.encodeWire (x.serverResumed noob (x.peerArmed noob).discoveryResponse).completionRequest
  | _ => resultBytes c "success"

-- The answers to a `submit_pin` with the right PIN, by its turn.
def confirming (inviteId pin : String) (io : Io c) (turn : Nat) : Io c :=
  { io with
    response := .ok (.withMsg c inviteId Phase.completion
      (x.confirmations (noobFromPin pin).bytes (turn / 2 - 1))) }

theorem confirming_response (inviteId pin : String) (io : Io c) (k : Nat) :
    (roundsOf (x.confirming inviteId pin io) k).response =
      .ok (.withMsg c inviteId Phase.completion
        (x.confirmations (noobFromPin pin).bytes k)) := by
  have round : (2 * k + 2) / 2 - 1 = k := by omega
  simp only [roundsOf, confirming, round]

variable {x} {n : PairingNode c T} {id handle : CallId} {pin : String} (lawful : c.Lawful)
include lawful

theorem submit_confirmed (sink : TrustSink T)
    (entry : n.joiners.lookup id.inviteId = some handle)
    (session : n.joinerSessions handle = some ⟨x.joining x.peerWaiting, false⟩)
    (valid : isValidPin pin = true) (address : x.inviter.info.addr.isEmpty = false) (io : Io c) :
    ∃ addr, n.submitTurn sink id pin (x.confirming id.inviteId pin io) 10 =
      (n.setJoiner handle (x.joining (x.peerRegistered (noobFromPin pin).bytes)) false).waits
        (.submitPaired addr handle) := by
  let noob := (noobFromPin pin).bytes
  have held : noob ≠ [] := by
    intro empty
    have length := (noobFromPin pin).length_eq
    rw [show (noobFromPin pin).bytes = [] from empty] at length
    cases length
  have takes : (x.joining x.peerWaiting).TakesPin := ⟨⟨x.inviter, rfl, address⟩, rfl, .inl rfl⟩
  obtain ⟨addr, awaits⟩ := PairingNode.submitTurn_awaits sink (x.confirming id.inviteId pin io)
    entry session valid takes
  have first : PairingNode.Awaits _ n addr handle (x.joining (x.peerArmed noob)) :=
    awaits 0 fun j below => absurd below (Nat.not_lt_zero j)
  have response := x.confirming_response id.inviteId pin io
  -- Three messages of the inviter are answered, and the fourth ends the exchange.
  have second := first.continues (response 0)
    (JoinerSession.completionResponse_sends lawful id.inviteId
      (x.joiner_resumes lawful io.draws noob))
  have third := second.continues (response 1)
    (JoinerSession.completionResponse_sends lawful id.inviteId
      (x.joiner_answers lawful io.draws noob (x.peerArmed noob).discoveryResponse held))
  have fourth := third.continues (response 2)
    (JoinerSession.completionResponse_sends lawful id.inviteId
      (x.joiner_verifies lawful io.draws (x.peerArmed noob).discoveryResponse held))
  have registers := JoinerSession.completionResponse_ends lawful id.inviteId
    (x.joiner_registers lawful io.draws noob) rfl
  refine ⟨addr, (fourth.hears (response 3)).trans ?_⟩
  change (n.setJoiner handle _ false).submitSession id io.draws addr handle
    (.withMsg c id.inviteId Phase.completion (resultBytes c "success")) _ = _
  simp only [PairingNode.submitSession, registers, if_true, PairingNode.setJoiner_setJoiner]
  rfl

omit lawful in
theorem submitEvents_succ (inviteId : String) (serial : Nat) (pin : String) (ios : Nat → Io c)
    (turns : Nat) : submitEvents inviteId serial pin ios (turns + 1) =
      submitEvents inviteId serial pin ios turns ++ [.resume ⟨inviteId, serial⟩ (ios turns)] := by
  simp only [submitEvents, List.range_succ, List.map_append, List.map_cons, List.map_nil,
    List.cons_append]

theorem submit_joins (sink : TrustSink T) {w : World c T} {inviteId : String} {serial : Nat}
    (new : w.tasks ⟨inviteId, serial⟩ = none)
    (shown : w.shared.joiners.lookup inviteId = some handle)
    (session : w.shared.joinerSessions handle = some ⟨x.joining x.peerWaiting, false⟩)
    (valid : isValidPin pin = true) (address : x.inviter.info.addr.isEmpty = false) (io : Io c) :
    ∃ e ∈ trace (nodeStep c sink) w
        (submitEvents inviteId serial pin (x.confirming inviteId pin io) 11),
      JoinPins e ⟨inviteId, serial⟩ ∧ e.before.shared.trust = w.shared.trust ∧
        ∃ paired, paired.peerCertDer = x.inviter.certDer ∧
          (run (nodeStep c sink) w (submitEvents inviteId serial pin
            (x.confirming inviteId pin io) 11)).shared.trust =
              sink.pinPeer w.shared.trust paired := by
  let id : CallId := ⟨inviteId, serial⟩
  have listed : w.shared.joiners.lookup id.inviteId = some handle := shown
  obtain ⟨addr, confirmed⟩ := x.submit_confirmed lawful sink listed session valid address io
  let n := w.shared.setJoiner handle (x.joining (x.peerRegistered (noobFromPin pin).bytes)) false
  let paired : Paired := .of x.inviter (x.peerArmed (noobFromPin pin).bytes).derived.finish
  have known : (x.joining (x.peerRegistered (noobFromPin pin).bytes)).paired = .ok paired := rfl
  let about : PairingNode.Turn c T := n.waits (.submitPaired addr handle)
  have pins : about.shared.advance sink id (x.confirming inviteId pin io 10) about.point =
      ⟨{ n with trust := sink.pinPeer n.trust paired }, .submitForget addr paired,
        { pinned := some paired }⟩ := by
    simp only [PairingNode.advance, PairingNode.withJoiner, about, PairingNode.waits, n,
      PairingNode.joiner_setJoiner, PairingNode.submitPaired, known]
  have turn : nodeStep c sink (w.put id (.submitPin inviteId pin) about) _ = _ :=
    nodeStep_put sink pins
  rw [submitEvents_succ, trace_append, run_append, run_submit new, confirmed]
  refine ⟨_, List.mem_append_right _ List.mem_cons_self, ?_, rfl, paired, rfl, ?_⟩
  · exact ⟨addr, handle, _, ⟨_, _, rfl, put_self _ _ _⟩, congrArg Prod.snd turn,
      Option.some_ne_none paired⟩
  · exact congrArg (fun next => next.1.shared.trust) turn

end Handshake

/-! ## A node with one `submit_pin` -/

-- Points that a `submit_pin` reaches before it pins.
def Point.Submits : Point c → Prop
  | .submitLookup _ | .submitFeed _ _ | .submitAwait _ _ | .submitSession _ _ _
  | .submitPaired _ _ => True
  | _ => False

def Point.Completes : Point c → Prop
  | .completionLookup _ | .completionSession _ _ => True
  | _ => False

/-- Every `submit_pin` is this call, and no completion request comes in. -/
def OneJoin (own : CallId) : NodeEvent c → Prop
  | .call serial (.submitPin inviteId _) => ⟨inviteId, serial⟩ = own
  | .call _ (.request env) => env.phase ≠ Phase.completion
  | _ => True

structure World.OneJoin (sink : TrustSink T) (own : CallId) (w : World c T) : Prop where
  submits : ∀ {id task}, w.tasks id = some task → task.point.Submits →
    id = own ∧ sink.isClustered w.shared.trust = false
  completes : ∀ {id task}, w.tasks id = some task → ¬ task.point.Completes
  waiting : w.tasks own = none → sink.isClustered w.shared.trust = false

section

variable {n m : PairingNode c T} {id : CallId} {point after : Point c} {pinned : Option Paired}

theorem submits_effect (effect : n.Effect sink id point m after pinned) (submits : after.Submits) :
    point.Submits ∧ m.trust = n.trust := by
  cases effect with
  | stays => exact ⟨submits, rfl⟩
  | leaves more settled ended => cases after <;> first | exact submits.elim | exact ended.elim
  | joinerStepped found ended => cases after <;> first | exact submits.elim | exact ended.elim
  | inviterStepped found answered quiet ended =>
    cases after <;> first | exact submits.elim | exact ended.elim
  | submitting | fed | heard | sending | succeeded => exact ⟨trivial, rfl⟩
  | _ => cases submits

theorem completes_effect (effect : n.Effect sink id point m after pinned)
    (completes : after.Completes) : point.Completes := by
  cases effect with
  | stays => exact completes
  | leaves more settled ended => cases after <;> first | exact completes.elim | exact ended.elim
  | joinerStepped found ended => cases after <;> first | exact completes.elim | exact ended.elim
  | inviterFound => trivial
  | inviterStepped => trivial
  | _ => cases completes

theorem start_submits {call : Call} (submits : (n.start call).point.Submits) :
    ∃ inviteId pin, call = .submitPin inviteId pin := by
  cases call with
  | request env =>
    simp only [PairingNode.start] at submits
    repeat' split at submits
    all_goals exact submits.elim
  | createInvite inviteId addr => exact submits.elim
  | submitPin inviteId pin => exact ⟨inviteId, pin, rfl⟩

theorem start_completes {call : Call} (completes : (n.start call).point.Completes) :
    ∃ env, call = .request env ∧ env.phase = Phase.completion := by
  cases call with
  | request env =>
    simp only [PairingNode.start] at completes
    split at completes
    · exact completes.elim
    · split at completes
      · exact completes.elim
      · split at completes
        · next phase => exact ⟨env, rfl, phase⟩
        · repeat' split at completes
          all_goals exact completes.elim
  | createInvite inviteId addr => exact completes.elim
  | submitPin inviteId pin =>
    simp only [PairingNode.start] at completes
    split at completes <;> exact completes.elim

end

namespace World.OneJoin

variable {own : CallId} {w : World c T} {event : NodeEvent c}

theorem put_none {id : CallId} {call : Call} {turn : PairingNode.Turn c T}
    (absent : (w.put id call turn).tasks own = none) : own ≠ id ∧ w.tasks own = none := by
  by_cases same : own = id
  · subst same
    rw [put_self] at absent
    cases absent
  · exact ⟨same, (put_other call turn same).symm.trans absent⟩

theorem trust_kept (one : w.OneJoin sink own) {id : CallId} {task : Task Call (Point c)}
    {m : PairingNode c T} {after : Point c} {pinned : Option Paired} (other : own ≠ id)
    (found : w.tasks id = some task) (effect : w.shared.Effect sink id task.point m after pinned) :
    m.trust = w.shared.trust := by
  rcases trust_effect effect with kept | ⟨paired, -, -, ⟨addr, handle, at_⟩ | ⟨blob, handle, at_⟩⟩
  · exact kept
  · have submits : task.point.Submits := by
      rw [at_]
      trivial
    exact absurd (one.submits found submits).1.symm other
  · have completes : task.point.Completes := by
      rw [at_]
      trivial
    exact absurd completes (one.completes found)

theorem step (one : w.OneJoin sink own) (allowed : OpenPair.OneJoin own event) :
    (nodeStep c sink w event).1.OneJoin sink own := by
  -- A call that is new is the one `submit_pin` or reaches no pin at all.
  refine nodeStep_keep one (fun serial call same new => ?_) fun id io task same found turned => ?_
  · subst same
    have node := w.shared.start_shared call
    refine ⟨fun {id task} running submits => ?_, fun {id task} running completes => ?_, fun absent => ?_⟩
    · rw [put_shared, node]
      rcases put_tasks running with ⟨rfl, rfl⟩ | ⟨-, old⟩
      · obtain ⟨inviteId, pin, rfl⟩ := start_submits submits
        obtain rfl : _ = own := allowed
        exact ⟨rfl, one.waiting new⟩
      · exact one.submits old submits
    · rcases put_tasks running with ⟨rfl, rfl⟩ | ⟨-, old⟩
      · obtain ⟨env, rfl, phase⟩ := start_completes completes
        exact allowed phase
      · exact one.completes old completes
    · rw [put_shared, node]
      exact one.waiting (put_none absent).2
  · refine ⟨fun {other last} running submits => ?_, fun {other last} running completes => ?_,
      fun absent => ?_⟩
    · rw [put_shared]
      rcases put_tasks running with ⟨rfl, rfl⟩ | ⟨differs, old⟩
      · obtain ⟨before, kept⟩ := submits_effect turned submits
        rw [kept]
        exact one.submits found before
      · obtain ⟨rfl, free⟩ := one.submits old submits
        rw [one.trust_kept differs found turned]
        exact ⟨rfl, free⟩
    · rcases put_tasks running with ⟨rfl, rfl⟩ | ⟨-, old⟩
      · exact one.completes found (completes_effect turned completes)
      · exact one.completes old completes
    · obtain ⟨differs, old⟩ := put_none absent
      rw [put_shared, one.trust_kept differs found turned]
      exact one.waiting old

theorem alone (one : w.OneJoin sink own) (event : NodeEvent c) :
    JoinsAlone sink (entry (nodeStep c sink) w event) where
  unclustered id := by
    rintro ⟨io, call, addr, handle, resp, s, t, step, -, running, -⟩
    exact (one.submits running trivial).2
  joining id := by
    rintro ⟨io, call, addr, handle, resp, s, t, step, -, running, -⟩ ⟨other, made, from_, held, about⟩
    obtain rfl := (one.submits running trivial).1
    obtain rfl := (one.submits about trivial).1
    rw [entry_before] at running about
    cases running.symm.trans about
  inviting inviteId handle := by
    rintro ⟨id, io, call, blob, seen, -, -, running, -⟩
    exact absurd trivial (one.completes running)

theorem fresh (profile : NodeProfile) {trust : T} (free : sink.isClustered trust = false) :
    (World.fresh c profile trust).OneJoin sink own where
  submits wrong := by cases wrong
  completes wrong := by cases wrong
  waiting _ := free

theorem run (profile : NodeProfile) {trust : T} (free : sink.isClustered trust = false)
    {events : List (NodeEvent c)} (allowed : ∀ event ∈ events, OpenPair.OneJoin own event) :
    EveryStep (fun _ e => JoinsAlone sink e)
      (trace (nodeStep c sink) (World.fresh c profile trust) events) := by
  have every : EveryStep (fun _ e => OpenPair.OneJoin own e.input)
      (trace (nodeStep c sink) (World.fresh c profile trust) events) := by
    apply EveryStep.of_forall
    intro e member
    obtain ⟨first, event, rest, rfl, rfl⟩ := mem_trace _ member
    exact allowed event (by simp)
  exact EveryStep.of_invariant (P := fun _ w => World.OneJoin sink own w)
    (fun _ _ _ one meets => one.step meets) (fun _ _ event one _ => one.alone event)
    (fresh profile free) events every

end World.OneJoin

/-! ## Two invites -/

theorem run_agrees {y : String} {w : World c T} (keyed : w.Keyed)
    {events : List (NodeEvent c)} (apart : ∀ event ∈ events, inviteOf event ≠ y) :
    World.AgreesOn y (run (nodeStep c sink) w events) w := by
  -- By induction on the events, each of which leaves the part of the other invite alone.
  induction events generalizing w with
  | nil => exact .refl w
  | cons event events ih =>
    have rest : World.AgreesOn y (run (nodeStep c sink) w (event :: events)) _ :=
      ih (keyed.step event) fun later member => apart later (List.mem_cons_of_mem _ member)
    exact rest.trans (keyed.other (apart event List.mem_cons_self))

theorem inviteOf_submitEvents {inviteId pin : String} {serial turns : Nat} {ios : Nat → Io c} :
    ∀ event ∈ submitEvents inviteId serial pin ios turns, inviteOf event = inviteId := by
  intro event member
  rcases List.mem_cons.mp member with rfl | later
  · rfl
  · obtain ⟨io, -, rfl⟩ := List.mem_map.mp later
    rfl

theorem Handshake.inviteOf_joinEvents (x : Handshake c) {inviteId : String} {io : Io c} :
    ∀ event ∈ x.joinEvents inviteId io, inviteOf event = inviteId := by
  intro event member
  simp only [joinEvents, discoveryEvents, negotiationEvents, keyExchangeEvents, initialEvents,
    List.mem_append, List.mem_cons, List.not_mem_nil, or_false] at member
  rcases member with (rfl | rfl | rfl) | (rfl | rfl | rfl) | (rfl | rfl | rfl) | rfl <;> rfl

namespace Handshake

variable {x y : Handshake c} {w : World c T} {a b : String} {io : Io c}

theorem apart_joinEvents (other : a ≠ b) : ∀ event ∈ x.joinEvents a io, inviteOf event ≠ b := by
  intro event member
  rw [x.inviteOf_joinEvents event member]
  exact other

theorem Invitable.again (lawful : c.Lawful) (first : x.Invitable sink w a)
    (second : y.Invitable sink w b) (keyed : w.Keyed) (other : a ≠ b)
    (drawn : io.draws = x.peerDraws) :
    y.Invitable sink (run (nodeStep c sink) w (x.joinEvents a io)) b := by
  obtain ⟨answers, shared⟩ := first.joins lawful drawn
  have agrees : World.AgreesOn b (run (nodeStep c sink) w (x.joinEvents a io)) w :=
    run_agrees keyed (apart_joinEvents other)
  have trust := congrArg PairingNode.trust shared
  have profile := congrArg PairingNode.profile shared
  exact
    { idle := answers.idle
      new := fun serial => (agrees.tasks rfl).trans (second.new serial)
      absent := agrees.node.joiners.trans second.absent
      named := second.named
      unclustered := by
        rw [trust]
        exact second.unclustered
      own := by
        rw [profile]
        exact second.own }

theorem Invitable.joins_both (lawful : c.Lawful) (first : x.Invitable sink w a)
    (second : y.Invitable sink w b) (keyed : w.Keyed) (other : a ≠ b) {ios : Io c}
    (drawn : io.draws = x.peerDraws) (drawn' : ios.draws = y.peerDraws) :
    World.AgreesOn a (run (nodeStep c sink) w (x.joinEvents a io ++ y.joinEvents b ios))
        (run (nodeStep c sink) w (x.joinEvents a io)) ∧
      World.Answers (run (nodeStep c sink) w (x.joinEvents a io ++ y.joinEvents b ios)) ⟨b, 0⟩
        (y.joining y.peerWaiting) 3 ∧
      (run (nodeStep c sink) w (x.joinEvents a io ++ y.joinEvents b ios)).shared.trust =
        w.shared.trust := by
  have shown := congrArg PairingNode.trust (first.joins lawful drawn).2
  have again := first.again lawful second keyed other drawn
  obtain ⟨answers, last⟩ := again.joins lawful drawn'
  rw [run_append]
  refine ⟨?_, answers, (congrArg PairingNode.trust last).trans shown⟩
  have after : (run (nodeStep c sink) w (x.joinEvents a io)).Keyed :=
    run_invariant (nodeStep c sink) (P := World.Keyed) (fun _ event keyed => keyed.step event)
      keyed _
  exact run_agrees after (apart_joinEvents other.symm)

def bothEvents (x y : Handshake c) (a b pin : String) (io ios : Io c) : List (NodeEvent c) :=
  x.joinEvents a io ++ y.joinEvents b ios ++
    (submitEvents a 3 pin (x.confirming a pin io) 11 ++
      submitEvents b 3 pin (y.confirming b pin ios) 11)

/-- The second join pins in a node that the first one has left with its inviter pinned. -/
theorem Invitable.second_joins (lawful : c.Lawful) (first : x.Invitable sink w a)
    (second : y.Invitable sink w b) (keyed : w.Keyed) (other : a ≠ b) {pin : String} {ios : Io c}
    (drawn : io.draws = x.peerDraws) (drawn' : ios.draws = y.peerDraws)
    (valid : isValidPin pin = true) (address : x.inviter.info.addr.isEmpty = false)
    (address' : y.inviter.info.addr.isEmpty = false) :
    ∃ e ∈ trace (nodeStep c sink) w (x.bothEvents y a b pin io ios), JoinPins e ⟨b, 3⟩ ∧
      ∃ paired, paired.peerCertDer = x.inviter.certDer ∧
        e.before.shared.trust = sink.pinPeer w.shared.trust paired := by
  let shown := run (nodeStep c sink) w (x.joinEvents a io ++ y.joinEvents b ios)
  let joined := run (nodeStep c sink) shown (submitEvents a 3 pin (x.confirming a pin io) 11)
  have opened := (first.joins lawful drawn).1
  obtain ⟨agrees, answers, trust⟩ := first.joins_both lawful second keyed other drawn drawn'
  have free : shown.tasks ⟨a, 3⟩ = none := (agrees.tasks rfl).trans (opened.free 3 le_rfl)
  have listed : shown.shared.joiners.lookup a = some ⟨a, 0⟩ :=
    agrees.node.joiners.trans opened.entry
  have session : shown.shared.joinerSessions ⟨a, 0⟩ = some ⟨x.joining x.peerWaiting, false⟩ :=
    (agrees.node.joinerSessions rfl).trans opened.session
  obtain ⟨-, -, -, -, paired, der, pinned⟩ :=
    x.submit_joins lawful sink free listed session valid address io
  -- The first join leaves the second invite as it was.
  have apart : World.AgreesOn b joined shown := by
    have after : shown.Keyed :=
      run_invariant (nodeStep c sink) (P := World.Keyed) (fun _ event keyed => keyed.step event)
        keyed _
    refine run_agrees after fun event member => ?_
    rw [inviteOf_submitEvents event member]
    exact other
  have free : joined.tasks ⟨b, 3⟩ = none := (apart.tasks rfl).trans (answers.free 3 le_rfl)
  have listed : joined.shared.joiners.lookup b = some ⟨b, 0⟩ :=
    apart.node.joiners.trans answers.entry
  have session : joined.shared.joinerSessions ⟨b, 0⟩ = some ⟨y.joining y.peerWaiting, false⟩ :=
    (apart.node.joinerSessions rfl).trans answers.session
  obtain ⟨e, member, pins, before, -⟩ :=
    y.submit_joins lawful sink free listed session valid address' ios
  refine ⟨e, ?_, pins, paired, der, before.trans (pinned.trans ?_)⟩
  · rw [bothEvents, trace_append, trace_append _ _ (submitEvents a 3 pin _ 11)]
    exact List.mem_append_right _ (List.mem_append_right _ member)
  · rw [trust]

end Handshake

namespace Reference

/-- A node that trusts no one yet and keeps its trust in memory. -/
def home : DaemonTrust :=
  { sink := { trust := ⟨fun _ => none, {}⟩, clusterDir := none, clustered := false } }

def homeNode : World crates DaemonTrust := .fresh crates joinerProfile home

def elsewhere : Handshake crates := endpoints.withInviter lawful stranger stranger_valid

theorem home_clusters {t : DaemonTrust} (memory : t.sink.clusterDir = none) {paired : Paired}
    {uuid : String} (named : nodeUuidFromCert crates paired.peerCertDer = some uuid) :
    (clusterTrust crates []).isClustered ((clusterTrust crates []).pinPeer t paired) = true := by
  simp only [clusterTrust, ClusterTrustSink.isClustered, ClusterTrustSink.pinPeer, memory,
    PeerPinStore.pin_ok named, Except.mapError]

theorem home_invitable (inviteId : String) (named : inviteId.isEmpty = false) :
    endpoints.Invitable (clusterTrust crates []) homeNode inviteId where
  idle := .fresh joinerProfile home
  new _ := rfl
  absent := rfl
  named := named
  unclustered := rfl
  own := rfl

theorem elsewhere_invitable (inviteId : String) (named : inviteId.isEmpty = false) :
    elsewhere.Invitable (clusterTrust crates []) homeNode inviteId where
  idle := .fresh joinerProfile home
  new _ := rfl
  absent := rfl
  named := named
  unclustered := rfl
  own := rfl

def oneJoined : List (NodeEvent crates) :=
  endpoints.joinEvents "a" joinerIo ++
    submitEvents "a" 3 "000000" (endpoints.confirming "a" "000000" joinerIo) 11

theorem oneJoined_alone : ∀ event ∈ oneJoined, OneJoin ⟨"a", 3⟩ event := by
  intro event member
  rcases List.mem_append.mp member with shows | submits
  · simp only [Handshake.joinEvents, Handshake.discoveryEvents, Handshake.negotiationEvents,
      Handshake.keyExchangeEvents, initialEvents, List.mem_append, List.mem_cons, List.not_mem_nil,
      or_false] at shows
    have initial : Phase.initial ≠ Phase.completion := by decide
    rcases shows with (rfl | rfl | rfl) | (rfl | rfl | rfl) | (rfl | rfl | rfl) | rfl
    all_goals first | exact initial | trivial
  · rcases List.mem_cons.mp submits with rfl | later
    · rfl
    · obtain ⟨io, -, rfl⟩ := List.mem_map.mp later
      trivial

def bothJoined : List (NodeEvent crates) :=
  endpoints.bothEvents elsewhere "a" "b" "000000" joinerIo joinerIo

theorem both_join :
    ∃ e ∈ trace (nodeStep crates (clusterTrust crates [])) homeNode bothJoined,
      JoinPins e ⟨"b", 3⟩ ∧ (clusterTrust crates []).isClustered e.before.shared.trust = true := by
  have drawn : joinerIo.draws = endpoints.peerDraws := rfl
  have drawn' : joinerIo.draws = elsewhere.peerDraws := rfl
  have valid : isValidPin "000000" = true := by decide
  obtain ⟨e, member, pins, paired, der, before⟩ :=
    (home_invitable "a" (by decide)).second_joins lawful (elsewhere_invitable "b" (by decide))
      (.fresh joinerProfile home) (by decide) drawn drawn' valid (by decide)
      (by decide)
  have principal : nodeUuidFromCert crates paired.peerCertDer = some inviterCertificate.nodeUuid := by
    rw [der]
    exact principal (found (by simp [certificates]))
  refine ⟨e, member, pins, ?_⟩
  rw [before]
  exact home_clusters rfl principal

end Reference

/-- In a run in which exchanges are confirmed one at a time, and by a node of no
cluster, one join completes. -/
theorem single_cluster_when_alone (cwd : Place) (profile : NodeProfile) (trust : DaemonTrust)
    (events : List (NodeEvent c))
    (every : EveryStep (fun _ e => JoinsAlone (clusterTrust c cwd) e)
      (trace (nodeStep c (clusterTrust c cwd)) (World.fresh c profile trust) events)) :
    EveryStep (SingleCluster (clusterTrust c cwd))
      (trace (nodeStep c (clusterTrust c cwd)) (World.fresh c profile trust) events) :=
  EveryStep.of_invariant (Single.step (clusterTrust_closing cwd))
    (fun history w event single _ => single.gives history w event) (Single.fresh profile trust)
    events every

/-- The joining run of one invite. -/
theorem single_cluster_reference :
    EveryStep (SingleCluster (clusterTrust Reference.crates []))
      (trace (nodeStep Reference.crates (clusterTrust Reference.crates [])) Reference.homeNode
        Reference.oneJoined) := by
  refine single_cluster_when_alone [] Reference.joinerProfile Reference.home _ ?_
  exact World.OneJoin.run Reference.joinerProfile rfl Reference.oneJoined_alone

/-- Both of two invites that are shown are joined. -/
theorem second_join_pins :
    ¬ EveryStep (SingleCluster (clusterTrust Reference.crates []))
      (trace (nodeStep Reference.crates (clusterTrust Reference.crates [])) Reference.homeNode
        Reference.bothJoined) := by
  intro every
  obtain ⟨e, member, pins, clustered⟩ := Reference.both_join
  obtain ⟨before, after, split⟩ := List.append_of_mem member
  have free := (every before e after split).pins _ pins
  rw [clustered] at free
  cases free

end OpenPair
