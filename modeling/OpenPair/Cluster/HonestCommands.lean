import Mathlib.Data.List.Rotate
import OpenPair.Cluster.Commands
import OpenPair.Trust.Restart

/-! The two commands at work on one pairing. -/

set_option autoImplicit false

namespace OpenPair

open FileTree Tasks Transition Operated

variable {c : Crates} {T : Type} {sink : TrustSink T}

structure Paired.With (paired : Paired) (peer : PeerIdentity) : Prop where
  cert : paired.peerCertDer = peer.certDer
  info : paired.peer = peer.info

theorem Paired.with_of (peer : PeerIdentity) (assoc : Association) :
    (Paired.of peer assoc).With peer := ⟨rfl, rfl⟩

/-! ## A call at work -/

section

variable {w : World c T} {id : CallId} {call : Call} {turn : PairingNode.Turn c T}
  {Stage Turn : Type} {stage : Stage}

theorem alone_ended (ios : List (Io c)) (ended : turn.point.Ended) :
    ((pairing c sink).alone id turn ios).point.Ended := by
  induction ios generalizing turn with
  | nil => exact ended
  | cons io ios ih =>
    refine ih ?_
    have effect : turn.shared.Effect sink id turn.point _ _ _ :=
      PairingNode.advance_turned sink turn.shared id io turn.point
    obtain ⟨-, kept, -⟩ := effect.of_ended ended
    change (turn.shared.advance sink id io turn.point).point.Ended
    rw [kept]
    exact ended

theorem trace_working {ios : List (Io c)}
    (more : ¬ ((pairing c sink).alone id turn ios).point.Ended) :
    ∀ e ∈ trace (nodeStep c sink) (w.put id call turn) (ios.map (.resume id)),
      e.output.bind Observed.returned = none := by
  induction ios generalizing turn with
  | nil => simp [trace]
  | cons io ios ih =>
    have stepped : nodeStep c sink (w.put id call turn) (.resume id io) = _ :=
      nodeStep_put sink (rfl : turn.shared.advance sink id io turn.point = _)
    rw [List.map_cons, trace, stepped]
    refine List.forall_mem_cons.mpr ⟨?_, ih more⟩
    have found := congrArg (fun next => next.1.tasks id) stepped
    rw [put_self] at found
    refine nodeStep_quiet found fun ended => more ?_
    exact alone_ended ios ended

theorem run_working (op : Operator (World c T) (NodeEvent c) (Option Observed) (Arrival c) Turn Stage)
    (delivers : op.deliver = Arrival.event)
    (deaf : ∀ event seen, seen.bind Observed.returned = none → op.hears stage event seen = stage)
    {ios : List (Io c)} (more : ¬ ((pairing c sink).alone id turn ios).point.Ended) :
    run (op.step (nodeStep c sink)) ⟨w.put id call turn, stage⟩ ((ios.map (.resume id)).map .inl) =
      ⟨w.put id call ((pairing c sink).alone id turn ios), stage⟩ := by
  have events : (ios.map (Arrival.resume id)).map op.deliver = ios.map (.resume id) := by
    rw [delivers, List.map_map]
    rfl
  rw [run_unheard, events]
  · exact congrArg (Watched.mk · stage) (run_put id call turn ios)
  · rw [events]
    exact fun e member => deaf _ _ (trace_working more e member)

theorem run_own (op : Operator (World c T) (NodeEvent c) (Option Observed) (Arrival c) Turn Stage)
    (delivers : op.deliver = Arrival.event) {next : Stage} {asks : Turn} {serial : Nat}
    (acts : op.acts w stage asks = (next, some (.call serial call)))
    (deaf : ∀ event seen, seen.bind Observed.returned = none → op.hears next event seen = next)
    (new : w.tasks ⟨call.inviteId, serial⟩ = none) {ios : List (Io c)} {io : Io c}
    {reaching last : PairingNode.Turn c T}
    (reached : w.put ⟨call.inviteId, serial⟩ call
        ((pairing c sink).alone ⟨call.inviteId, serial⟩ (w.shared.start call) ios) =
      w.put ⟨call.inviteId, serial⟩ call reaching) (more : ¬ reaching.point.Ended)
    (ends : reaching.shared.advance sink ⟨call.inviteId, serial⟩ io reaching.point = last) :
    run (op.step (nodeStep c sink)) ⟨w, stage⟩
        (.inr asks :: ((ios ++ [io]).map (.resume ⟨call.inviteId, serial⟩)).map .inl) =
      ⟨w.put ⟨call.inviteId, serial⟩ call last,
        op.hears next (.resume ⟨call.inviteId, serial⟩ io) (some last.seen)⟩ := by
  have unended : ¬ ((pairing c sink).alone ⟨call.inviteId, serial⟩ (w.shared.start call)
      ios).point.Ended := by
    have same := congrArg (fun w => w.tasks ⟨call.inviteId, serial⟩) reached
    rw [put_self, put_self] at same
    rw [(Task.mk.inj (Option.some.inj same)).2]
    exact more
  have called : nodeStep c sink w (.call serial call) =
      (w.put ⟨call.inviteId, serial⟩ call (w.shared.start call), some (w.shared.start call).seen) :=
    step_call (p := pairing c sink) new
  have unheard : op.hears next (.call serial call) (some (w.shared.start call).seen) = next := by
    refine deaf _ _ ((start_lastReturns call).quiet fun ended => unended ?_)
    exact alone_ended ios ended
  have taken : nodeStep c sink (w.put ⟨call.inviteId, serial⟩ call reaching)
      (.resume ⟨call.inviteId, serial⟩ io) = _ := nodeStep_put sink ends
  rw [run, step_gives acts, called]
  simp only [unheard]
  rw [List.map_append, List.map_append, run_append, run_working op delivers deaf unended, reached,
    List.map_cons, List.map_nil, List.map_cons, List.map_nil, run, step_delivers, run, delivers]
  simp only [Arrival.event, taken]

end

/-! ## `join` -/

namespace Handshake

variable (x : Handshake c)

def joinArrivals (inviteId : String) (io : Io c) : List (Arrival c) :=
  let asks (serial : Nat) (blob : Bytes) : List (Arrival c) :=
    [.request serial (.withMsg c inviteId Phase.initial blob), .resume ⟨inviteId, serial⟩ io,
      .resume ⟨inviteId, serial⟩ io]
  asks 0 (c.encodeWire discoveryRequest) ++
    asks 1 (c.encodeWire x.serverOffering.negotiationRequest) ++
    asks 2 (c.encodeWire x.serverKeyed.keyExchangeRequest) ++ [.resume ⟨inviteId, 2⟩ io]

/-- `join`: the inviter's Initial Exchange, the PIN, and the inviter's answers to it. -/
def joinRun (inviteId pin : String) (io : Io c) (place : Nat) (line : Except String String) :
    List (Arrival c ⊕ JoinTurn) :=
  (x.joinArrivals inviteId io).map .inl ++
    (.inr .poll :: .inr (.list place) :: .inr (.enter 3 line) ::
      (((List.range 14).map (x.confirming inviteId pin io)).map (.resume ⟨inviteId, 3⟩)).map .inl)

variable {x} (lawful : c.Lawful)
include lawful

theorem submit_ends (sink : TrustSink T) {n : PairingNode c T} (id : CallId) {handle : CallId}
    {pin : String} (entry : n.joiners.lookup id.inviteId = some handle)
    (session : n.joinerSessions handle = some ⟨x.joining x.peerWaiting, false⟩)
    (valid : isValidPin pin = true) (address : x.inviter.info.addr.isEmpty = false) (io : Io c) :
    ∃ paired, paired.With x.inviter ∧
      (n.submitTurn sink id pin (x.confirming id.inviteId pin io) 13).point = .submitAck paired ∧
      (n.submitTurn sink id pin (x.confirming id.inviteId pin io) 13).shared.trust =
        sink.pinPeer n.trust paired := by
  obtain ⟨addr, confirmed⟩ := x.submit_confirmed lawful sink entry session valid address io
  let joined := n.setJoiner handle (x.joining (x.peerRegistered (noobFromPin pin).bytes)) false
  let paired : Paired := .of x.inviter (x.peerArmed (noobFromPin pin).bytes).derived.finish
  have known : (x.joining (x.peerRegistered (noobFromPin pin).bytes)).paired = .ok paired := rfl
  have pins : joined.advance sink id (x.confirming id.inviteId pin io 10)
      (.submitPaired addr handle) = ⟨{ joined with trust := sink.pinPeer n.trust paired },
        .submitForget addr paired, { pinned := some paired }⟩ := by
    simp only [PairingNode.advance, PairingNode.withJoiner, joined, PairingNode.joiner_setJoiner,
      PairingNode.submitPaired, known]
    rfl
  refine ⟨paired, Paired.with_of _ _, ?_⟩
  rw [PairingNode.submitTurn_succ, PairingNode.submitTurn_succ, PairingNode.submitTurn_succ,
    confirmed, PairingNode.waits, pins]
  exact ⟨rfl, rfl⟩

/-- `join` on a fresh node pins the inviter and ends with a success. -/
theorem join_ends (sink : TrustSink T) {profile : NodeProfile} {trust : T} {inviteId pin : String}
    (named : inviteId.isEmpty = false) (free : sink.isClustered trust = false)
    (own : profile.pairingInfo c none = x.joiner.info) {io : Io c} (drawn : io.draws = x.peerDraws)
    (valid : isValidPin pin = true) (address : x.inviter.info.addr.isEmpty = false) (place : Nat)
    {line : Except String String} (typed : promptPin line = .ok pin) :
    ∃ paired, paired.With x.inviter ∧
      (run ((runJoin c sink).step (nodeStep c sink)) ⟨World.fresh c profile trust, .polling⟩
        (x.joinRun inviteId pin io place line)).stage = .ended (.ok (some paired)) ∧
      (run ((runJoin c sink).step (nodeStep c sink)) ⟨World.fresh c profile trust, .polling⟩
        (x.joinRun inviteId pin io place line)).system.shared.trust = sink.pinPeer trust paired := by
  have invitable : x.Invitable sink (World.fresh c profile trust) inviteId :=
    ⟨.fresh profile trust, fun _ => rfl, rfl, named, free, own⟩
  -- The endpoint serves the Initial Exchange while `run_join` polls, so the command hears none
  -- of it.
  obtain ⟨answers, shown⟩ := invitable.joins lawful drawn
  let invited := run (nodeStep c sink) (World.fresh c profile trust) (x.joinEvents inviteId io)
  have waited : run ((runJoin c sink).step (nodeStep c sink))
      ⟨World.fresh c profile trust, .polling⟩ ((x.joinArrivals inviteId io).map .inl) =
        ⟨invited, .polling⟩ := run_unheard fun _ _ => rfl
  have polls : (runJoin c sink).acts invited .polling .poll = (.listing, none) := by
    have unclustered : sink.isClustered invited.shared.trust = false := by
      rw [show invited.shared = _ from shown]
      exact free
    simp only [runJoin, unclustered, Bool.false_eq_true, if_false]
  have lists : (runJoin c sink).acts invited .listing (.list place) =
      (.prompted (.of inviteId x.inviter), none) := by
    have one : invited.shared.pendingInvites = [.of inviteId x.inviter] := by
      rw [show invited.shared = _ from shown]
      rfl
    simp only [runJoin, one, List.rotate_singleton, List.head?_cons]
  have enters : (runJoin c sink).acts invited (.prompted (.of inviteId x.inviter)) (.enter 3 line) =
      (.submitting ⟨inviteId, 3⟩, some (.call 3 (.submitPin inviteId pin))) := by
    simp only [runJoin, typed]
    rfl
  -- Alone, the submitted call reaches its last turn with the peer pinned; what is left is what
  -- the command hears of it.
  obtain ⟨paired, peer, reached, trusted⟩ := submit_ends lawful sink ⟨inviteId, 3⟩ answers.entry
    answers.session valid address io
  let reaching := invited.shared.submitTurn sink ⟨inviteId, 3⟩ pin (x.confirming inviteId pin io) 13
  have more : ¬ reaching.point.Ended := by
    rw [show reaching.point = _ from reached]
    exact not_false
  have returns : reaching.shared.advance sink ⟨inviteId, 3⟩ (x.confirming inviteId pin io 13)
      reaching.point = reaching.shared.returns (.submitted (.ok paired)) := by
    rw [show reaching.point = _ from reached]
    rfl
  have submits := run_own (runJoin c sink) rfl enters
    (fun event _ quiet => runJoin_hears_quiet _ event quiet) (answers.free 3 le_rfl) rfl more returns
  have heard : (runJoin c sink).hears (.submitting ⟨inviteId, 3⟩)
      (.resume ⟨inviteId, 3⟩ (x.confirming inviteId pin io 13))
      (some (reaching.shared.returns (.submitted (.ok paired))).seen) = .ended (.ok (some paired)) :=
    runJoin_hears_own rfl rfl
  have ends : run ((runJoin c sink).step (nodeStep c sink)) ⟨World.fresh c profile trust, .polling⟩
      (x.joinRun inviteId pin io place line) =
        ⟨invited.put ⟨inviteId, 3⟩ (.submitPin inviteId pin)
          (reaching.shared.returns (.submitted (.ok paired))), .ended (.ok (some paired))⟩ := by
    rw [joinRun, List.range_succ, List.map_append, run_append, waited, run, step_quiet polls, run,
      step_quiet lists, ← heard]
    exact submits
  rw [ends]
  refine ⟨paired, peer, rfl, trusted.trans ?_⟩
  rw [shown]
  rfl

end Handshake

/-! ## `invite` -/

section

variable {w : World c T} {id : CallId} {s t : InviterSession c} {next : Nat} {io : Io c}
  {blob : Bytes}

-- A completion request with its turns, as they reach the endpoint.
def completionArrivals (inviteId : String) (serial : Nat) (io : Io c) (blob : Bytes) :
    List (Arrival c) :=
  [.request serial (.withMsg c inviteId Phase.completion blob), .resume ⟨inviteId, serial⟩ io,
    .resume ⟨inviteId, serial⟩ io]

theorem World.Serves.trusts (lawful : c.Lawful) (serves : w.Serves id s next)
    (named : id.inviteId.isEmpty = false) (sink : TrustSink T) {reply : Reply}
    {paired : Option Paired}
    (answered : s.completionRequest io.draws id.inviteId blob = (t, some (reply, paired))) :
    (run (nodeStep c sink) w (completionEvents id.inviteId next io blob)).shared.trust =
      (paired.elim w.shared.trust (sink.pinPeer w.shared.trust)) := by
  have turn : w.shared.advance sink ⟨id.inviteId, next⟩ io (.completionSession blob id) =
      w.shared.completionSession sink ⟨id.inviteId, next⟩ io.draws blob id s := by
    simp only [PairingNode.advance, serves.session]
  rw [completionEvents, run, run, run, run, serves.calls lawful named, serves.looks,
    World.completing, nodeStep_put sink turn]
  cases paired with
  | none =>
    simp only [PairingNode.completionSession, answered]
    rfl
  | some paired =>
    simp only [PairingNode.completionSession, answered]
    rfl

end

namespace Handshake

variable (x : Handshake c)

def offered (inviteId : String) (pin : Fin 1000000) : List (Io c) :=
  let answers (draws : Draws c) (blob : Bytes) : Io c :=
    ⟨draws, .ok (.withMsg c inviteId Phase.initial blob), pin⟩
  [answers x.naming (c.encodeWire x.peerFresh.discoveryResponse),
    answers x.serverDraws (c.encodeWire x.negotiationResponse),
    answers x.serverDraws (c.encodeWire x.peerKeyed.keyExchangeResponse)]

def completing (inviteId : String) (pin : Fin 1000000) (io : Io c) : List (Arrival c) :=
  completionArrivals inviteId 1 io [] ++ completionArrivals inviteId 2 io (x.resumingMsg pin) ++
    completionArrivals inviteId 3 io (x.noobIdMsg pin) ++
    completionArrivals inviteId 4 io (x.macpMsg pin)

-- `invite`: the joiner's answers, its Completion Exchange, and a poll.
def inviteRun (inviteId : String) (pin : Fin 1000000) (io : Io c) : List (Arrival c ⊕ InviteTurn) :=
  .inr (.create 0 inviteId) ::
      ((x.offered inviteId pin ++ [io]).map (.resume ⟨inviteId, 0⟩)).map .inl ++
    ((x.completing inviteId pin io).map .inl ++ [.inr .poll])

variable {x} (lawful : c.Lawful) {profile : NodeProfile}
  (own : profile.pairingInfo c none = x.inviter.info)
include lawful own

theorem invite_prints (sink : TrustSink T) (trust : T) (inviteId joiner : String)
    (pin : Fin 1000000) (io : Io c) :
    run ((runInvite c sink joiner).step (nodeStep c sink)) ⟨World.fresh c profile trust, .starting⟩
        (.inr (.create 0 inviteId) ::
          ((x.offered inviteId pin ++ [io]).map (.resume ⟨inviteId, 0⟩)).map .inl) =
      ⟨(World.fresh c profile trust).put ⟨inviteId, 0⟩
          (.createInvite inviteId (normalizePairingAddr joiner))
          ((World.fresh c profile trust).shared.createInsert ⟨inviteId, 0⟩ (x.invited pin)
            (mintPin pin)),
        .waiting inviteId (mintPin pin) 600⟩ := by
  let fresh := World.fresh c profile trust
  let id : CallId := ⟨inviteId, 0⟩
  let addr := normalizePairingAddr joiner
  let call : Call := .createInvite inviteId addr
  have started : fresh.put id call (fresh.shared.start call) = fresh.offering id addr
      (c.encodeWire discoveryRequest) (inviting x.serverFresh) :=
    x.invite_calls own sink trust id addr
  -- The three answers take the session to the turn that puts it into the table.
  have reached : fresh.put id call
      ((pairing c sink).alone id (fresh.shared.start call) (x.offered inviteId pin)) =
        fresh.put id call (fresh.shared.waits (.createInsert (x.invited pin) (mintPin pin))) := by
    rw [← run_put, started]
    change run (nodeStep c sink) _ [answer id x.naming pin _, answer id x.serverDraws pin _,
      answer id x.serverDraws pin _] = _
    rw [run, x.invite_offers lawful, run, x.invite_keys lawful, run, x.invite_waits lawful, run]
    rfl
  have more : ¬ (fresh.shared.waits (.createInsert (x.invited pin) (mintPin pin))).point.Ended :=
    not_false
  have returns : (fresh.shared.waits (.createInsert (x.invited pin) (mintPin pin))).shared.advance sink
      id io (.createInsert (x.invited pin) (mintPin pin)) =
        fresh.shared.createInsert id (x.invited pin) (mintPin pin) := rfl
  have heard : (runInvite c sink joiner).hears (.creating id) (.resume id io)
      (some (fresh.shared.createInsert id (x.invited pin) (mintPin pin)).seen) =
        .waiting inviteId (mintPin pin) 600 := runInvite_hears_own joiner rfl rfl
  have creates : (runInvite c sink joiner).acts fresh .starting (.create 0 inviteId) =
      (.creating id, some (.call 0 call)) := rfl
  rw [← heard]
  exact run_own (runInvite c sink joiner) rfl creates
    (fun event _ quiet => runInvite_hears_quiet joiner _ event quiet) rfl reached more returns

omit own in
theorem request_pins (draws : Draws c) (inviteId : String) (pin : Fin 1000000) :
    ∃ reply paired, (x.matched pin pin).completionRequest draws inviteId (x.macpMsg pin) =
      (x.paired pin pin, some (reply, some paired)) ∧ paired.With x.joiner :=
  ⟨_, _, completionRequest_eq inviteId (ne_nil_of_decode lawful (x.decode_macp lawful _))
    (x.inviter_registers lawful draws (noob pin) (x.takesUp pin)), Paired.with_of _ _⟩

omit own in
theorem completing_pins (sink : TrustSink T) {w : World c T} {inviteId : String} {pin : Fin 1000000}
    (serves : w.Serves ⟨inviteId, 0⟩ (x.invited pin) 1) (named : inviteId.isEmpty = false)
    (io : Io c) :
    ∃ paired, paired.With x.joiner ∧
      (run (nodeStep c sink) w ((x.completing inviteId pin io).map Arrival.event)).shared.trust =
        sink.pinPeer w.shared.trust paired := by
  have events : (x.completing inviteId pin io).map Arrival.event =
      completionEvents inviteId 1 io [] ++ (completionEvents inviteId 2 io (x.resumingMsg pin) ++
        (completionEvents inviteId 3 io (x.noobIdMsg pin) ++
          completionEvents inviteId 4 io (x.macpMsg pin))) := rfl
  have kickoff : (x.invited pin).completionRequest io.draws inviteId [] =
    (x.invited pin, some (.ok (.withMsg c inviteId Phase.completion (x.invited pin).start), none)) :=
      rfl
  obtain ⟨_, resumes⟩ := x.request_resumes lawful io.draws inviteId pin pin
  obtain ⟨_, agrees⟩ := x.request_matches lawful io.draws inviteId pin pin
  obtain ⟨_, paired, registers, peer⟩ := request_pins (x := x) lawful io.draws inviteId pin
  have second := serves.completes lawful named sink io [] kickoff
  have third := second.completes lawful named sink io _ resumes
  have fourth := third.completes lawful named sink io _ agrees
  refine ⟨paired, peer, ?_⟩
  rw [events, run_append, run_append, run_append, fourth.trusts lawful named sink registers,
    third.trusts lawful named sink agrees, second.trusts lawful named sink resumes,
    serves.trusts lawful named sink kickoff]
  rfl

/-- `invite` on a fresh node pins the joiner and reports that it has joined. -/
theorem invite_ends (sink : TrustSink T) {trust : T} {inviteId : String}
    (named : inviteId.isEmpty = false) (joiner : String) (pin : Fin 1000000) (io : Io c)
    (closes : ∀ paired : Paired, paired.With x.joiner →
      sink.isClustered (sink.pinPeer trust paired) = true) :
    ∃ paired, paired.With x.joiner ∧
      (run ((runInvite c sink joiner).step (nodeStep c sink)) ⟨World.fresh c profile trust, .starting⟩
        (x.inviteRun inviteId pin io)).stage = .joined inviteId (mintPin pin) ∧
      (run ((runInvite c sink joiner).step (nodeStep c sink)) ⟨World.fresh c profile trust, .starting⟩
        (x.inviteRun inviteId pin io)).system.shared.trust = sink.pinPeer trust paired := by
  let fresh := World.fresh c profile trust
  let printed := fresh.put ⟨inviteId, 0⟩ (.createInvite inviteId (normalizePairingAddr joiner))
    (fresh.shared.createInsert ⟨inviteId, 0⟩ (x.invited pin) (mintPin pin))
  have prints := invite_prints lawful own sink trust inviteId joiner pin io
  have serves : World.Serves printed ⟨inviteId, 0⟩ (x.invited pin) 1 := by
    refine ⟨World.Idle.put (World.Idle.fresh profile trust) trivial, AList.lookup_insert _,
      Function.update_self _ _ _, fun serial above => put_other _ _ fun same => ?_⟩
    have zero := (CallId.mk.inj same).2
    omega
  obtain ⟨paired, peer, trusted⟩ := completing_pins lawful sink serves named io
  let completed := run (nodeStep c sink) printed ((x.completing inviteId pin io).map Arrival.event)
  have completes : run ((runInvite c sink joiner).step (nodeStep c sink))
      ⟨printed, .waiting inviteId (mintPin pin) 600⟩ ((x.completing inviteId pin io).map .inl) =
        ⟨completed, .waiting inviteId (mintPin pin) 600⟩ := run_unheard fun _ _ => rfl
  have polls : (runInvite c sink joiner).acts completed (.waiting inviteId (mintPin pin) 600) .poll =
      (.joined inviteId (mintPin pin), none) := by
    have clustered : sink.isClustered completed.shared.trust = true := by
      rw [show completed.shared.trust = _ from trusted]
      exact closes paired peer
    simp only [runInvite, clustered, if_true]
  have ends : run ((runInvite c sink joiner).step (nodeStep c sink)) ⟨fresh, .starting⟩
      (x.inviteRun inviteId pin io) = ⟨completed, .joined inviteId (mintPin pin)⟩ := by
    rw [inviteRun, run_append, prints, run_append, completes, run, step_quiet polls, run]
  rw [ends]
  exact ⟨paired, peer, rfl, trusted⟩

end Handshake

/-! ## Both -/

/-- The two commands on fresh nodes, with the messages of one handshake and the PIN
that `invite` printed: each pins the other's certificate, and both report a success. -/
theorem honest_commands (lawful : c.Lawful) (x : Handshake c) (sink : TrustSink T)
    {profile profile' : NodeProfile} {trust trust' : T} {inviteId : String}
    (own : profile.pairingInfo c none = x.inviter.info)
    (own' : profile'.pairingInfo c none = x.joiner.info)
    (named : inviteId.isEmpty = false) (address : x.inviter.info.addr.isEmpty = false)
    (closes : ∀ paired : Paired, paired.With x.joiner →
      sink.isClustered (sink.pinPeer trust paired) = true)
    (free : sink.isClustered trust' = false) (joiner : String) (pin : Fin 1000000) (place : Nat)
    {line : Except String String} (typed : promptPin line = .ok (mintPin pin)) (io : Io c)
    {io' : Io c} (drawn : io'.draws = x.peerDraws) :
    (∃ paired, paired.With x.joiner ∧
      (run ((runInvite c sink joiner).step (nodeStep c sink)) ⟨World.fresh c profile trust, .starting⟩
        (x.inviteRun inviteId pin io)).stage = .joined inviteId (mintPin pin) ∧
      (run ((runInvite c sink joiner).step (nodeStep c sink)) ⟨World.fresh c profile trust, .starting⟩
        (x.inviteRun inviteId pin io)).system.shared.trust = sink.pinPeer trust paired) ∧
    ∃ paired, paired.With x.inviter ∧
      (run ((runJoin c sink).step (nodeStep c sink)) ⟨World.fresh c profile' trust', .polling⟩
        (x.joinRun inviteId (mintPin pin) io' place line)).stage = .ended (.ok (some paired)) ∧
      (run ((runJoin c sink).step (nodeStep c sink)) ⟨World.fresh c profile' trust', .polling⟩
        (x.joinRun inviteId (mintPin pin) io' place line)).system.shared.trust =
          sink.pinPeer trust' paired :=
  ⟨x.invite_ends lawful own sink named joiner pin io closes,
    x.join_ends lawful sink named free own' drawn (isValidPin_mintPin pin) address place typed⟩

namespace Reference

theorem home_closes {paired : Paired} (peer : paired.With endpoints.joiner) :
    (clusterTrust crates []).isClustered ((clusterTrust crates []).pinPeer home paired) = true := by
  have known : nodeUuidFromCert crates paired.peerCertDer = some joinerCertificate.nodeUuid := by
    rw [peer.cert]
    exact principal (found joiner_known)
  exact home_clusters rfl known

/-- A node that trusts no one yet and has a cluster directory. -/
def settled : DaemonTrust :=
  { sink := { trust := ⟨ownTree, {}⟩, clusterDir := some clusterPath, clustered := false } }

theorem ownTree_place : ownTree.place [] (trustedPath clusterPath) = some trustedPlace := rfl

theorem settled_stores {certificate : Certificate} (known : certificate ∈ certificates)
    {paired : Paired} (text : paired.peer.cert = pem certificate.der) :
    let after := ((clusterTrust crates []).pinPeer settled paired).sink
    after.trust.tree (trustedPlace ++ [fileName certificate.nodeUuid]) =
        some (.file (utf8 (pem certificate.der))) ∧ after.clustered = true := by
  have certifies : certified crates (pem certificate.der) =
      some (certificate.nodeUuid, certificate.der) :=
    certified_eq_some.mpr ⟨certificate_decoded known, certificate_named known⟩
  have added := addTrustedPeer_stores (s := settled.sink.trust) ownTree_place certifies
    (certificate_plain known) (certificate_normal known) (ownTree_free _)
  rw [← text] at added
  have configured : settled.sink.clusterDir = some clusterPath := rfl
  obtain ⟨trust, flag⟩ := ClusterTrustSink.pinPeer_added configured added
  refine ⟨(congrFun (congrArg TrustState.tree trust) _).trans ?_, flag⟩
  dsimp only
  rw [Function.update_self, text]

theorem joiner_cert : endpoints.joiner.info.cert = pem joinerCertificate.der := rfl

theorem inviter_cert : endpoints.inviter.info.cert = pem inviterCertificate.der := rfl

theorem settled_closes {paired : Paired} (peer : paired.With endpoints.joiner) :
    (clusterTrust crates []).isClustered ((clusterTrust crates []).pinPeer settled paired) = true :=
  (settled_stores joiner_known ((congrArg PairingInfo.cert peer.info).trans joiner_cert)).2

theorem typed : promptPin (.ok "000000\n") = .ok (mintPin rightPin) := by decide

/-- The two commands of the reference parties, on nodes that trust so far. -/
def inviteOn (trust : DaemonTrust) : Watched (World crates DaemonTrust) InviteStage :=
  run ((runInvite crates (clusterTrust crates []) "b").step (nodeStep crates (clusterTrust crates [])))
    ⟨World.fresh crates inviterProfile trust, .starting⟩ (endpoints.inviteRun "invite" rightPin nodeIo)

def joinOn (trust : DaemonTrust) : Watched (World crates DaemonTrust) JoinStage :=
  run ((runJoin crates (clusterTrust crates [])).step (nodeStep crates (clusterTrust crates [])))
    ⟨World.fresh crates joinerProfile trust, .polling⟩
    (endpoints.joinRun "invite" (mintPin rightPin) joinerIo 0 (.ok "000000\n"))

-- Rewriting with these leaves the runs as they are.
theorem inviteOn_eq (trust : DaemonTrust) : inviteOn trust =
    run ((runInvite crates (clusterTrust crates []) "b").step (nodeStep crates (clusterTrust crates [])))
      ⟨World.fresh crates inviterProfile trust, .starting⟩
      (endpoints.inviteRun "invite" rightPin nodeIo) := rfl

theorem joinOn_eq (trust : DaemonTrust) : joinOn trust =
    run ((runJoin crates (clusterTrust crates [])).step (nodeStep crates (clusterTrust crates [])))
      ⟨World.fresh crates joinerProfile trust, .polling⟩
      (endpoints.joinRun "invite" (mintPin rightPin) joinerIo 0 (.ok "000000\n")) := rfl

def invited : Watched (World crates DaemonTrust) InviteStage := inviteOn home

def joined : Watched (World crates DaemonTrust) JoinStage := joinOn home

end Reference

/-- Both end with a success, and each has the other's certificate in its directory. -/
theorem honest_commands_reference :
    (Reference.inviteOn Reference.settled).stage = .joined "invite" (mintPin Reference.rightPin) ∧
    (Reference.inviteOn Reference.settled).system.shared.trust.sink.trust.tree
        (Reference.trustedPlace ++ [fileName Reference.joinerCertificate.nodeUuid]) =
      some (.file (utf8 (Reference.pem Reference.joinerCertificate.der))) ∧
    (∃ paired, paired.With Reference.endpoints.inviter ∧
      (Reference.joinOn Reference.settled).stage = .ended (.ok (some paired))) ∧
    (Reference.joinOn Reference.settled).system.shared.trust.sink.trust.tree
        (Reference.trustedPlace ++ [fileName Reference.inviterCertificate.nodeUuid]) =
      some (.file (utf8 (Reference.pem Reference.inviterCertificate.der))) := by
  have named : "invite".isEmpty = false := by decide
  have drawn : Reference.joinerIo.draws = Reference.endpoints.peerDraws := rfl
  have free : (clusterTrust Reference.crates []).isClustered Reference.settled = false := rfl
  obtain ⟨⟨paired, joiner, reports, invited⟩, paired', inviter, ends, joined⟩ :=
    honest_commands Reference.lawful Reference.endpoints (clusterTrust Reference.crates []) rfl rfl
      named (by decide) (fun _ => Reference.settled_closes) free "b" Reference.rightPin 0
      Reference.typed Reference.nodeIo drawn
  have joinerCert := (congrArg PairingInfo.cert joiner.info).trans Reference.joiner_cert
  have inviterCert := (congrArg PairingInfo.cert inviter.info).trans Reference.inviter_cert
  rw [Reference.inviteOn_eq, Reference.joinOn_eq]
  refine ⟨reports, ?_, ⟨paired', inviter, ends⟩, ?_⟩
  · rw [invited]
    exact (Reference.settled_stores Reference.joiner_known joinerCert).1
  · rw [joined]
    exact (Reference.settled_stores Reference.inviter_known inviterCert).1

end OpenPair
