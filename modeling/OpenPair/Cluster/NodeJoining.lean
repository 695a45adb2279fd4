import OpenPair.Cluster.NodeExchange

/-! An endpoint that answers an invite, a call at a time. -/

set_option autoImplicit false

namespace OpenPair

open Tasks Transition

variable {c : Crates} {T : Type} {sink : TrustSink T}

/-- A session in the table of the joiners, with no call of its invite from this number on. -/
structure World.Answers (w : World c T) (id : CallId) (s : JoinerSession c) (next : Nat) : Prop where
  idle : w.Idle
  entry : w.shared.joiners.lookup id.inviteId = some id
  session : w.shared.joinerSessions id = some ⟨s, false⟩
  free : ∀ serial, next ≤ serial → w.tasks ⟨id.inviteId, serial⟩ = none

def initialRequest (inviteId : String) (blob : Bytes) : Call :=
  .request (.withMsg c inviteId Phase.initial blob)

theorem start_initial (lawful : c.Lawful) {n : PairingNode c T} {inviteId : String}
    (named : inviteId.isEmpty = false) (blob : Bytes) :
    n.start (initialRequest (c := c) inviteId blob) = n.waits (.initialLookup blob) := by
  have msg : (PairingEnvelope.withMsg c inviteId Phase.initial blob).blob c = blob :=
    PairingEnvelope.blob_withMsg lawful _ _ _
  simp only [PairingNode.start, initialRequest, msg]
  simp only [PairingEnvelope.withMsg, named, Bool.false_eq_true, if_false, if_true]

def initialEvents (inviteId : String) (serial : Nat) (io : Io c) (blob : Bytes) :
    List (NodeEvent c) :=
  [.call serial (initialRequest (c := c) inviteId blob), .resume ⟨inviteId, serial⟩ io,
    .resume ⟨inviteId, serial⟩ io]

def World.asked (w : World c T) (id : CallId) (serial : Nat) (blob : Bytes)
    (turn : PairingNode.Turn c T) : World c T :=
  w.put ⟨id.inviteId, serial⟩ (initialRequest (c := c) id.inviteId blob) turn

theorem call_initial (lawful : c.Lawful) {w : World c T} {id : CallId} {serial : Nat}
    (new : w.tasks ⟨id.inviteId, serial⟩ = none) (named : id.inviteId.isEmpty = false)
    (sink : TrustSink T) (blob : Bytes) :
    (nodeStep c sink w (.call serial (initialRequest (c := c) id.inviteId blob))).1 =
      w.asked id serial blob (w.shared.waits (.initialLookup blob)) := by
  have called : nodeStep c sink w (.call serial (initialRequest (c := c) id.inviteId blob)) = _ :=
    step_call (p := pairing c sink) new
  rw [called]
  exact congrArg (w.put _ _) (start_initial lawful named blob)

theorem initialRequest_eq {s t : JoinerSession c} {draws : Draws c} {msg bytes : Bytes}
    (inviteId : String) (answered : s.onInitial draws msg = (t, some (.ok bytes))) :
    s.initialRequest draws inviteId msg = (t, some (.ok (.ok (.withMsg c inviteId Phase.initial bytes),
      if t.state = .waiting then t.inviter.map (PendingInvite.of inviteId) else none))) := by
  simp only [JoinerSession.initialRequest, answered, Option.map_some, Except.map]

section

variable {w : World c T} {id : CallId} {s t : JoinerSession c} {next : Nat} {io : Io c}
  {blob bytes : Bytes}

theorem joiner_free {n : PairingNode c T} (session : n.joinerSessions id = some ⟨s, false⟩) :
    n.joiner id = some s := by
  rw [PairingNode.joiner, session]
  rfl

theorem advance_initialSession {n : PairingNode c T} (own : CallId) (sink : TrustSink T)
    (session : n.joinerSessions id = some ⟨s, false⟩)
    (answered : s.onInitial io.draws blob = (t, some (.ok bytes))) :
    (t.state ≠ .waiting → n.advance sink own io (.initialSession blob id) =
        (n.setJoiner id t false).returns
          (.replied (.ok (.withMsg c own.inviteId Phase.initial bytes)))) ∧
      ∀ i, t.state = .waiting → t.inviter = some i →
        n.advance sink own io (.initialSession blob id) =
          (n.setJoiner id t false).waits (.initialPending (.of own.inviteId i)
            (.ok (.withMsg c own.inviteId Phase.initial bytes))) := by
  constructor
  · intro early
    simp only [PairingNode.advance, PairingNode.withJoiner, joiner_free session,
      PairingNode.initialSession, initialRequest_eq own.inviteId answered, early, if_false]
  · intro i waits inviter
    simp only [PairingNode.advance, PairingNode.withJoiner, joiner_free session,
      PairingNode.initialSession, initialRequest_eq own.inviteId answered, waits, if_true, inviter,
      Option.map_some]

theorem advance_lookup {n : PairingNode c T} (own : CallId) (sink : TrustSink T)
    (entry : n.joiners.lookup own.inviteId = some id) :
    n.advance sink own io (.initialLookup blob) = n.waits (.initialSession blob id) := by
  simp only [PairingNode.advance, PairingNode.initialLookup, entry]

def PairingNode.opened (n : PairingNode c T) (id : CallId) (s : JoinerSession c) :
    PairingNode c T :=
  { n with joiners := n.joiners.insert id.inviteId id }.setJoiner id s false

def PairingNode.shown (n : PairingNode c T) (id : CallId) (s : JoinerSession c) (i : PeerIdentity) :
    PairingNode c T :=
  { n.opened id s with pending := n.pending.insert id.inviteId (.of id.inviteId i) }

theorem advance_opens {n : PairingNode c T} (sink : TrustSink T)
    (absent : n.joiners.lookup id.inviteId = none) (first : firstType c blob = some 1)
    (unclustered : sink.isClustered n.trust = false) :
    n.advance sink id io (.initialLookup blob) =
      (n.opened id (.new c (n.profile.pairingInfo c none))).waits (.initialSession blob id) := by
  simp only [PairingNode.advance, PairingNode.initialLookup, absent, first, unclustered, ne_eq,
    not_true_eq_false, Bool.false_eq_true, if_false]
  rfl

def World.replied (w : World c T) (id : CallId) (serial : Nat) (blob bytes : Bytes)
    (n : PairingNode c T) : World c T :=
  w.asked id serial blob
    (n.returns (.replied (.ok (.withMsg c id.inviteId Phase.initial bytes))))

theorem World.Answers.replied {n : PairingNode c T} (idle : w.Idle)
    (free : ∀ serial, next < serial → w.tasks ⟨id.inviteId, serial⟩ = none)
    (entry : n.joiners.lookup id.inviteId = some id)
    (session : n.joinerSessions id = some ⟨t, false⟩) (blob bytes : Bytes) :
    World.Answers (w.replied id next blob bytes n) id t (next + 1) where
  idle := idle.put trivial
  entry := entry
  session := session
  free later above := by
    have differs : (⟨id.inviteId, later⟩ : CallId) ≠ ⟨id.inviteId, next⟩ := by
      intro same
      have equal := (CallId.mk.inj same).2
      omega
    exact (put_other _ _ differs).trans (free later (by omega))

theorem run_initial (lawful : c.Lawful) (answers : w.Answers id s next)
    (named : id.inviteId.isEmpty = false) (sink : TrustSink T)
    (answered : s.onInitial io.draws blob = (t, some (.ok bytes))) (early : t.state ≠ .waiting) :
    World.Answers (run (nodeStep c sink) w (initialEvents id.inviteId next io blob)) id t
        (next + 1) ∧
      (run (nodeStep c sink) w (initialEvents id.inviteId next io blob)).shared =
        w.shared.setJoiner id t false := by
  have new := answers.free next le_rfl
  have turn := (advance_initialSession ⟨id.inviteId, next⟩ sink answers.session answered).1 early
  rw [initialEvents, run, call_initial lawful new named, run, World.asked,
    nodeStep_put sink (advance_lookup ⟨id.inviteId, next⟩ sink answers.entry), run,
    nodeStep_put sink turn, run]
  refine ⟨World.Answers.replied answers.idle (fun serial above => answers.free serial above.le)
    ?_ (Function.update_self _ _ _) blob bytes, rfl⟩
  exact answers.entry

theorem run_showing (lawful : c.Lawful) (answers : w.Answers id s next)
    (named : id.inviteId.isEmpty = false) (sink : TrustSink T)
    (answered : s.onInitial io.draws blob = (t, some (.ok bytes))) {i : PeerIdentity}
    (waits : t.state = .waiting) (inviter : t.inviter = some i) :
    run (nodeStep c sink) w (initialEvents id.inviteId next io blob) =
      w.asked id next blob ((w.shared.setJoiner id t false).waits
        (.initialPending (.of id.inviteId i)
          (.ok (.withMsg c id.inviteId Phase.initial bytes)))) := by
  have new := answers.free next le_rfl
  have turn := (advance_initialSession ⟨id.inviteId, next⟩ sink answers.session answered).2 i waits
    inviter
  rw [initialEvents, run, call_initial lawful new named, run, World.asked,
    nodeStep_put sink (advance_lookup ⟨id.inviteId, next⟩ sink answers.entry), run,
    nodeStep_put sink turn, run]
  rfl

theorem run_waiting (lawful : c.Lawful) (answers : w.Answers id s next)
    (named : id.inviteId.isEmpty = false) (sink : TrustSink T)
    (answered : s.onInitial io.draws blob = (t, some (.ok bytes))) {i : PeerIdentity}
    (waits : t.state = .waiting) (inviter : t.inviter = some i) :
    World.Answers (run (nodeStep c sink) w
        (initialEvents id.inviteId next io blob ++ [.resume ⟨id.inviteId, next⟩ io])) id t
        (next + 1) ∧
      (run (nodeStep c sink) w
        (initialEvents id.inviteId next io blob ++ [.resume ⟨id.inviteId, next⟩ io])).shared =
          { w.shared.setJoiner id t false with
            pending := w.shared.pending.insert id.inviteId (.of id.inviteId i) } := by
  rw [run_append, run_showing lawful answers named sink answered waits inviter, run, World.asked,
    nodeStep_put sink rfl, run]
  refine ⟨World.Answers.replied answers.idle (fun serial above => answers.free serial above.le)
    ?_ (Function.update_self _ _ _) blob bytes, rfl⟩
  exact answers.entry

theorem run_opening (lawful : c.Lawful) (idle : w.Idle)
    (new : ∀ serial, id.serial ≤ serial → w.tasks ⟨id.inviteId, serial⟩ = none)
    (named : id.inviteId.isEmpty = false) (sink : TrustSink T)
    (absent : w.shared.joiners.lookup id.inviteId = none) (first : firstType c blob = some 1)
    (unclustered : sink.isClustered w.shared.trust = false)
    (answered : (JoinerSession.new c (w.shared.profile.pairingInfo c none)).onInitial io.draws blob =
      (t, some (.ok bytes))) (early : t.state ≠ .waiting) :
    World.Answers (run (nodeStep c sink) w (initialEvents id.inviteId id.serial io blob)) id t
        (id.serial + 1) ∧
      (run (nodeStep c sink) w (initialEvents id.inviteId id.serial io blob)).shared =
        w.shared.opened id t := by
  have opens : w.shared.advance sink id io (.initialLookup blob) = _ :=
    advance_opens sink absent first unclustered
  have session : (w.shared.opened id (.new c (w.shared.profile.pairingInfo c none))).joinerSessions
      id = some ⟨.new c (w.shared.profile.pairingInfo c none), false⟩ := Function.update_self _ _ _
  have turn := (advance_initialSession id sink session answered).1 early
  rw [initialEvents, run, call_initial lawful (new _ le_rfl) named, run, World.asked,
    nodeStep_put sink opens, run, nodeStep_put sink turn, run]
  simp only [PairingNode.opened, PairingNode.setJoiner, Function.update_idem]
  refine ⟨World.Answers.replied idle (fun serial above => new serial above.le)
    ?_ (Function.update_self _ _ _) blob bytes, rfl⟩
  exact AList.lookup_insert _

end

namespace Handshake

variable (x : Handshake c)

-- The inviter's messages of the Initial Exchange, as an endpoint gets them.
def discoveryEvents (inviteId : String) (io : Io c) : List (NodeEvent c) :=
  initialEvents inviteId 0 io (c.encodeWire discoveryRequest)

def negotiationEvents (inviteId : String) (io : Io c) : List (NodeEvent c) :=
  initialEvents inviteId 1 io (c.encodeWire x.serverOffering.negotiationRequest)

def keyExchangeEvents (inviteId : String) (io : Io c) : List (NodeEvent c) :=
  initialEvents inviteId 2 io (c.encodeWire x.serverKeyed.keyExchangeRequest) ++
    [.resume ⟨inviteId, 2⟩ io]

def joinEvents (inviteId : String) (io : Io c) : List (NodeEvent c) :=
  discoveryEvents inviteId io ++ (x.negotiationEvents inviteId io ++ x.keyExchangeEvents inviteId io)

/-- An endpoint of the joiner to which the invite is new. -/
structure Invitable (sink : TrustSink T) (w : World c T) (inviteId : String) : Prop where
  idle : w.Idle
  new : ∀ serial, w.tasks ⟨inviteId, serial⟩ = none
  absent : w.shared.joiners.lookup inviteId = none
  named : inviteId.isEmpty = false
  unclustered : sink.isClustered w.shared.trust = false
  own : w.shared.profile.pairingInfo c none = x.joiner.info

section

variable {x} {w : World c T} {inviteId : String} {io : Io c} (lawful : c.Lawful)
include lawful

theorem firstType_discovery : firstType c (c.encodeWire discoveryRequest) = some 1 := by
  rw [firstType, lawful.type _ (by simp [discoveryRequest, Wire.raws])]
  rfl

theorem Invitable.discovers (invitable : x.Invitable sink w inviteId) (io : Io c) :
    World.Answers (run (nodeStep c sink) w (discoveryEvents inviteId io)) ⟨inviteId, 0⟩
        (answering x.peerFresh) 1 ∧
      (run (nodeStep c sink) w (discoveryEvents inviteId io)).shared =
        w.shared.opened ⟨inviteId, 0⟩ (answering x.peerFresh) := by
  have discovers : (JoinerSession.new c (w.shared.profile.pairingInfo c none)).onInitial io.draws
      (c.encodeWire discoveryRequest) =
        (answering x.peerFresh, some (.ok (c.encodeWire x.peerFresh.discoveryResponse))) := by
    have session : JoinerSession.new c x.joiner.info = answering x.peerFresh := x.freshJoiner_eq
    rw [invitable.own, session]
    exact x.joiner_discovers lawful io.draws
  have new : ∀ serial, (⟨inviteId, 0⟩ : CallId).serial ≤ serial →
      w.tasks ⟨inviteId, serial⟩ = none := fun serial _ => invitable.new serial
  exact run_opening lawful invitable.idle new invitable.named sink invitable.absent
    (firstType_discovery lawful) invitable.unclustered discovers nofun

theorem join_negotiates (answers : World.Answers w ⟨inviteId, 0⟩ (answering x.peerFresh) 1)
    (named : inviteId.isEmpty = false) (sink : TrustSink T) (io : Io c) :
    World.Answers (run (nodeStep c sink) w (x.negotiationEvents inviteId io)) ⟨inviteId, 0⟩
        (answering x.peerNegotiated) 2 ∧
      (run (nodeStep c sink) w (x.negotiationEvents inviteId io)).shared =
        w.shared.setJoiner ⟨inviteId, 0⟩ (answering x.peerNegotiated) false :=
  run_initial lawful answers named sink (x.joiner_negotiates lawful io.draws) nofun

theorem join_waits (answers : World.Answers w ⟨inviteId, 0⟩ (answering x.peerNegotiated) 2)
    (named : inviteId.isEmpty = false) (sink : TrustSink T) (drawn : io.draws = x.peerDraws) :
    World.Answers (run (nodeStep c sink) w (x.keyExchangeEvents inviteId io)) ⟨inviteId, 0⟩
        (x.joining x.peerWaiting) 3 ∧
      (run (nodeStep c sink) w (x.keyExchangeEvents inviteId io)).shared =
        { w.shared.setJoiner ⟨inviteId, 0⟩ (x.joining x.peerWaiting) false with
          pending := w.shared.pending.insert inviteId (.of inviteId x.inviter) } := by
  have waits := x.joiner_waits lawful
  rw [← drawn] at waits
  exact run_waiting lawful answers named sink waits rfl rfl

/-- The endpoint shows the invite once the Initial Exchange has ended. -/
theorem Invitable.joins (invitable : x.Invitable sink w inviteId) (drawn : io.draws = x.peerDraws) :
    World.Answers (run (nodeStep c sink) w (x.joinEvents inviteId io)) ⟨inviteId, 0⟩
        (x.joining x.peerWaiting) 3 ∧
      (run (nodeStep c sink) w (x.joinEvents inviteId io)).shared =
        w.shared.shown ⟨inviteId, 0⟩ (x.joining x.peerWaiting) x.inviter := by
  obtain ⟨opened, afterDiscovery⟩ := invitable.discovers lawful io
  obtain ⟨negotiated, afterNegotiation⟩ := join_negotiates lawful opened invitable.named sink io
  obtain ⟨waiting, afterKeys⟩ := join_waits lawful negotiated invitable.named sink drawn
  rw [joinEvents, run_append, run_append]
  rw [afterNegotiation, afterDiscovery] at afterKeys
  refine ⟨waiting, afterKeys.trans ?_⟩
  simp only [PairingNode.shown, PairingNode.opened, PairingNode.setJoiner, Function.update_idem]

end

end Handshake

/-! ## The joiner's endpoint of the reference parties -/

namespace Reference

def joinerIo : Io crates := ⟨draws .peer, .error "", rightPin⟩

def joinerNode : World crates (List Paired) := .fresh crates joinerProfile []

theorem invitable (inviteId : String) (named : inviteId.isEmpty = false) :
    endpoints.Invitable keeping joinerNode inviteId where
  idle := .fresh joinerProfile []
  new _ := rfl
  absent := rfl
  named := named
  unclustered := rfl
  own := rfl

end Reference

end OpenPair
