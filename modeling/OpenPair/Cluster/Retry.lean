import OpenPair.Cluster.Drivers
import OpenPair.Cluster.NodeJoining
import OpenPair.Pairing.PeerAuthentication

/-! What `submit_pin` leaves behind when the exchange with the inviter fails. -/

set_option autoImplicit false

namespace OpenPair

open Drive Tasks Transition

variable {c : Crates} {T : Type}

/-! ## A session that can be tried again -/

/-- A Server at Waiting with the names, keys and transcript of a Peer that was told the PIN. -/
structure Honest (v : Server c) (p : Peer c) : Prop where
  state : v.state = .waiting
  noob : v.m.noob ≠ []
  concordant : Concordant v p

namespace JoinerSession

/-- The loop of `submit_pin` with a Server that answers each of its messages. -/
def completeWith (draws : Draws c) :
    Nat → Server c → JoinerSession c → Bytes → Option (JoinerSession c × OpenPair.Step)
  | 0, _, _, _ => none
  | fuel + 1, v, s, msg =>
    match s.onCompletion draws msg with
    | (_, none) => none
    | (s, some step) =>
      if step.done then some (s, step)
      else
        match v.receive draws (step.send.getD []) with
        | (_, none) => none
        | (v, some out) => completeWith draws fuel v s (out.send.getD [])

/-- Every valid PIN is taken, and completes with an honest inviter. -/
def Completable (s : JoinerSession c) : Prop :=
  ∀ pin, isValidPin pin = true → (∃ addr, (s.beginCompletion pin).2 = .ok addr) ∧
    ∃ v, Honest v (s.beginCompletion pin).1.peer ∧ ∀ draws, ∃ fuel t step,
      completeWith draws fuel v (s.beginCompletion pin).1 v.start = some (t, step) ∧
        step.success = true ∧ ∃ paired, t.paired = .ok paired

/-- The session takes a PIN: it knows where to go, and its machine is at Waiting for one. -/
structure TakesPin (s : JoinerSession c) : Prop where
  address : ∃ i, s.inviter = some i ∧ i.info.addr.isEmpty = false
  state : s.peer.state = .waiting
  direction : s.peer.dirp = 2 ∨ s.peer.dirp = 3

variable {s : JoinerSession c} {draws : Draws c}

def fed (s : JoinerSession c) (pin : String) : JoinerSession c :=
  { s with peer := { s.peer with
      m := s.peer.m.setNoob (noobFromPin pin).bytes
      state := .oobReceived } }

theorem TakesPin.begins (takes : s.TakesPin) (pin : String) :
    ∃ addr, s.beginCompletion pin = (s.fed pin, .ok addr) := by
  obtain ⟨⟨i, inviter, address⟩, state, direction⟩ := takes
  have accepts : oobRefusal s.peer.state s.peer.dirp (noobFromPin pin).bytes = none :=
    (oobRefusal_eq_none _ _ _).mpr ⟨state, direction, (noobFromPin pin).length_eq⟩
  refine ⟨i.info.addr, ?_⟩
  simp only [beginCompletion, inviterAddr, inviter, Option.map_some, Option.filter_some, address,
    Bool.not_false, if_true, feedPin, fed, accepts, Peer.oobInputNoob_accepted accepts]
  rfl

theorem takesPin_of_begins {pin addr : String} (begins : (s.beginCompletion pin).2 = .ok addr) :
    s.TakesPin := by
  unfold beginCompletion at begins
  split at begins
  · cases begins
  · next known =>
    obtain ⟨address, present⟩ := Option.filter_eq_some_iff.mp known
    obtain ⟨i, inviter, rfl⟩ := Option.map_eq_some_iff.mp address
    unfold feedPin at begins
    split at begins
    · cases begins
    · next accepts =>
      obtain ⟨state, direction, -⟩ := (oobRefusal_eq_none _ _ _).mp accepts
      exact ⟨⟨i, inviter, by simpa using present⟩, state, direction⟩

theorem begins_refused (refused : ¬ s.TakesPin) (pin : String) :
    ∃ e, s.beginCompletion pin = (s, .error e) := by
  have none (addr : String) : (s.beginCompletion pin).2 ≠ .ok addr :=
    fun begins => refused (takesPin_of_begins begins)
  unfold beginCompletion at none ⊢
  split
  · exact ⟨_, rfl⟩
  · next known =>
    rw [known] at none
    unfold feedPin at none ⊢
    split
    · exact ⟨_, rfl⟩
    · next accepts =>
      rw [accepts] at none
      exact absurd rfl (none _)

/-! ### The exchange with an honest inviter -/

theorem onCompletion_eq {p : Peer c} {msg : Bytes} {out : Outcome}
    (received : s.peer.receive draws msg = (p, some out)) :
    s.onCompletion draws msg = ({ s with peer := p }, some (.fromOutcome out)) := by
  simp only [onCompletion, received, Option.map_some]

theorem completeWith_continues {v u : Server c} {p : Peer c} {msg next : Bytes} {w : Wire}
    {reply : Outcome} (fuel : Nat)
    (received : s.peer.receive draws msg = (p, some (sendWire c w)))
    (answered : v.receive draws (c.encodeWire w) = (u, some reply))
    (sends : reply.send = some next) :
    completeWith draws (fuel + 1) v s msg = completeWith draws fuel u { s with peer := p } next := by
  rw [completeWith, onCompletion_eq received]
  simp only [Step.fromOutcome, sendWire, Bool.false_eq_true, if_false, Option.getD_some, answered,
    sends]

theorem completes (lawful : c.Lawful) {v : Server c} (honest : Honest v s.peer)
    (state : s.peer.state = .oobReceived) (held : s.peer.m.noob ≠ []) (draws : Draws c) :
    ∃ step, completeWith draws 4 v s v.start =
        some ({ s with peer := s.peer.derived.registered }, step) ∧ step.success = true := by
  obtain ⟨waiting, noob, concordant⟩ := honest
  have told : s.peer.discoveryResponse.peerState = some 2 := by
    rw [Peer.discoveryResponse, state]
    rfl
  have resumes : (v.heard s.peer.discoveryResponse).ResumesCompletion := by
    refine .inr ⟨?_, .inl ?_⟩
    · rw [Server.heard, told]
      rfl
    · change v.state.code = 1
      rw [waiting]
      rfl
  -- Discovery changes nothing that the two have in common.
  have heard : Concordant (v.heard s.peer.discoveryResponse) s.peer :=
    ⟨concordant.peerId, concordant.noobId, concordant.keys, concordant.inp⟩
  have first : s.peer.receive draws v.start = _ :=
    Peer.receive_discovery lawful (decode_discoveryRequest lawful) rfl rfl rfl
  have asks : v.receive draws _ = _ :=
    Server.receive_resumes lawful (s.peer.decode_discoveryResponse lawful) rfl rfl resumes noob told
  have answers : s.peer.receive draws _ = _ :=
    Peer.receive_noobId lawful
      ((v.heard s.peer.discoveryResponse).decode_noobIdRequest lawful) rfl rfl rfl held
  have verifies := heard.peer_verifies lawful draws held
  have success : s.peer.derived.receive draws (resultBytes c "success") = _ :=
    Peer.receive_success (lawful.wire _ (by simp [Wire.raws])) rfl
  have one := completeWith_continues 3 first asks rfl
  have two := completeWith_continues (s := s) 2 answers (heard.server_matches lawful draws) rfl
  have three := completeWith_continues (s := s) 1 verifies (heard.server_registers lawful draws) rfl
  let derived : JoinerSession c := { s with peer := s.peer.derived }
  have four : completeWith draws 1
      ((v.heard s.peer.discoveryResponse).derived.registered
        (v.heard s.peer.discoveryResponse).m.keys) derived (resultBytes c "success") =
      some ({ s with peer := s.peer.derived.registered },
        .fromOutcome { done := true, success := true }) := by
    rw [completeWith, onCompletion_eq (s := derived) success]
    rfl
  exact ⟨_, one.trans (two.trans (three.trans four)), rfl⟩

theorem completable_iff (lawful : c.Lawful) : s.Completable ↔ s.TakesPin := by
  constructor
  · intro completable
    obtain ⟨⟨addr, begins⟩, -⟩ := completable "000000" (by decide)
    exact takesPin_of_begins begins
  · intro takes pin _
    obtain ⟨addr, begins⟩ := takes.begins pin
    obtain ⟨i, inviter, -⟩ := takes.address
    rw [begins]
    have long : (noobFromPin pin).bytes ≠ [] := by
      intro empty
      have length := (noobFromPin pin).length_eq
      rw [empty] at length
      cases length
    -- The Server that negotiated with this Peer and has set the same PIN.
    let v : Server c := { state := .waiting, m := (s.fed pin).peer.m }
    have honest : Honest v (s.fed pin).peer := ⟨rfl, long, rfl, rfl, rfl, rfl⟩
    refine ⟨⟨addr, rfl⟩, v, honest, fun draws => ?_⟩
    obtain ⟨step, ends, success⟩ := completes lawful honest rfl long draws
    refine ⟨4, _, step, ends, success, ?_⟩
    simp only [paired, fed, inviter, association, Peer.registered]
    exact ⟨_, rfl⟩

end JoinerSession

/-! ## The call -/

namespace JoinerSession

variable {s t : JoinerSession c} {r : Round c}

theorem round_inviter (s : JoinerSession c) (r : Round c) : (s.round r).1.inviter = s.inviter := by
  unfold round
  split <;> rfl

theorem reached_inviter (rounds : Nat → Round c) (s : JoinerSession c) (k : Nat) :
    (reached round rounds s k).inviter = s.inviter := by
  induction k with
  | zero => rfl
  | succ k ih => exact (round_inviter _ _).trans ih

theorem completionResponse_speaks (s : JoinerSession c) (draws : Draws c) (resp : PairingEnvelope)
    (e : String) : (s.completionResponse draws resp).2 ≠ some (.error e) := by
  intro stalls
  obtain ⟨step, stepped, stalled⟩ := Option.map_eq_some_iff.mp stalls
  obtain ⟨out, received, rfl⟩ := Option.map_eq_some_iff.mp stepped
  rcases s.peer.receive_speaks draws (resp.blob c) out received with done | ⟨w, rfl⟩
  · simp only [Step.fromOutcome, done, if_true] at stalled
    cases stalled
  · cases stalled

theorem success_associates {draws : Draws c} {resp : PairingEnvelope} {step : OpenPair.Step}
    (stepped : s.completionResponse draws resp = (t, some (.ok (.done step))))
    (success : step.success = true) : t.association ≠ none := by
  obtain ⟨rfl, answer⟩ := Prod.mk.inj stepped
  obtain ⟨heard, received, ended⟩ := Option.map_eq_some_iff.mp answer
  obtain ⟨out, answered, rfl⟩ := Option.map_eq_some_iff.mp received
  have succeeded : out.success = true := by
    split at ended
    · cases ended
      exact success
    · split at ended <;> cases ended
  rcases s.peer.receive_effect draws (resp.blob c) with malformed | ⟨wm, -, effect⟩
  · rw [malformed] at answered
    cases answered
    cases succeeded
  · change (s.peer.receive draws (resp.blob c)).1.assoc ≠ none
    rw [(effect.success answered succeeded).2]
    exact Option.some_ne_none _

end JoinerSession

/-- The rounds of `submit_pin` in its turns: the answer to a POST, and what the
session draws on it. -/
def roundsOf (ios : Nat → Io c) (k : Nat) : Round c :=
  ⟨(ios (2 * k + 3)).draws, (ios (2 * k + 2)).response⟩

namespace PairingNode

theorem setJoiner_setJoiner (n : PairingNode c T) (handle : CallId) (s t : JoinerSession c)
    (first held : Bool) : (n.setJoiner handle s first).setJoiner handle t held =
      n.setJoiner handle t held := by
  simp only [setJoiner, Function.update_idem]

theorem joiner_setJoiner (n : PairingNode c T) (handle : CallId) (s : JoinerSession c) :
    (n.setJoiner handle s false).joiner handle = some s :=
  joiner_free (Function.update_self _ _ _)

variable (sink : TrustSink T) (n : PairingNode c T) (id : CallId) (pin : String) (ios : Nat → Io c)

-- A `submit_pin` after so many turns, with nothing between them.
def submitTurn (turns : Nat) : Turn c T :=
  (pairing c sink).alone id (n.start (.submitPin id.inviteId pin)) ((List.range turns).map ios)

theorem submitTurn_succ (turns : Nat) : n.submitTurn sink id pin ios (turns + 1) =
    (n.submitTurn sink id pin ios turns).shared.advance sink id (ios turns)
      (n.submitTurn sink id pin ios turns).point := by
  rw [submitTurn, List.range_succ, List.map_append, Program.alone, List.foldl_append]
  rfl

section

variable {sink n id pin ios} {k a b : Nat} {m : PairingNode c T} {point : Point c} {next : Turn c T}

theorem submitTurn_next (shared : (n.submitTurn sink id pin ios k).shared = m)
    (here : (n.submitTurn sink id pin ios k).point = point)
    (advances : m.advance sink id (ios k) point = next) :
    n.submitTurn sink id pin ios (k + 1) = next := by
  rw [submitTurn_succ, shared, here, advances]

theorem submitTurn_ended (later : a ≤ b) (ended : (n.submitTurn sink id pin ios a).point.Ended) :
    (n.submitTurn sink id pin ios b).shared = (n.submitTurn sink id pin ios a).shared ∧
      (n.submitTurn sink id pin ios b).point = (n.submitTurn sink id pin ios a).point := by
  induction b, later using Nat.le_induction with
  | base => exact ⟨rfl, rfl⟩
  | succ b _ ih =>
    obtain ⟨shared, point⟩ := ih
    have effect := advance_turned sink (n.submitTurn sink id pin ios b).shared id (ios b)
      (n.submitTurn sink id pin ios b).point
    obtain ⟨sharedNext, pointNext, -⟩ := effect.of_ended (point ▸ ended)
    rw [submitTurn_succ]
    exact ⟨sharedNext.trans shared, pointNext.trans point⟩

theorem submitTurn_returned (first : (n.submitTurn sink id pin ios a).point = .returned)
    (second : (n.submitTurn sink id pin ios b).point.Ended) :
    (n.submitTurn sink id pin ios b).shared = (n.submitTurn sink id pin ios a).shared ∧
      (n.submitTurn sink id pin ios b).point = .returned := by
  have ended : (n.submitTurn sink id pin ios a).point.Ended := by
    rw [first]
    trivial
  rcases Nat.le_total a b with later | earlier
  · obtain ⟨shared, point⟩ := submitTurn_ended later ended
    exact ⟨shared, point.trans first⟩
  · obtain ⟨shared, point⟩ := submitTurn_ended earlier second
    exact ⟨shared.symm, point.symm.trans first⟩

/-! ### A round of the loop -/

section

variable {handle : CallId} {addr : String} {f s t : JoinerSession c}

/-- The call awaits the answer to a POST, with this session behind its handle. -/
structure Awaits (turn : Turn c T) (n : PairingNode c T) (addr : String) (handle : CallId)
    (s : JoinerSession c) : Prop where
  shared : turn.shared = n.setJoiner handle s false
  point : turn.point = .submitAwait addr handle

variable (awaits : Awaits (n.submitTurn sink id pin ios (2 * k + 2)) n addr handle s)
include awaits

theorem Awaits.fails {e : String} (response : (roundsOf ios k).response = .error e) :
    (n.submitTurn sink id pin ios (2 * k + 3)).shared = n.setJoiner handle s false ∧
      (n.submitTurn sink id pin ios (2 * k + 3)).point = .returned := by
  have failed : (ios (2 * k + 2)).response = .error e := response
  have returns : n.submitTurn sink id pin ios (2 * k + 3) =
      (n.setJoiner handle s false).returns (.submitted (.error e)) :=
    submitTurn_next awaits.shared awaits.point (by simp only [advance, failed])
  rw [returns]
  exact ⟨rfl, rfl⟩

theorem Awaits.hears {resp : PairingEnvelope} (response : (roundsOf ios k).response = .ok resp) :
    n.submitTurn sink id pin ios (2 * k + 4) =
      (n.setJoiner handle s false).submitSession id (roundsOf ios k).draws addr handle resp s := by
  have answered : (ios (2 * k + 2)).response = .ok resp := response
  have heard : n.submitTurn sink id pin ios (2 * k + 3) =
      (n.setJoiner handle s false).waits (.submitSession addr handle resp) :=
    submitTurn_next awaits.shared awaits.point (by simp only [advance, answered])
  refine submitTurn_next (congrArg Turn.shared heard) (congrArg Turn.point heard) ?_
  simp only [advance, withJoiner, waits, joiner_setJoiner]
  rfl

variable {resp : PairingEnvelope} (response : (roundsOf ios k).response = .ok resp)
include response

theorem Awaits.continues {msg : Bytes}
    (stepped : s.completionResponse (roundsOf ios k).draws resp = (t, some (.ok (.send msg)))) :
    Awaits (n.submitTurn sink id pin ios (2 * (k + 1) + 2)) n addr handle t := by
  have turn := awaits.hears response
  simp only [submitSession, stepped, setJoiner_setJoiner] at turn
  have here : n.submitTurn sink id pin ios (2 * (k + 1) + 2) = _ := turn
  rw [here]
  exact ⟨rfl, rfl⟩

theorem Awaits.panics
    (stepped : s.completionResponse (roundsOf ios k).draws resp = (t, none)) :
    (n.submitTurn sink id pin ios (2 * k + 4)).point = .panicked := by
  rw [awaits.hears response]
  simp only [submitSession, stepped]
  rfl

/-- A failure takes three more turns. -/
theorem Awaits.mirrors {step : OpenPair.Step} (failure : step.success = false)
    (stepped : s.completionResponse (roundsOf ios k).draws resp = (t, some (.ok (.done step)))) :
    (n.submitTurn sink id pin ios (2 * k + 7)).shared =
        ((n.setJoiner handle t false).forgetJoiner id.inviteId).forgetPending id.inviteId ∧
      (n.submitTurn sink id pin ios (2 * k + 7)).point = .returned := by
  have turn := awaits.hears response
  simp only [submitSession, stepped, failure, setJoiner_setJoiner, Bool.false_eq_true,
    if_false] at turn
  rw [submitTurn_succ, submitTurn_succ, submitTurn_succ, turn]
  exact ⟨rfl, rfl⟩

theorem Awaits.succeeds {step : OpenPair.Step} {i : PeerIdentity} (inviter : s.inviter = some i)
    (success : step.success = true)
    (stepped : s.completionResponse (roundsOf ios k).draws resp = (t, some (.ok (.done step)))) :
    ∃ trust, (n.submitTurn sink id pin ios (2 * k + 8)).shared =
        (({ n.setJoiner handle t false with trust := trust } : PairingNode c T).forgetJoiner
          id.inviteId).forgetPending id.inviteId ∧
      (n.submitTurn sink id pin ios (2 * k + 8)).point = .returned := by
  have turn := awaits.hears response
  simp only [submitSession, stepped, success, setJoiner_setJoiner, if_true] at turn
  obtain ⟨assoc, associated⟩ :=
    Option.ne_none_iff_exists'.mp (JoinerSession.success_associates stepped success)
  have after : t = (s.completionResponse (roundsOf ios k).draws resp).1 :=
    (congrArg Prod.fst stepped).symm
  have kept : t.inviter = some i := by
    rw [after]
    exact inviter
  have paired : t.paired = .ok (.of i assoc) := by
    simp only [JoinerSession.paired, kept, associated]
  have pins : n.submitTurn sink id pin ios (2 * k + 5) =
      (n.setJoiner handle t false).submitPaired sink addr t := by
    refine submitTurn_next (congrArg Turn.shared turn) (congrArg Turn.point turn) ?_
    simp only [advance, withJoiner, waits, joiner_setJoiner]
  simp only [submitPaired, paired] at pins
  refine ⟨sink.pinPeer n.trust (.of i assoc), ?_⟩
  rw [submitTurn_succ, submitTurn_succ, submitTurn_succ, pins]
  exact ⟨rfl, rfl⟩

end

/-! ### The call -/

variable {handle : CallId} {s : JoinerSession c}
  (entry : n.joiners.lookup id.inviteId = some handle)
  (session : n.joinerSessions handle = some ⟨s, false⟩) (valid : isValidPin pin = true)
include entry session valid

variable (sink ios) in
theorem submitTurn_feeds : n.submitTurn sink id pin ios 2 = n.submitFeed id pin handle s := by
  have start : n.submitTurn sink id pin ios 0 = n.waits (.submitLookup pin) := by
    change n.start (.submitPin id.inviteId pin) = _
    simp only [PairingNode.start, valid, Bool.true_eq_false, if_false]
  have looks : n.submitTurn sink id pin ios 1 = n.waits (.submitFeed pin handle) := by
    refine submitTurn_next (congrArg Turn.shared start) (congrArg Turn.point start) ?_
    simp only [advance, waits, submitLookup, entry]
  refine submitTurn_next (congrArg Turn.shared looks) (congrArg Turn.point looks) ?_
  simp only [advance, withJoiner, waits, joiner_free session]

variable (sink ios) in
theorem submitTurn_refused (refused : ¬ s.TakesPin) :
    (n.submitTurn sink id pin ios 2).shared = n.setJoiner handle s false ∧
      (n.submitTurn sink id pin ios 2).point = .returned := by
  obtain ⟨e, begins⟩ := JoinerSession.begins_refused refused pin
  rw [submitTurn_feeds sink ios entry session valid, submitFeed, begins]
  exact ⟨rfl, rfl⟩

variable (sink ios) in
theorem submitTurn_awaits (takes : s.TakesPin) : ∃ addr, ∀ k,
    (∀ j < k, Continues JoinerSession.round (roundsOf ios) (s.fed pin) j) →
      Awaits (n.submitTurn sink id pin ios (2 * k + 2)) n addr handle
        (reached JoinerSession.round (roundsOf ios) (s.fed pin) k) := by
  obtain ⟨addr, begins⟩ := takes.begins pin
  refine ⟨addr, fun k continues => ?_⟩
  -- By induction on the rounds, two turns each: a POST, and what is made of its answer.
  induction k with
  | zero =>
    have feeds := submitTurn_feeds sink ios entry session valid
    simp only [submitFeed, begins] at feeds
    rw [feeds]
    exact ⟨rfl, rfl⟩
  | succ k ih =>
    have awaits := ih fun j below => continues j (Nat.lt_succ_of_lt below)
    have goes := continues k (Nat.lt_succ_self k)
    rw [Continues] at goes
    have next : reached JoinerSession.round (roundsOf ios) (s.fed pin) (k + 1) =
      (JoinerSession.round (reached JoinerSession.round (roundsOf ios) (s.fed pin) k)
        (roundsOf ios k)).1 := rfl
    rw [next]
    generalize reached JoinerSession.round (roundsOf ios) (s.fed pin) k = u at awaits goes ⊢
    cases response : (roundsOf ios k).response with
    | error e =>
      simp only [JoinerSession.round, response] at goes
      cases goes
    | ok resp =>
      rcases stepped : u.completionResponse (roundsOf ios k).draws resp with
        ⟨t, _ | e | msg | step⟩
      · simp only [JoinerSession.round, response, stepped] at goes
        cases goes
      · simp only [JoinerSession.round, response, stepped] at goes
        cases goes
      · have after := awaits.continues response stepped
        simp only [JoinerSession.round, response, stepped]
        exact after
      · simp only [JoinerSession.round, response, stepped] at goes
        cases goes

theorem submitTurn_stops (takes : s.TakesPin) {turns : Nat}
    (returned : (n.submitTurn sink id pin ios turns).point = .returned) :
    ∃ k, ¬ Continues JoinerSession.round (roundsOf ios) (s.fed pin) k := by
  by_contra endless
  obtain ⟨addr, awaits⟩ := submitTurn_awaits sink ios entry session valid takes
  have waiting := (awaits turns fun j _ => not_not.mp fun stops => endless ⟨j, stops⟩).point
  have ended : (n.submitTurn sink id pin ios turns).point.Ended := by
    rw [returned]
    trivial
  have still := (submitTurn_ended (b := 2 * turns + 2) (by omega) ended).2
  rw [waiting, returned] at still
  cases still

/-- The call forgets its invite, or a POST has failed. -/
theorem submitTurn_settles (takes : s.TakesPin) {turns : Nat}
    (returned : (n.submitTurn sink id pin ios turns).point = .returned) :
    ((n.submitTurn sink id pin ios turns).shared.joiners.lookup id.inviteId = none ∧
        (n.submitTurn sink id pin ios turns).shared.pending.lookup id.inviteId = none) ∨
      ∃ k e, (∀ j < k, Continues JoinerSession.round (roundsOf ios) (s.fed pin) j) ∧
        (roundsOf ios k).response = .error e := by
  classical
  obtain ⟨addr, awaits⟩ := submitTurn_awaits sink ios entry session valid takes
  have stops := submitTurn_stops entry session valid takes returned
  -- The call has returned, so that there is a first round that does not go on.
  obtain ⟨k, first, least⟩ : ∃ k, ¬ Continues JoinerSession.round (roundsOf ios) (s.fed pin) k ∧
      ∀ j < k, Continues JoinerSession.round (roundsOf ios) (s.fed pin) j :=
    ⟨Nat.find stops, Nat.find_spec stops, fun j below => not_not.mp (Nat.find_min stops below)⟩
  have awaits := awaits k least
  have inviter := JoinerSession.reached_inviter (roundsOf ios) (s.fed pin) k
  obtain ⟨⟨i, known, -⟩, -, -⟩ := takes
  have known : (s.fed pin).inviter = some i := known
  rw [known] at inviter
  rw [Continues] at first
  generalize reached JoinerSession.round (roundsOf ios) (s.fed pin) k = u at awaits first inviter
  cases response : (roundsOf ios k).response with
  | error e => exact .inr ⟨k, e, least, response⟩
  | ok resp =>
    left
    rcases stepped : u.completionResponse (roundsOf ios k).draws resp with
      ⟨t, _ | e | msg | step⟩
    · -- A panic is no return.
      have panicked := awaits.panics response stepped
      have ended : (n.submitTurn sink id pin ios (2 * k + 4)).point.Ended := by
        rw [panicked]
        trivial
      rw [(submitTurn_returned returned ended).2] at panicked
      cases panicked
    · exact absurd (congrArg Prod.snd stepped) (u.completionResponse_speaks _ resp e)
    · exact absurd (by simp only [JoinerSession.round, response, stepped]) first
    · cases success : step.success with
      | false =>
        obtain ⟨shared, point⟩ := awaits.mirrors response success stepped
        rw [(submitTurn_returned point (by rw [returned]; trivial)).1, shared]
        exact ⟨AList.lookup_erase _ _, AList.lookup_erase _ _⟩
      | true =>
        obtain ⟨trust, shared, point⟩ := awaits.succeeds response inviter success stepped
        rw [(submitTurn_returned point (by rw [returned]; trivial)).1, shared]
        exact ⟨AList.lookup_erase _ _, AList.lookup_erase _ _⟩

theorem submitTurn_failed (takes : s.TakesPin) {k turns : Nat} {e : String}
    (continues : ∀ j < k, Continues JoinerSession.round (roundsOf ios) (s.fed pin) j)
    (response : (roundsOf ios k).response = .error e)
    (returned : (n.submitTurn sink id pin ios turns).point = .returned) :
    (n.submitTurn sink id pin ios turns).shared = n.setJoiner handle
      (reached JoinerSession.round (roundsOf ios) (s.fed pin) k) false := by
  obtain ⟨addr, awaits⟩ := submitTurn_awaits sink ios entry session valid takes
  obtain ⟨shared, point⟩ := (awaits k continues).fails response
  rw [(submitTurn_returned point (by rw [returned]; trivial)).1, shared]

end

end PairingNode

/-! ## What is left of the invite -/

/-- The invite is forgotten, or its session can be tried again. -/
def PairingNode.Retriable (n : PairingNode c T) (inviteId : String) (handle : CallId) : Prop :=
  (n.joiners.lookup inviteId = none ∧ n.pending.lookup inviteId = none) ∨
    (n.joiners.lookup inviteId = some handle ∧
      ∃ s, n.joinerSessions handle = some ⟨s, false⟩ ∧ s.Completable)

/-- The session takes a PIN, and takes one again whenever a POST fails. -/
structure JoinerSession.KeepsInvite (s : JoinerSession c) (pin : String)
    (rounds : Nat → Round c) : Prop where
  takes : s.TakesPin
  failures : ∀ k e, (∀ j < k, Drive.Continues round rounds (s.fed pin) j) →
    (rounds k).response = .error e → (reached round rounds (s.fed pin) k).TakesPin

theorem PairingNode.retriable_setJoiner (lawful : c.Lawful) {n : PairingNode c T} {inviteId : String}
    {handle : CallId} (entry : n.joiners.lookup inviteId = some handle) (s : JoinerSession c) :
    (n.setJoiner handle s false).Retriable inviteId handle ↔ s.TakesPin := by
  constructor
  · rintro (⟨absent, -⟩ | ⟨-, t, session, completable⟩)
    · exact absurd (entry.symm.trans absent) (Option.some_ne_none handle)
    · have same : (n.setJoiner handle s false).joinerSessions handle = some ⟨s, false⟩ :=
        Function.update_self _ _ _
      have equal := congrArg JoinerCell.session (Option.some.inj (same.symm.trans session))
      rw [show s = t from equal]
      exact (JoinerSession.completable_iff lawful).mp completable
  · exact fun takes => .inr ⟨entry, s, Function.update_self _ _ _,
      (JoinerSession.completable_iff lawful).mpr takes⟩

-- A `submit_pin` that runs alone, for so many turns.
def submitEvents (inviteId : String) (serial : Nat) (pin : String) (ios : Nat → Io c)
    (turns : Nat) : List (NodeEvent c) :=
  .call serial (.submitPin inviteId pin) ::
    ((List.range turns).map ios).map (.resume ⟨inviteId, serial⟩)

theorem run_submit {w : World c T} {inviteId : String} {serial : Nat}
    (new : w.tasks ⟨inviteId, serial⟩ = none) (sink : TrustSink T) (pin : String)
    (ios : Nat → Io c) (turns : Nat) :
    run (nodeStep c sink) w (submitEvents inviteId serial pin ios turns) =
      w.put ⟨inviteId, serial⟩ (.submitPin inviteId pin)
        (w.shared.submitTurn sink ⟨inviteId, serial⟩ pin ios turns) :=
  run_solo (p := pairing c sink) new _

theorem submit_returns {w : World c T} {inviteId : String} {serial : Nat}
    (new : w.tasks ⟨inviteId, serial⟩ = none) {sink : TrustSink T} {pin : String}
    {ios : Nat → Io c} {turns : Nat}
    (returned : (w.shared.submitTurn sink ⟨inviteId, serial⟩ pin ios turns).point = .returned) :
    ∃ call, (run (nodeStep c sink) w (submitEvents inviteId serial pin ios turns)).tasks
      ⟨inviteId, serial⟩ = some ⟨call, .returned⟩ := by
  rw [run_submit new, put_self, returned]
  exact ⟨_, rfl⟩

namespace Reference

def refusedIo (_ : Nat) : Io crates := ⟨draws .peer, .error "connection refused", rightPin⟩

def silentIo (_ : Nat) : Io crates :=
  ⟨draws .peer, .ok (.withMsg crates "invite" Phase.completion []), rightPin⟩

def shownNode : World crates (List Paired) :=
  run (nodeStep crates keeping) joinerNode (endpoints.joinEvents "invite" joinerIo)

theorem shown_answers :
    World.Answers shownNode ⟨"invite", 0⟩ (endpoints.joining endpoints.peerWaiting) 3 :=
  ((invitable "invite" (by decide)).joins lawful rfl).1

theorem shown_takes : (endpoints.joining endpoints.peerWaiting).TakesPin :=
  ⟨⟨_, rfl, by decide⟩, rfl, .inl rfl⟩

end Reference

/-- After a `submit_pin` for an invite at Waiting, the invite is forgotten or can
be tried again exactly when the session takes its PIN, and takes one again
whenever a POST fails. -/
theorem submit_pin_retriable_iff (lawful : c.Lawful) (sink : TrustSink T) (w : World c T)
    {inviteId pin : String} {serial turns : Nat} {handle : CallId} {s : JoinerSession c}
    (new : w.tasks ⟨inviteId, serial⟩ = none)
    (entry : w.shared.joiners.lookup inviteId = some handle)
    (session : w.shared.joinerSessions handle = some ⟨s, false⟩) (valid : isValidPin pin = true)
    (ios : Nat → Io c)
    (returned : ∃ call, (run (nodeStep c sink) w
      (submitEvents inviteId serial pin ios turns)).tasks ⟨inviteId, serial⟩ =
        some ⟨call, .returned⟩) :
    (run (nodeStep c sink) w
        (submitEvents inviteId serial pin ios turns)).shared.Retriable inviteId handle ↔
      s.KeepsInvite pin (roundsOf ios) := by
  obtain ⟨call, returned⟩ := returned
  rw [run_submit new] at returned ⊢
  let id : CallId := ⟨inviteId, serial⟩
  have point : (w.shared.submitTurn sink id pin ios turns).point = .returned :=
    congrArg Task.point (Option.some.inj ((put_self _ _ _).symm.trans returned))
  have entry : w.shared.joiners.lookup id.inviteId = some handle := entry
  rw [put_shared]
  -- A session that takes no PIN is left as it is, and is asked again in vain.
  by_cases takes : s.TakesPin
  · constructor
    · intro retriable
      refine ⟨takes, fun k e continues response => ?_⟩
      rw [PairingNode.submitTurn_failed entry session valid takes continues response point]
        at retriable
      exact (PairingNode.retriable_setJoiner lawful entry _).mp retriable
    · intro keeps
      rcases PairingNode.submitTurn_settles entry session valid takes point with gone |
        ⟨k, e, continues, response⟩
      · exact .inl gone
      · rw [PairingNode.submitTurn_failed entry session valid takes continues response point]
        exact (PairingNode.retriable_setJoiner lawful entry _).mpr
          (keeps.failures k e continues response)
  · obtain ⟨shared, refused⟩ :=
      PairingNode.submitTurn_refused sink ios entry session valid takes
    rw [(PairingNode.submitTurn_returned refused (by rw [point]; trivial)).1, shared]
    exact (PairingNode.retriable_setJoiner lawful entry s).trans
      ⟨fun wrong => absurd wrong takes, fun keeps => absurd keeps.takes takes⟩

/-- A `submit_pin` whose first POST fails leaves an invite that takes no other PIN. -/
theorem refused_connection_strands_invite :
    (∃ call, (run (nodeStep Reference.crates Reference.keeping) Reference.shownNode
        (submitEvents "invite" 3 "123456" Reference.refusedIo 3)).tasks ⟨"invite", 3⟩ =
          some ⟨call, .returned⟩) ∧
      ¬ (run (nodeStep Reference.crates Reference.keeping) Reference.shownNode
        (submitEvents "invite" 3 "123456" Reference.refusedIo 3)).shared.Retriable "invite"
          ⟨"invite", 0⟩ := by
  have answers := Reference.shown_answers
  have valid : isValidPin "123456" = true := by decide
  let id : CallId := ⟨"invite", 3⟩
  have entry : Reference.shownNode.shared.joiners.lookup id.inviteId = some ⟨"invite", 0⟩ :=
    answers.entry
  obtain ⟨addr, awaits⟩ := PairingNode.submitTurn_awaits Reference.keeping
    Reference.refusedIo entry answers.session valid Reference.shown_takes
  obtain ⟨shared, point⟩ := (awaits 0 fun j below => absurd below (Nat.not_lt_zero j)).fails rfl
  have new := answers.free 3 le_rfl
  refine ⟨submit_returns new point, fun retriable => ?_⟩
  rw [run_submit new, put_shared] at retriable
  have taken := (PairingNode.retriable_setJoiner Reference.lawful entry _).mp (shared ▸ retriable)
  cases taken.state

/-- An invite whose inviter answers with nothing is forgotten. -/
theorem submit_pin_retriable_reference :
    (run (nodeStep Reference.crates Reference.keeping) Reference.shownNode
      (submitEvents "invite" 3 "123456" Reference.silentIo 7)).shared.Retriable "invite"
        ⟨"invite", 0⟩ := by
  have answers := Reference.shown_answers
  have valid : isValidPin "123456" = true := by decide
  let id : CallId := ⟨"invite", 3⟩
  have entry : Reference.shownNode.shared.joiners.lookup id.inviteId = some ⟨"invite", 0⟩ :=
    answers.entry
  obtain ⟨addr, awaits⟩ := PairingNode.submitTurn_awaits Reference.keeping
    Reference.silentIo entry answers.session valid Reference.shown_takes
  have stepped : ((Reference.endpoints.joining Reference.endpoints.peerWaiting).fed
      "123456").completionResponse (Reference.draws .peer)
        (.withMsg Reference.crates "invite" Phase.completion []) =
      ((Reference.endpoints.joining Reference.endpoints.peerWaiting).fed "123456",
        some (.ok (.done (.fromOutcome (fail Reference.crates "malformed JSON"))))) := by
    simp only [JoinerSession.completionResponse, PairingEnvelope.blob_withMsg Reference.lawful,
      JoinerSession.onCompletion_eq (Peer.receive_malformed Reference.lawful.wire_empty)]
    rfl
  have returned := ((awaits 0 fun j below => absurd below (Nat.not_lt_zero j)).mirrors rfl rfl stepped).2
  have new := answers.free 3 le_rfl
  refine (submit_pin_retriable_iff Reference.lawful Reference.keeping Reference.shownNode new
    answers.entry answers.session valid Reference.silentIo (submit_returns new returned)).mpr ?_
  refine ⟨Reference.shown_takes, fun k e _ wrong => ?_⟩
  cases wrong

end OpenPair
