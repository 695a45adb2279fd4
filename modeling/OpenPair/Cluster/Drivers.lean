import OpenPair.Cluster.Handshake
import OpenPair.Cluster.Requests
import OpenPair.Library.Drive
import OpenPair.Pairing.MessageOrder

/-! Whether the loops of `create_invite` and `submit_pin` end.

A loop goes on as long as the other side sends messages that its machine
answers; the order in which it does so is left to the other side.
-/

set_option autoImplicit false

namespace OpenPair

open Drive

variable {c : Crates}

/-! ## What the machines answer with a message -/

/-- An outcome that sends a message and does not end the exchange. -/
def Proceeds (out : Option Outcome) : Prop :=
  ∃ o, out = some o ∧ o.error = none ∧ o.done = false ∧ o.send.isSome = true

@[simp] theorem proceeds_none : ¬ Proceeds none := fun ⟨_, wrong, _⟩ => by cases wrong

@[simp] theorem proceeds_some (o : Outcome) :
    Proceeds (some o) ↔ o.error = none ∧ o.done = false ∧ o.send.isSome = true := by
  simp [Proceeds]

@[simp] theorem failCode_done (code : Int64) (info : String) : (failCode c code info).done = true :=
  rfl

@[simp] theorem fail_done (info : String) : (fail c info).done = true := rfl

@[simp] theorem sendWire_done (w : Wire) : (sendWire c w).done = false := rfl

@[simp] theorem sendWire_send (w : Wire) : (sendWire c w).send = some (c.encodeWire w) := rfl

theorem proceeds_sendWire (w : Wire) : Proceeds (some (sendWire c w)) := by
  simp [sendWire]

theorem proceeds_built (built : Option Wire) :
    Proceeds (built.map (sendWire c)) ↔ built.isSome = true := by
  cases built <;> simp

theorem Proceeds.silent {out : Option Outcome} (proceeds : Proceeds out) : Silent out := by
  obtain ⟨o, rfl, silent, -⟩ := proceeds
  exact (silent_some o).mpr silent

namespace Server

variable {s : Server c} {draws : Draws c} {bytes : Bytes} {wm : Wire}

theorem startCompletion_proceeds (silent : Silent s.startCompletion.2) :
    Proceeds s.startCompletion.2 := by
  unfold startCompletion at silent ⊢
  split at silent
  · simp at silent
  · next some =>
    rw [if_neg some]
    split at silent
    · next two =>
      rw [if_pos two]
      exact (proceeds_built _).mpr ((silent_sendWire _).mp silent)
    · next two =>
      rw [if_neg two]
      exact (proceeds_built _).mpr ((silent_sendWire _).mp silent)

theorem onDiscovery_proceeds (silent : Silent (s.onDiscovery draws wm).2) :
    Proceeds (s.onDiscovery draws wm).2 := by
  unfold onDiscovery at silent ⊢
  dsimp only at silent ⊢
  split at silent
  · next resumes =>
    rw [if_pos resumes]
    exact startCompletion_proceeds silent
  · next completes =>
    rw [if_neg completes]
    split at silent
    · next waits =>
      rw [if_pos waits]
      exact (proceeds_built _).mpr ((silent_sendWire _).mp silent)
    · next waits =>
      rw [if_neg waits]
      split at silent
      · next restarts =>
        rw [if_pos restarts]
        exact (proceeds_built _).mpr ((silent_sendWire _).mp silent)
      · simp at silent

theorem proceeds_iff (lawful : c.Lawful) : Proceeds (s.receive draws bytes).2 ↔
    ∃ wm, c.decodeWire bytes = some wm ∧ s.Accepts wm ∧
      (wm.type = some 1 ∨ wm.type = some 2 ∨ wm.type = some 5) := by
  constructor
  · intro proceeds
    cases decoded : c.decodeWire bytes with
    | none => simp [receive, decoded] at proceeds
    | some wm =>
      refine ⟨wm, rfl, ?_⟩
      by_cases listed : ∃ k, wm.type = some k ∧ k ∈ exchangeTypes
      · obtain ⟨k, type, listed⟩ := listed
        have accepts := (answered_iff lawful decoded type listed).mp proceeds.silent
        refine ⟨accepts, ?_⟩
        obtain ⟨notice, ⟨one, -⟩ | ⟨two, -⟩ | ⟨three, keypair, z, np, exchanges⟩ | ⟨five, -⟩ |
          ⟨six, keym, verifies⟩⟩ := accepts
        · exact .inl one
        · exact .inr (.inl two)
        · -- A Type 3 or 6 that is accepted ends the exchange.
          rw [receive_exchanges decoded notice three exchanges] at proceeds
          simp at proceeds
        · exact .inr (.inr five)
        · rw [receive_verifies decoded notice six verifies] at proceeds
          simp at proceeds
      · have other {k : Int64} (member : k ∈ exchangeTypes) : wm.type ≠ some k :=
          fun type => listed ⟨k, type, member⟩
        rw [receive_eq decoded] at proceeds
        unfold dispatch at proceeds
        cases notice : wm.errorCode with
        | some code => simp [notice, peerError] at proceeds
        | none =>
          simp only [notice, other (k := 1) (by decide), other (k := 2) (by decide),
            other (k := 3) (by decide), other (k := 5) (by decide), other (k := 6) (by decide),
            ↓reduceIte] at proceeds
          split at proceeds
          · simp [doneFailure] at proceeds
          · simp at proceeds
  · rintro ⟨wm, decoded, accepts, type⟩
    have silent {k : Int64} (type : wm.type = some k) (listed : k ∈ exchangeTypes) :
        Silent (s.receive draws bytes).2 :=
      (answered_iff lawful decoded type listed).mpr accepts
    obtain ⟨notice, accepts⟩ := accepts
    rcases type with one | two | five
    · have called : s.receive draws bytes = s.onDiscovery draws wm := by
        rw [receive_eq decoded]
        simp [dispatch, notice, one]
      have silent := silent one (by decide)
      rw [called] at silent ⊢
      exact onDiscovery_proceeds silent
    · simp only [two] at accepts
      obtain ⟨csp, dirp, suite, negotiates, known⟩ : ∃ csp dirp suite, s.Negotiates wm csp dirp ∧
          Suite.fromId (asU8 csp) = some suite := by
        simpa using accepts
      rw [receive_negotiates lawful decoded notice two negotiates known]
      exact proceeds_sendWire _
    · simp only [five] at accepts
      obtain ⟨same, matched⟩ : s.checkPeerId wm = .ok () ∧ s.MatchesNoobId wm := by
        simpa using accepts
      rw [receive_matches lawful decoded notice five same matched]
      exact proceeds_sendWire _

end Server

namespace Peer

variable {p : Peer c} {draws : Draws c} {bytes : Bytes} {wm : Wire}

def Accepts (p : Peer c) (draws : Draws c) (wm : Wire) : Prop :=
  wm.eap = none ∧ wm.errorCode = none ∧
    (wm.type = some 1 ∨
      (wm.type = some 2 ∧ (∃ peerId verp csp dirp, p.Negotiates wm peerId verp csp dirp) ∧
        (raw c p.peerInfo).isSome = true) ∨
      (wm.type = some 3 ∧ ∃ suite z ns, p.Exchanges draws wm suite z ns) ∨
      wm.type = some 4 ∨
      (wm.type = some 5 ∧ p.m.noob ≠ []) ∨
      (wm.type = some 6 ∧ p.Verifies wm))

variable (c) in
/-- What does not end the exchange is a message. -/
def Speaks (out : Option Outcome) : Prop :=
  ∀ o, out = some o → o.done = true ∨ ∃ w, o = sendWire c w

@[simp] theorem speaks_none : Speaks c none := fun _ wrong => by cases wrong

theorem speaks_done {o : Outcome} (done : o.done = true) : Speaks c (some o) := by
  rintro _ ⟨⟩
  exact .inl done

@[simp] theorem speaks_fail (info : String) : Speaks c (some (fail c info)) := speaks_done rfl

@[simp] theorem speaks_failCode (code : Int64) (info : String) :
    Speaks c (some (failCode c code info)) := speaks_done rfl

@[simp] theorem speaks_sendWire (w : Wire) : Speaks c (some (sendWire c w)) := by
  rintro _ ⟨⟩
  exact .inr ⟨w, rfl⟩

@[simp] theorem speaks_built (built : Option Wire) : Speaks c (built.map (sendWire c)) := by
  cases built <;> simp

theorem onNegotiation_speaks : Speaks c (p.onNegotiation wm).2 := by
  unfold onNegotiation
  split
  · simp
  split
  · simp
  split
  · simp
  split
  · simp
  · exact speaks_built _

theorem onKeyExchange_speaks : Speaks c (p.onKeyExchange draws wm).2 := by
  unfold onKeyExchange
  split
  · simp
  split
  · simp
  split
  · simp
  split
  · simp
  dsimp only
  split <;> simp

theorem onCompletion_speaks : Speaks c (p.onCompletion wm).2 := by
  unfold onCompletion
  split
  · simp
  split
  · simp
  dsimp only
  split
  · simp
  · exact speaks_built _

theorem receive_speaks (p : Peer c) (draws : Draws c) (bytes : Bytes) :
    Speaks c (p.receive draws bytes).2 := by
  unfold receive dispatch
  split
  · simp
  split
  · unfold onResult
    split <;> exact speaks_done rfl
  split
  · exact speaks_done rfl
  split
  · exact speaks_built _
  split
  · exact onNegotiation_speaks
  split
  · exact onKeyExchange_speaks
  split
  · exact speaks_built _
  split
  · unfold onNoobId
    split
    · simp
    · exact speaks_built _
  split
  · exact onCompletion_speaks
  · simp

theorem onNegotiation_proceeds (lawful : c.Lawful) : Proceeds (p.onNegotiation wm).2 ↔
    (∃ peerId verp csp dirp, p.Negotiates wm peerId verp csp dirp) ∧
      (raw c p.peerInfo).isSome = true := by
  constructor
  · intro proceeds
    unfold onNegotiation at proceeds
    split at proceeds
    · simp at proceeds
    · next peerId named =>
      split at proceeds
      · simp at proceeds
      · next verp version =>
        split at proceeds
        · simp at proceeds
        · next csp suite =>
          split at proceeds
          · simp at proceeds
          · next dirp direction =>
            refine ⟨⟨peerId, verp, csp, dirp, named, version, suite, direction⟩, ?_⟩
            simp only [proceeds_built, lawful.raw_jstr, lawful.raw_int] at proceeds
            cases text : raw c p.peerInfo with
            | none => simp [text] at proceeds
            | some t => rfl
  · rintro ⟨⟨peerId, verp, csp, dirp, named, version, suite, direction⟩, text⟩
    obtain ⟨t, text⟩ := Option.isSome_iff_exists.mp text
    simp only [onNegotiation, named, version, suite, direction, lawful.raw_jstr, lawful.raw_int,
      text]
    exact proceeds_sendWire _

theorem onKeyExchange_proceeds (lawful : c.Lawful) : Proceeds (p.onKeyExchange draws wm).2 ↔
    ∃ suite z ns, p.Exchanges draws wm suite z ns := by
  constructor
  · intro proceeds
    unfold onKeyExchange at proceeds
    split at proceeds
    · simp at proceeds
    · next jwk key =>
      split at proceeds
      · simp at proceeds
      · next ns nonce =>
        split at proceeds
        · simp at proceeds
        · next suite chosen =>
          split at proceeds
          · simp at proceeds
          · next z agreed =>
            exact ⟨suite, z, ns, chosen, nonce, by rw [key, Option.bind_some, agreed]⟩
  · rintro ⟨suite, z, ns, chosen, nonce, agreed⟩
    obtain ⟨jwk, key, agreed⟩ := Option.bind_eq_some_iff.mp agreed
    simp only [onKeyExchange, key, nonce, chosen, agreed, exchanged, lawful.raw_jstr,
      lawful.raw_jwk]
    exact proceeds_sendWire _

theorem onNoobId_proceeds (lawful : c.Lawful) : Proceeds p.onNoobId.2 ↔ p.m.noob ≠ [] := by
  unfold onNoobId
  split
  · next empty => simpa using List.isEmpty_iff.mp empty
  · next some =>
    refine iff_of_true ?_ (by simpa using some)
    simp only [lawful.raw_jstr]
    exact proceeds_sendWire _

theorem proceeds_iff (lawful : c.Lawful) : Proceeds (p.receive draws bytes).2 ↔
    ∃ wm, c.decodeWire bytes = some wm ∧ p.Accepts draws wm := by
  cases decoded : c.decodeWire bytes with
  | none => simp [receive, decoded]
  | some wm =>
    have only : (∃ w, some wm = some w ∧ p.Accepts draws w) ↔ p.Accepts draws wm := by simp
    rw [only, Accepts]
    cases result : wm.eap with
    | some eap =>
      simp only [receive_eq decoded, dispatch, result, onResult]
      split <;> simp
    | none =>
      cases notice : wm.errorCode with
      | some code => simp [receive_eq decoded, dispatch, result, notice, peerError]
      | none =>
        by_cases six : wm.type = some 6
        · have verified : Proceeds (p.receive draws bytes).2 ↔ p.Verifies wm := by
            constructor
            · exact fun proceeds =>
                (completion_silent lawful decoded result notice six).mp proceeds.silent
            · intro verifies
              rw [receive_verifies lawful decoded result notice six verifies]
              exact proceeds_sendWire _
          simpa [six] using verified
        rw [receive_eq decoded, dispatch]
        by_cases one : wm.type = some 1
        · simp [result, notice, one, onDiscovery_eq lawful]
        by_cases two : wm.type = some 2
        · simpa [result, notice, two] using onNegotiation_proceeds lawful
        by_cases three : wm.type = some 3
        · simpa [result, notice, three] using onKeyExchange_proceeds lawful
        by_cases four : wm.type = some 4
        · simp [result, notice, four, onWaiting, lawful.raw_jstr]
        by_cases five : wm.type = some 5
        · simpa [result, notice, five] using onNoobId_proceeds lawful
        simp [result, notice, one, two, three, four, five, six]

end Peer

/-! ## The rounds of the two loops -/

variable (c) in
/-- What a loop gets in a round: its draws, and what `post_pairing` returns. -/
structure Round where
  draws : Draws c
  response : Except String PairingEnvelope

inductive Ending (α : Type) where
  | panicked
  | failed (error : String)
  | done (value : α)

def Round.type (r : Round c) : Option Int64 :=
  match r.response with
  | .error _ => none
  | .ok resp => (c.decodeWire (resp.blob c)).bind Wire.type

def InSequence (first second : Round c) : Prop :=
  ∃ j k, first.type = some j ∧ second.type = some k ∧ Follows j k

def rank (type : Option Int64) : Nat :=
  if type = some 1 then 2 else if type = some 2 ∨ type = some 5 then 1 else 0

theorem rank_le (type : Option Int64) : rank type ≤ 2 := by
  unfold rank
  split
  · omega
  · split <;> omega

theorem InSequence.rank_lt {first second : Round c} (ordered : InSequence first second) :
    rank second.type < rank first.type := by
  obtain ⟨j, k, one, two, follows⟩ := ordered
  rw [one, two]
  simp only [Follows, List.mem_cons, Prod.mk.injEq, List.not_mem_nil, or_false] at follows
  rcases follows with ⟨rfl, rfl⟩ | ⟨rfl, rfl⟩ | ⟨rfl, rfl⟩ | ⟨rfl, rfl⟩ | ⟨rfl, rfl⟩ <;> decide

namespace InviterSession

-- A round of the loop of `create_invite`.
def round (s : InviterSession c) (r : Round c) : InviterSession c × Option (Ending Unit) :=
  match r.response with
  | .error e => (s, some (.failed e))
  | .ok resp =>
    let heard := s.initialResponse r.draws resp
    (heard.1,
      match heard.2 with
      | none => some .panicked
      | some (.error e) => some (.failed e)
      | some (.ok none) => some (.done ())
      | some (.ok (some _)) => none)

/-- A response that carries a Type 1, 2 or 5 the Server accepts. -/
def Continues (s : InviterSession c) (r : Round c) : Prop :=
  ∃ resp wm, r.response = .ok resp ∧ resp.rejected = false ∧
    c.decodeWire (resp.blob c) = some wm ∧ s.server.Accepts wm ∧
    (wm.type = some 1 ∨ wm.type = some 2 ∨ wm.type = some 5)

theorem round_server {s : InviterSession c} {r : Round c} {resp : PairingEnvelope}
    (response : r.response = .ok resp) (accepted : resp.rejected = false) :
    (s.round r).1.server = (s.server.receive r.draws (resp.blob c)).1 := by
  simp only [round, response, initialResponse, accepted, Bool.false_eq_true, if_false]
  rfl

theorem initialResponse_proceeds (s : InviterSession c) (draws : Draws c)
    (resp : PairingEnvelope) :
    (∃ msg, (s.initialResponse draws resp).2 = some (.ok (some msg))) ↔
      resp.rejected = false ∧ Proceeds (s.server.receive draws (resp.blob c)).2 := by
  unfold initialResponse onInitial
  cases resp.rejected with
  | true => simp
  | false =>
    cases answered : (s.server.receive draws (resp.blob c)).2 with
    | none => simp [answered]
    | some out =>
      simp only [answered, Bool.false_eq_true, if_false, Option.map_some, Step.fromOutcome,
        proceeds_some, true_and]
      cases out.error <;> cases out.done <;> cases out.send <;> simp

theorem round_eq_none_iff (lawful : c.Lawful) (s : InviterSession c) (r : Round c) :
    (s.round r).2 = none ↔ s.Continues r := by
  unfold round Continues
  cases response : r.response with
  | error e => simp
  | ok resp =>
    have goes := s.initialResponse_proceeds r.draws resp
    rw [Server.proceeds_iff lawful] at goes
    constructor
    · intro none
      have sent : ∃ msg, (s.initialResponse r.draws resp).2 = some (.ok (some msg)) := by
        dsimp only at none
        split at none
        · cases none
        · cases none
        · cases none
        · next msg same => exact ⟨msg, same⟩
      obtain ⟨refused, wm, decoded, accepts, type⟩ := goes.mp sent
      exact ⟨resp, wm, rfl, refused, decoded, accepts, type⟩
    · rintro ⟨_, wm, same, refused, decoded, accepts, type⟩
      cases same
      obtain ⟨msg, sent⟩ := goes.mpr ⟨refused, wm, decoded, accepts, type⟩
      simp only [sent]

end InviterSession

namespace JoinerSession

-- A round of the loop of `submit_pin`.
def round (s : JoinerSession c) (r : Round c) : JoinerSession c × Option (Ending OpenPair.Step) :=
  match r.response with
  | .error e => (s, some (.failed e))
  | .ok resp =>
    let heard := s.completionResponse r.draws resp
    (heard.1,
      match heard.2 with
      | none => some .panicked
      | some (.error e) => some (.failed e)
      | some (.ok (.done step)) => some (.done step)
      | some (.ok (.send _)) => none)

/-- A response that carries a request the Peer answers with a message. -/
def Continues (s : JoinerSession c) (r : Round c) : Prop :=
  ∃ resp wm, r.response = .ok resp ∧ c.decodeWire (resp.blob c) = some wm ∧
    s.peer.Accepts r.draws wm

theorem completionResponse_proceeds (s : JoinerSession c) (draws : Draws c)
    (resp : PairingEnvelope) :
    (∃ msg, (s.completionResponse draws resp).2 = some (.ok (.send msg))) ↔
      Proceeds (s.peer.receive draws (resp.blob c)).2 := by
  have speaks := s.peer.receive_speaks draws (resp.blob c)
  unfold completionResponse onCompletion
  cases answered : (s.peer.receive draws (resp.blob c)).2 with
  | none => simp [answered]
  | some out =>
    simp only [answered, Option.map_some, Step.fromOutcome, proceeds_some]
    -- `submit_pin` looks at `done` and `send` only; an error is always done.
    have silent : out.done = false → out.error = none := by
      intro more
      rcases speaks out answered with done | ⟨w, rfl⟩
      · rw [done] at more
        cases more
      · rfl
    cases done : out.done with
    | true => simp
    | false =>
      have silent := silent done
      cases out.send <;> simp [silent]

theorem round_eq_none_iff (lawful : c.Lawful) (s : JoinerSession c) (r : Round c) :
    (s.round r).2 = none ↔ s.Continues r := by
  unfold round Continues
  cases response : r.response with
  | error e => simp
  | ok resp =>
    have goes := s.completionResponse_proceeds r.draws resp
    rw [Peer.proceeds_iff lawful] at goes
    constructor
    · intro none
      have sent : ∃ msg, (s.completionResponse r.draws resp).2 = some (.ok (.send msg)) := by
        dsimp only at none
        split at none
        · cases none
        · cases none
        · cases none
        · next msg same => exact ⟨msg, same⟩
      obtain ⟨wm, decoded, accepts⟩ := goes.mp sent
      exact ⟨resp, wm, rfl, decoded, accepts⟩
    · rintro ⟨_, wm, same, decoded, accepts⟩
      cases same
      obtain ⟨msg, sent⟩ := goes.mpr ⟨wm, decoded, accepts⟩
      simp only [sent]

end JoinerSession

/-! ## The result -/

/-- Successive messages that a loop goes on with follow the sequence. -/
def Orderly (rounds : Nat → Round c) (continues : Nat → Prop) : Prop :=
  ∀ k, continues k → continues (k + 1) → InSequence (rounds k) (rounds (k + 1))

/-- A loop ends within `n` rounds exactly when one of its first `n` responses is
no message it goes on with. With messages in sequence, `create_invite` ends
within three rounds and `submit_pin` within four. -/
theorem drivers_stop_iff (lawful : c.Lawful) :
    (∀ (s : InviterSession c) (rounds : Nat → Round c),
      (∀ n, (drive InviterSession.round rounds n 0 s).isSome = true ↔ ∃ k < n,
        ¬ (reached InviterSession.round rounds s k).Continues (rounds k)) ∧
      (Orderly rounds (fun k => (reached InviterSession.round rounds s k).Continues (rounds k)) →
        (drive InviterSession.round rounds 3 0 s).isSome = true)) ∧
    (∀ (s : JoinerSession c) (rounds : Nat → Round c),
      (∀ n, (drive JoinerSession.round rounds n 0 s).isSome = true ↔ ∃ k < n,
        ¬ (reached JoinerSession.round rounds s k).Continues (rounds k)) ∧
      (Orderly rounds (fun k => (reached JoinerSession.round rounds s k).Continues (rounds k)) →
        (drive JoinerSession.round rounds 4 0 s).isSome = true)) := by
  constructor
  · intro s rounds
    have continues (k : Nat) : Drive.Continues InviterSession.round rounds s k ↔
        (reached InviterSession.round rounds s k).Continues (rounds k) :=
      InviterSession.round_eq_none_iff lawful _ _
    refine ⟨fun n => ?_, fun orderly => ?_⟩
    · simp only [drive_isSome_iff, continues]
    · -- Of the messages in sequence the last one, Type 3 or 6, ends the loop.
      have positive (k : Nat) (goes : Drive.Continues InviterSession.round rounds s k) :
          1 ≤ rank (rounds k).type := by
        obtain ⟨resp, wm, response, -, decoded, -, type⟩ := (continues k).mp goes
        have same : (rounds k).type = wm.type := by
          rw [Round.type, response]
          simp [decoded]
        rw [same]
        rcases type with one | two | five <;> simp [rank, *]
      refine drive_bounded (fun k => rank (rounds k).type - 1) ?_ ?_
      · intro goes
        have low := rank_le (rounds 0).type
        omega
      · intro k first second
        have lower := (orderly k ((continues k).mp first) ((continues (k + 1)).mp second)).rank_lt
        have left := positive (k + 1) second
        omega
  · intro s rounds
    have continues (k : Nat) : Drive.Continues JoinerSession.round rounds s k ↔
        (reached JoinerSession.round rounds s k).Continues (rounds k) :=
      JoinerSession.round_eq_none_iff lawful _ _
    refine ⟨fun n => ?_, fun orderly => ?_⟩
    · simp only [drive_isSome_iff, continues]
    · refine drive_bounded (fun k => rank (rounds k).type) (fun _ => rank_le _) ?_
      intro k first second
      exact (orderly k ((continues k).mp first) ((continues (k + 1)).mp second)).rank_lt

namespace Exchange

variable (x : Exchange c) (lawful : c.Lawful)

def respond (draws : Draws c) (w : Wire) : Round c :=
  ⟨draws, .ok (.withMsg c "invite" Phase.initial (c.encodeWire w))⟩

def initialRounds : Nat → Round c
  | 0 => respond x.naming x.peerFresh.discoveryResponse
  | 1 => respond x.serverDraws x.negotiationResponse
  | 2 => respond x.serverDraws x.peerKeyed.keyExchangeResponse
  | _ + 3 => ⟨x.serverDraws, .error "connection closed"⟩

include lawful

theorem type_respond {draws : Draws c} {w : Wire}
    (decoded : c.decodeWire (c.encodeWire w) = some w) : (respond draws w).type = w.type := by
  simp only [Round.type, respond, PairingEnvelope.blob_withMsg lawful, decoded, Option.bind_some]

theorem initialRounds_orderly (s : InviterSession c) : Orderly x.initialRounds
    (fun k => (reached InviterSession.round x.initialRounds s k).Continues (x.initialRounds k)) := by
  intro k first second
  have ended {t : InviterSession c} {e : String} (goes : t.Continues ⟨x.serverDraws, .error e⟩) :
      False := by
    obtain ⟨resp, wm, wrong, -⟩ := goes
    cases wrong
  rcases k with _ | _ | k
  · exact ⟨1, 2, type_respond lawful (x.decode_fresh lawful),
      type_respond lawful (x.decode_negotiation lawful), by simp [Follows]⟩
  · exact ⟨2, 3, type_respond lawful (x.decode_negotiation lawful),
      type_respond lawful (x.decode_peerKey lawful), by simp [Follows]⟩
  · exact (ended second).elim

/-- A joiner that answers every request with a discovery keeps `create_invite` going. -/
theorem discovery_endless (s : InviterSession c) (state : s.server.state = .unregistered)
    (text : c.Text s.server.serverInfo) (fuel : Nat) :
    drive InviterSession.round (fun _ => respond x.naming x.peerFresh.discoveryResponse) fuel 0 s =
      none := by
  refine drive_endless (P := fun t : InviterSession c =>
    t.server.state = .unregistered ∧ c.Text t.server.serverInfo) ?_ ⟨state, text⟩ fuel
  rintro t - ⟨state, text⟩
  have restarts : (t.server.heard x.peerFresh.discoveryResponse).RestartsNegotiation := by
    have same : (t.server.heard x.peerFresh.discoveryResponse).state = .unregistered := state
    refine ⟨?_, ?_, .inl ?_⟩ <;> simp [Server.ResumesCompletion, same, State.code]
  have continues : t.Continues (respond x.naming x.peerFresh.discoveryResponse) := by
    refine ⟨_, x.peerFresh.discoveryResponse, rfl, rfl, ?_, ⟨rfl, .inl ⟨rfl, .inr (.inr ⟨restarts, ?_⟩)⟩⟩,
      .inl rfl⟩
    · rw [PairingEnvelope.blob_withMsg lawful, x.decode_fresh lawful]
    · rw [text.raw_eq]
      rfl
  have next : (t.round (respond x.naming x.peerFresh.discoveryResponse)).1.server =
      (t.server.heard x.peerFresh.discoveryResponse).offered x.naming := by
    rw [InviterSession.round_server rfl rfl, PairingEnvelope.blob_withMsg lawful]
    exact congrArg Prod.fst
      (Server.receive_restarts lawful (x.decode_fresh lawful) rfl rfl restarts text)
  rw [next]
  exact ⟨(InviterSession.round_eq_none_iff lawful _ _).mpr continues, state, text⟩

/-- An inviter that asks for a discovery again and again keeps `submit_pin` going. -/
theorem requests_endless (s : JoinerSession c) (fuel : Nat) :
    drive JoinerSession.round (fun _ => respond x.peerDraws discoveryRequest) fuel 0 s = none := by
  refine drive_endless (P := fun _ => True) ?_ trivial fuel
  rintro t - -
  refine ⟨(JoinerSession.round_eq_none_iff lawful _ _).mpr ?_, trivial⟩
  refine ⟨_, discoveryRequest, rfl, ?_, rfl, rfl, .inl rfl⟩
  rw [PairingEnvelope.blob_withMsg lawful, decode_discoveryRequest lawful]

end Exchange

/-- An honest joiner's messages, and an inviter that is gone. -/
theorem drivers_stop_reference :
    (drive InviterSession.round Reference.exchange.initialRounds 3 0
      (InviterSession.new Reference.crates Reference.inviterInfo)).isSome = true ∧
    (drive JoinerSession.round
      (fun _ => ⟨Reference.exchange.peerDraws, .error "connection refused"⟩) 4 0
      (JoinerSession.new Reference.crates Reference.joinerInfo)).isSome = true := by
  have stops := drivers_stop_iff Reference.lawful
  refine ⟨(stops.1 _ _).2 (Reference.exchange.initialRounds_orderly Reference.lawful _),
    (stops.2 _ _).2 ?_⟩
  rintro k ⟨resp, wm, wrong, -⟩
  cases wrong

/-- Neither loop ends while the other side repeats a discovery. -/
theorem repeated_discovery_never_stops :
    (∀ n, drive InviterSession.round
      (fun _ => Exchange.respond Reference.exchange.naming
        Reference.exchange.peerFresh.discoveryResponse) n 0
      (InviterSession.new Reference.crates Reference.inviterInfo) = none) ∧
    (∀ n, drive JoinerSession.round
      (fun _ => Exchange.respond Reference.exchange.peerDraws discoveryRequest) n 0
      (JoinerSession.new Reference.crates Reference.joinerInfo) = none) :=
  ⟨Reference.exchange.discovery_endless Reference.lawful _ rfl Reference.exchange.serverText,
    Reference.exchange.requests_endless Reference.lawful _⟩

end OpenPair
