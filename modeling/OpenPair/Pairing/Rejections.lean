import OpenPair.Pairing.Runs
import OpenPair.Reference

/-! Whether a message that is answered by an error leaves its machine as it was.

Most handlers check first and write afterwards. Two write before they have
checked everything: the Server's on a Discovery response, the Peer's on an
offer whose PeerId it can read.
-/

set_option autoImplicit false

namespace OpenPair

open Transition

variable {c : Crates}

def Outcome.Rejects (out : Option Outcome) : Prop := ∃ o, out = some o ∧ o.error ≠ none

@[simp] theorem rejects_fail (info : String) : Outcome.Rejects (some (fail c info)) :=
  ⟨_, rfl, Option.some_ne_none info⟩

@[simp] theorem rejects_failCode (code : Int64) (info : String) :
    Outcome.Rejects (some (failCode c code info)) :=
  ⟨_, rfl, Option.some_ne_none info⟩

@[simp] theorem not_rejects_some {o : Outcome} (error : o.error = none) :
    ¬ Outcome.Rejects (some o) := by
  rintro ⟨_, same, set⟩
  cases same
  exact set error

theorem not_rejects_sendWire (built : Option Wire) :
    ¬ Outcome.Rejects (built.map (sendWire c)) := by
  rintro ⟨o, same, set⟩
  cases built with
  | none => cases same
  | some w =>
    cases same
    exact set rfl

/-! ## The Server -/

namespace Server

/-- The fields the caller can see are the same. -/
structure Untouched (s t : Server c) : Prop where
  state : t.state = s.state
  assoc : t.assoc = s.assoc
  inp : t.m.inp = s.m.inp
  peerId : t.m.peerId = s.m.peerId
  nai : t.m.nai = s.m.nai
  peerState : t.peerState = s.peerState

theorem Untouched.refl (s : Server c) : s.Untouched s := by
  constructor <;> rfl

/-- A Discovery response that ends in an error, by what it would continue with. -/
def RefusesDiscovery (s : Server c) (wm : Wire) : Prop :=
  wm.errorCode = none ∧ wm.type = some 1 ∧
    (((s.heard wm).ResumesCompletion ∧ s.m.noob = []) ∨
      (¬ (s.heard wm).ResumesCompletion ∧ ¬ (s.state.code = 1 ∧ (s.heard wm).peerState = 1) ∧
        ¬ (s.state.code = 0 ∨ (s.heard wm).peerState = 0)))

theorem onDiscovery_rejects {s : Server c} {draws : Draws c} {wm : Wire}
    (notice : wm.errorCode = none) (type : wm.type = some 1)
    (rejects : Outcome.Rejects (s.onDiscovery draws wm).2) :
    s.RefusesDiscovery wm ∧ (s.onDiscovery draws wm).1 = s.heard wm := by
  unfold onDiscovery at rejects ⊢
  dsimp only at rejects ⊢
  split at rejects
  · next resumes =>
    rw [if_pos resumes]
    unfold startCompletion at rejects ⊢
    split at rejects
    · next noob =>
      rw [if_pos noob]
      have none : s.m.noob = [] := by simpa [heard] using noob
      exact ⟨⟨notice, type, .inl ⟨resumes, none⟩⟩, rfl⟩
    · split at rejects
      · exact absurd rejects (not_rejects_sendWire _)
      · exact absurd rejects (not_rejects_sendWire _)
  · next completes =>
    rw [if_neg completes]
    split at rejects
    · exact absurd rejects (not_rejects_sendWire _)
    · next waits =>
      rw [if_neg waits]
      split at rejects
      · exact absurd rejects (not_rejects_sendWire _)
      · next restarts =>
        rw [if_neg restarts]
        exact ⟨⟨notice, type, .inr ⟨completes, waits, restarts⟩⟩, rfl⟩

theorem onDiscovery_refuses {s : Server c} {wm : Wire} (draws : Draws c)
    (refuses : s.RefusesDiscovery wm) :
    (s.onDiscovery draws wm).1 = s.heard wm ∧ Outcome.Rejects (s.onDiscovery draws wm).2 := by
  obtain ⟨-, -, ⟨resumes, noob⟩ | ⟨completes, waits, restarts⟩⟩ := refuses
  · have none : (s.heard wm).m.noob.isEmpty = true := by simp [heard, noob]
    simp only [onDiscovery, if_pos resumes, startCompletion, if_pos none]
    exact ⟨trivial, rejects_fail _⟩
  · have waits' : ¬ ((s.heard wm).state.code = 1 ∧ (s.heard wm).peerState = 1) := waits
    have restarts' : ¬ ((s.heard wm).state.code = 0 ∨ (s.heard wm).peerState = 0) := restarts
    simp only [onDiscovery, if_neg completes, if_neg waits', if_neg restarts']
    exact ⟨trivial, rejects_fail _⟩

/-- The machine stays as it was where the outcome reports an error. -/
def Clean (s : Server c) (r : Server c × Option Outcome) : Prop := Outcome.Rejects r.2 → r.1 = s

theorem Clean.kept (s : Server c) (out : Option Outcome) : Clean s (s, out) := fun _ => rfl

theorem Clean.sends (s t : Server c) (built : Option Wire) :
    Clean s (t, built.map (sendWire c)) := fun rejects => absurd rejects (not_rejects_sendWire _)

theorem Clean.answers (s t : Server c) {o : Outcome} (error : o.error = none) :
    Clean s (t, some o) := fun rejects => absurd rejects (not_rejects_some error)

theorem onNegotiation_clean (s : Server c) (draws : Draws c) (wm : Wire) :
    Clean s (s.onNegotiation draws wm) := by
  unfold onNegotiation
  split
  · exact .kept s _
  · dsimp only
    split
    · exact .kept s _
    · split
      · exact .kept s _
      · split
        · exact .kept s _
        · unfold buildKeyExchange
          split
          · rintro ⟨_, panics, -⟩
            cases panics
          · exact .sends s _ _

theorem onKeyExchange_clean (s : Server c) (wm : Wire) : Clean s (s.onKeyExchange wm) := by
  unfold onKeyExchange
  split
  · exact .kept s _
  · split
    · exact .kept s _
    · split
      · exact .kept s _
      · split
        · exact .kept s _
        · split
          · exact .kept s _
          · split
            · exact .kept s _
            · exact .answers s _ rfl

theorem onNoobId_clean (s : Server c) (wm : Wire) : Clean s (s.onNoobId wm) := by
  unfold onNoobId
  split
  · exact .kept s _
  · split
    · exact .sends s _ _
    · exact .kept s _

theorem onCompletion_clean (s : Server c) (wm : Wire) : Clean s (s.onCompletion wm) := by
  unfold onCompletion
  split
  · exact .kept s _
  · dsimp only
    split
    · exact .kept s _
    · split
      · exact .kept s _
      · exact .answers s _ rfl

/-- A message answered by an error writes nothing, or is a Discovery response
whose PeerState and NAI are written. -/
theorem receive_rejects {s : Server c} {draws : Draws c} {input : Bytes}
    (rejects : Outcome.Rejects (s.receive draws input).2) :
    (s.receive draws input).1 = s ∨ ∃ wm, c.decodeWire input = some wm ∧ s.RefusesDiscovery wm ∧
      (s.receive draws input).1 = s.heard wm := by
  unfold receive at rejects ⊢
  cases decoded : c.decodeWire input with
  | none => exact .inl rfl
  | some wm =>
    simp only [decoded] at rejects ⊢
    by_cases discovery : wm.errorCode = none ∧ wm.type = some 1
    · obtain ⟨notice, type⟩ := discovery
      simp only [dispatch, notice, if_pos type] at rejects ⊢
      obtain ⟨refuses, heard⟩ := onDiscovery_rejects notice type rejects
      exact .inr ⟨wm, rfl, refuses, heard⟩
    · have clean : Clean s (s.dispatch draws wm) := by
        unfold dispatch
        split
        · exact .kept s _
        · next notice =>
          split
          · next type => exact absurd ⟨notice, type⟩ discovery
          split
          · exact onNegotiation_clean s draws wm
          split
          · exact onKeyExchange_clean s wm
          split
          · exact .kept s _
          split
          · exact onNoobId_clean s wm
          split
          · exact onCompletion_clean s wm
          · exact .kept s _
      exact .inl (clean rejects)

theorem receive_refuses {s : Server c} (draws : Draws c) {input : Bytes} {wm : Wire}
    (decoded : c.decodeWire input = some wm) (refuses : s.RefusesDiscovery wm) :
    (s.receive draws input).1 = s.heard wm ∧ Outcome.Rejects (s.receive draws input).2 := by
  have notice : wm.errorCode = none := refuses.1
  have type : wm.type = some 1 := refuses.2.1
  simp only [receive, decoded, dispatch, notice, if_pos type]
  exact onDiscovery_refuses draws refuses

/-- The Discovery response carries the PeerState and the NAI held already. -/
def HeardAlready (s : Server c) (wm : Wire) : Prop :=
  (s.heard wm).peerState = s.peerState ∧ (s.heard wm).m.nai = s.m.nai

/-- Every answer by an error leaves the Server as it was. -/
def RejectsUntouched (_history : List (Step c)) (e : Step c) : Prop :=
  ∀ out, e.output = .received out → Outcome.Rejects out → e.before.Untouched e.after

def RefusesNothingNew (_history : List (Step c)) (e : Step c) : Prop :=
  ∀ draws input wm, e.input = .receive draws input → c.decodeWire input = some wm →
    e.before.RefusesDiscovery wm → e.before.HeardAlready wm

theorem rejectsUntouched_iff (s : Server c) (input : Input c) (history : List (Step c)) :
    RejectsUntouched history (entry step s input) ↔
      RefusesNothingNew history (entry step s input) := by
  constructor
  · intro untouched draws input wm called decoded refuses
    obtain rfl : _ = Input.receive draws input := called
    have refuses : s.RefusesDiscovery wm := refuses
    obtain ⟨heard, rejects⟩ := receive_refuses draws decoded refuses
    have kept := untouched _ rfl rejects
    simp only [entry_before, entry_after, step, heard] at kept
    exact ⟨kept.peerState, kept.nai⟩
  · intro known out returned rejects
    cases input with
    | start => cases returned
    | oobOutputWith noob => cases returned
    | receive draws input =>
      obtain rfl := Output.received.inj returned
      rcases receive_rejects rejects with same | ⟨wm, decoded, refuses, heard⟩
      · simp only [entry_before, entry_after, step, same]
        exact .refl s
      · obtain ⟨peerState, nai⟩ := known draws input wm rfl decoded refuses
        simp only [entry_before, entry_after, step, heard]
        exact ⟨rfl, rfl, rfl, rfl, nai, peerState⟩

end Server

/-! ## The Peer -/

namespace Peer

/-- The fields the caller can see are the same. -/
structure Untouched (p q : Peer c) : Prop where
  state : q.state = p.state
  assoc : q.assoc = p.assoc
  inp : q.m.inp = p.m.inp
  peerId : q.m.peerId = p.m.peerId
  nai : q.m.nai = p.m.nai

theorem Untouched.refl (p : Peer c) : p.Untouched p := by
  constructor <;> rfl

/-- An offer from which the Peer cannot make every choice, by its readable PeerId. -/
def RefusesOffer (p : Peer c) (wm : Wire) (peerId : String) : Prop :=
  wm.eap = none ∧ wm.errorCode = none ∧ wm.type = some 2 ∧ parseStr c wm.peerId = some peerId ∧
    (bestVersion ((parseInts c wm.vers).getD []) p.versions = none ∨
      firstSupported ((parseInts c wm.cryptosuites).getD []) p.cryptosuites = none ∨
      chooseDir ((parseInt c wm.dirs).getD (-1)) p.preferDir = none)

/-- Where the outcome reports an error, the Peer is as it was but for cached keys. -/
def Clean (p : Peer c) (r : Peer c × Option Outcome) : Prop :=
  Outcome.Rejects r.2 → p.Untouched r.1

theorem Clean.kept (p : Peer c) (out : Option Outcome) : Clean p (p, out) := fun _ => .refl p

theorem Clean.sends (p q : Peer c) (built : Option Wire) :
    Clean p (q, built.map (sendWire c)) := fun rejects => absurd rejects (not_rejects_sendWire _)

theorem onNegotiation_rejects {p : Peer c} {wm : Wire} (result : wm.eap = none)
    (notice : wm.errorCode = none) (type : wm.type = some 2)
    (rejects : Outcome.Rejects (p.onNegotiation wm).2) :
    (p.onNegotiation wm).1 = p ∨ ∃ peerId, p.RefusesOffer wm peerId ∧
      (p.onNegotiation wm).1 = p.named peerId := by
  unfold onNegotiation at rejects ⊢
  cases named : parseStr c wm.peerId with
  | none => exact .inl rfl
  | some peerId =>
    simp only [named] at rejects ⊢
    cases version : bestVersion ((parseInts c wm.vers).getD []) p.versions with
    | none => exact .inr ⟨peerId, ⟨result, notice, type, named, .inl version⟩, rfl⟩
    | some verp =>
      simp only [version] at rejects ⊢
      cases suite : firstSupported ((parseInts c wm.cryptosuites).getD []) p.cryptosuites with
      | none => exact .inr ⟨peerId, ⟨result, notice, type, named, .inr (.inl suite)⟩, rfl⟩
      | some csp =>
        simp only [suite] at rejects ⊢
        cases direction : chooseDir ((parseInt c wm.dirs).getD (-1)) p.preferDir with
        | none => exact .inr ⟨peerId, ⟨result, notice, type, named, .inr (.inr direction)⟩, rfl⟩
        | some dirp =>
          simp only [direction] at rejects
          exact absurd rejects (not_rejects_sendWire _)

theorem onNegotiation_refuses {p : Peer c} {wm : Wire} {peerId : String}
    (refuses : p.RefusesOffer wm peerId) :
    (p.onNegotiation wm).1 = p.named peerId ∧ Outcome.Rejects (p.onNegotiation wm).2 := by
  obtain ⟨-, -, -, named, fails⟩ := refuses
  unfold onNegotiation
  simp only [named]
  split
  · exact ⟨rfl, rejects_fail _⟩
  · next version =>
    split
    · exact ⟨rfl, rejects_fail _⟩
    · next suite =>
      split
      · exact ⟨rfl, rejects_fail _⟩
      · next direction =>
        rcases fails with none | none | none
        · rw [version] at none
          cases none
        · rw [suite] at none
          cases none
        · rw [direction] at none
          cases none

theorem onKeyExchange_clean (p : Peer c) (draws : Draws c) (wm : Wire) :
    Clean p (p.onKeyExchange draws wm) := by
  unfold onKeyExchange
  split
  · exact .kept p _
  · split
    · exact .kept p _
    · split
      · exact .kept p _
      · split
        · exact .kept p _
        · dsimp only
          split
          · rintro ⟨_, panics, -⟩
            cases panics
          · exact .sends p _ (some _)

theorem onCompletion_clean (p : Peer c) (wm : Wire) : Clean p (p.onCompletion wm) := by
  unfold onCompletion
  split
  · exact .kept p _
  · split
    · exact .kept p _
    · dsimp only
      split
      · -- The keys are cached before the MACs is compared.
        intro _
        constructor <;> rfl
      · exact .sends p _ _

/-- A message answered by an error writes nothing the caller can see, or is an
offer whose PeerId is written. -/
theorem receive_rejects {p : Peer c} {draws : Draws c} {input : Bytes}
    (rejects : Outcome.Rejects (p.receive draws input).2) :
    p.Untouched (p.receive draws input).1 ∨ ∃ wm peerId, c.decodeWire input = some wm ∧
      p.RefusesOffer wm peerId ∧ (p.receive draws input).1 = p.named peerId := by
  unfold receive at rejects ⊢
  cases decoded : c.decodeWire input with
  | none => exact .inl (.refl p)
  | some wm =>
    simp only [decoded] at rejects ⊢
    -- An offer is the one message of which something is taken before it is refused.
    by_cases offer : wm.eap = none ∧ wm.errorCode = none ∧ wm.type = some 2
    · obtain ⟨result, notice, type⟩ := offer
      have other : wm.type ≠ some 1 := by simp [type]
      simp only [dispatch, result, notice, if_neg other, if_pos type] at rejects ⊢
      rcases onNegotiation_rejects result notice type rejects with same | ⟨peerId, refuses, named⟩
      · left
        rw [same]
        exact .refl p
      · exact .inr ⟨wm, peerId, rfl, refuses, named⟩
    · have clean : Clean p (p.dispatch draws wm) := by
        unfold dispatch
        split
        · unfold onResult
          split
          · rintro ⟨o, same, set⟩
            cases same
            exact absurd rfl set
          · exact .kept p _
        · next result =>
          split
          · exact .kept p _
          · next notice =>
            split
            · exact .kept p _
            split
            · next type => exact absurd ⟨result, notice, type⟩ offer
            split
            · exact onKeyExchange_clean p draws wm
            split
            · exact .kept p _
            split
            · unfold onNoobId
              split
              · exact .kept p _
              · exact .kept p _
            split
            · exact onCompletion_clean p wm
            · exact .kept p _
      exact .inl (clean rejects)

theorem receive_refuses {p : Peer c} (draws : Draws c) {input : Bytes} {wm : Wire}
    {peerId : String} (decoded : c.decodeWire input = some wm)
    (refuses : p.RefusesOffer wm peerId) :
    (p.receive draws input).1 = p.named peerId ∧ Outcome.Rejects (p.receive draws input).2 := by
  have other : wm.type ≠ some 1 := by simp [refuses.2.2.1]
  simp only [receive, decoded, dispatch, refuses.1, refuses.2.1, if_neg other,
    if_pos refuses.2.2.1]
  exact onNegotiation_refuses refuses

/-- Every answer by an error leaves the Peer as it was. -/
def RejectsUntouched (_history : List (Step c)) (e : Step c) : Prop :=
  ∀ out, e.output = .received out → Outcome.Rejects out → e.before.Untouched e.after

def RefusesNothingNew (_history : List (Step c)) (e : Step c) : Prop :=
  ∀ draws input wm peerId, e.input = .receive draws input → c.decodeWire input = some wm →
    e.before.RefusesOffer wm peerId → peerId = e.before.m.peerId

theorem rejectsUntouched_iff (p : Peer c) (input : Input c) (history : List (Step c)) :
    RejectsUntouched history (entry step p input) ↔
      RefusesNothingNew history (entry step p input) := by
  constructor
  · intro untouched draws input wm peerId called decoded refuses
    obtain rfl : _ = Input.receive draws input := called
    have refuses : p.RefusesOffer wm peerId := refuses
    obtain ⟨named, rejects⟩ := receive_refuses draws decoded refuses
    have kept := untouched _ rfl rejects
    simp only [entry_before, entry_after, step, named] at kept
    exact kept.peerId
  · intro known out returned rejects
    cases input with
    | oobInputNoob noob => cases returned
    | receive draws input =>
      obtain rfl := Output.received.inj returned
      rcases receive_rejects rejects with same | ⟨wm, peerId, decoded, refuses, named⟩
      · exact same
      · have same := known draws input wm peerId rfl decoded refuses
        simp only [entry_before, entry_after, step, named]
        exact ⟨rfl, rfl, rfl, same, rfl⟩

end Peer

/-! ## The result -/

/-- In every run from a new machine, the answers by an error leave the machine
as it was exactly when no refused Discovery response brings another PeerState or
NAI and no refused offer another PeerId. -/
theorem rejected_messages_untouched_iff :
    (∀ (s : Server c) (inputs : List (Server.Input c)), s.Initial →
      (EveryStep Server.RejectsUntouched (trace Server.step s inputs) ↔
        EveryStep Server.RefusesNothingNew (trace Server.step s inputs))) ∧
    (∀ (p : Peer c) (inputs : List (Peer.Input c)), p.Initial →
      (EveryStep Peer.RejectsUntouched (trace Peer.step p inputs) ↔
        EveryStep Peer.RefusesNothingNew (trace Peer.step p inputs))) := by
  constructor
  · intro s inputs _
    refine EveryStep.congr_trace fun history t input => ?_
    exact Server.rejectsUntouched_iff t input history
  · intro p inputs _
    refine EveryStep.congr_trace fun history q input => ?_
    exact Peer.rejectsUntouched_iff q input history

namespace Reference

def bareOffer : Wire := { type := some 2, peerId := some (crates.jsonStr "a") }

theorem decode_bareOffer : crates.decodeWire (crates.encodeWire bareOffer) = some bareOffer := by
  refine lawful.wire bareOffer fun t member => ?_
  have same : t = crates.jsonStr "a" := by simpa [bareOffer, Wire.raws] using member
  rw [same]
  exact lawful.text_str "a"

theorem refuses_bareOffer : (Peer.new crates).RefusesOffer bareOffer "a" :=
  ⟨rfl, rfl, rfl, lawful.str "a", .inl rfl⟩

def bare (type : Int64) : Wire := { type := some type }

theorem decode_bare (type : Int64) : crates.decodeWire (crates.encodeWire (bare type)) =
    some (bare type) :=
  lawful.wire _ (by simp [bare, Wire.raws])

end Reference

/-- A Type 5 without a NoobId and an offer without a PeerId are refused, and nothing is
written. -/
theorem rejected_messages_untouched_bare :
    EveryStep Server.RejectsUntouched (trace Server.step (Server.new Reference.crates)
        [.receive (Reference.draws .server) (Reference.crates.encodeWire (Reference.bare 5))]) ∧
      EveryStep Peer.RejectsUntouched (trace Peer.step (Peer.new Reference.crates)
        [.receive (Reference.draws .peer) (Reference.crates.encodeWire (Reference.bare 2))]) := by
  constructor
  · apply (rejected_messages_untouched_iff.1 _ _ (.inl rfl)).mpr
    refine EveryStep.singleton.mpr fun draws input wm called decoded refuses => ?_
    cases called
    rw [Reference.decode_bare] at decoded
    cases decoded
    cases refuses.2.1
  · apply (rejected_messages_untouched_iff.2 _ _ (.inl rfl)).mpr
    refine EveryStep.singleton.mpr fun draws input wm peerId called decoded refuses => ?_
    cases called
    rw [Reference.decode_bare] at decoded
    cases decoded
    obtain ⟨-, -, -, read, -⟩ := refuses
    cases read

/-- A new Peer keeps the PeerId of an offer it refuses. -/
theorem refused_offer_writes_peer_id :
    ¬ EveryStep Peer.RejectsUntouched (trace Peer.step (Peer.new Reference.crates)
      [.receive (Reference.draws .peer)
        (Reference.crates.encodeWire Reference.bareOffer)]) := by
  intro untouched
  have step := EveryStep.singleton.mp untouched
  obtain ⟨named, rejects⟩ := Peer.receive_refuses (Reference.draws .peer)
    Reference.decode_bareOffer Reference.refuses_bareOffer
  have kept := (step _ rfl rejects).peerId
  simp only [entry_before, entry_after, Peer.step, named] at kept
  exact absurd kept (by decide)

end OpenPair
