import OpenPair.Library.Transition
import OpenPair.Trust.PinStore

/-! What a pin store holds after any sequence of calls (`pin.rs`), and the
verifier of both TLS directions, which asks it (`mtls.rs`).
-/

set_option autoImplicit false

namespace OpenPair

open Transition

namespace PeerPinStore

-- `remove`, with the entry taken out.
def remove (store : PeerPinStore) (nodeUuid : String) : PeerPinStore × Option PinnedPeer :=
  ({ byUuid := store.byUuid.erase nodeUuid }, store.byUuid.lookup nodeUuid)

inductive Call where
  | pin (certDer : Bytes)
  | remove (nodeUuid : String)

inductive Answer where
  | pinned (result : Except String String)
  | removed (peer : Option PinnedPeer)

variable (c : Crates)

def call (store : PeerPinStore) : Call → PeerPinStore × Answer
  | .pin certDer => ((store.pin c certDer).1, .pinned (store.pin c certDer).2)
  | .remove nodeUuid => ((store.remove nodeUuid).1, .removed (store.remove nodeUuid).2)

abbrev Event := Entry PeerPinStore Call Answer

abbrev history (calls : List Call) : List Event := trace (call c) {} calls

abbrev after (calls : List Call) : PeerPinStore := run (call c) {} calls

def Pins (nodeUuid : String) (e : Event) : Prop := e.output = .pinned (.ok nodeUuid)

def Removes (nodeUuid : String) (e : Event) : Prop := e.input = .remove nodeUuid

/-- The last pin of a node since its last removal. -/
def LastPin (nodeUuid : String) (events : List Event) (e : Event) : Prop :=
  ∃ removed since, events = removed ++ since ∧ (∀ t ∈ since, ¬ Removes nodeUuid t) ∧
    LastOf (Pins nodeUuid) since e

end PeerPinStore

/-! ## The verifier -/

/-- A lock is poisoned once a writer has panicked. -/
structure SharedPins where
  store : PeerPinStore
  poisoned : Bool := false

def SharedPins.read (pins : SharedPins) : Except Unit PeerPinStore :=
  if pins.poisoned then .error () else .ok pins.store

structure PinnedPeerVerifier where
  pins : SharedPins

def PinnedPeerVerifier.accept (verifier : PinnedPeerVerifier) (endEntity : Bytes) : Bool :=
  match verifier.pins.read with
  | .ok store => store.isPinned endEntity
  | .error _ => false

namespace PeerPinStore

variable {c : Crates} {nodeUuid : String} {events : List Event} {e d : Event}

theorem accept_iff (verifier : PinnedPeerVerifier) (endEntity : Bytes) :
    verifier.accept endEntity = true ↔
      verifier.pins.poisoned = false ∧ verifier.pins.store.isPinned endEntity = true := by
  cases poisoned : verifier.pins.poisoned <;>
    simp [PinnedPeerVerifier.accept, SharedPins.read, poisoned]

/-! ## One more call -/

theorem LastPin.nil : ¬ LastPin nodeUuid [] e := by
  rintro ⟨removed, since, split, -, earlier, later, rfl, -⟩
  simp at split

theorem LastPin.concat_iff : LastPin nodeUuid (events ++ [e]) d ↔ ¬ Removes nodeUuid e ∧
    ((Pins nodeUuid e ∧ d = e) ∨ (¬ Pins nodeUuid e ∧ LastPin nodeUuid events d)) := by
  constructor
  · rintro ⟨removed, since, split, kept, last⟩
    rcases List.eq_nil_or_concat since with rfl | ⟨since, final, rfl⟩
    · obtain ⟨earlier, later, empty, -⟩ := last
      simp at empty
    · rw [List.concat_eq_append] at split kept last
      rw [← List.append_assoc] at split
      obtain ⟨rfl, same⟩ := List.append_inj' split rfl
      obtain ⟨rfl, -⟩ := List.cons.inj same
      refine ⟨kept e (by simp), ?_⟩
      rcases LastOf.concat_iff.mp last with now | ⟨other, before⟩
      · exact .inl now
      · exact .inr ⟨other, removed, since, rfl,
          fun t member => kept t (List.mem_append_left _ member), before⟩
  · rintro ⟨stays, ⟨pins, rfl⟩ | ⟨other, removed, since, rfl, kept, last⟩⟩
    · refine ⟨events, [d], rfl, ?_, LastOf.concat_self [] pins⟩
      intro t member
      rw [List.mem_singleton.mp member]
      exact stays
    · refine ⟨removed, since ++ [e], List.append_assoc _ _ _, ?_, last.concat_other other⟩
      intro t member
      rcases List.mem_append.mp member with old | new
      · exact kept t old
      · rw [List.mem_singleton.mp new]
        exact stays

/-- An entry is the one made for the last certificate pinned. -/
def Recorded (c : Crates) (events : List Event) (store : PeerPinStore) : Prop :=
  ∀ nodeUuid peer, store.byUuid.lookup nodeUuid = some peer ↔
    ∃ certDer, peer = .of c nodeUuid certDer ∧ nodeUuidFromCert c certDer = some nodeUuid ∧
      ∃ e, LastPin nodeUuid events e ∧ e.input = .pin certDer

theorem Recorded.step {store : PeerPinStore} (recorded : Recorded c events store) (input : Call) :
    Recorded c (events ++ [entry (call c) store input]) (call c store input).1 := by
  intro nodeUuid peer
  simp only [LastPin.concat_iff]
  -- A call decides about its own node alone; for any other the last pin stays what it was.
  cases input with
  | pin certDer =>
    have keeps : ¬ Removes nodeUuid (entry (call c) store (.pin certDer)) := by
      simp [Removes]
    cases named : nodeUuidFromCert c certDer with
    | none =>
      have refused : ¬ Pins nodeUuid (entry (call c) store (.pin certDer)) := by
        simp [Pins, call, pin_refused named]
      simp only [keeps, refused, call, pin_refused named, recorded nodeUuid peer,
        not_false_eq_true, true_and, false_and, false_or]
    | some pinned =>
      by_cases same : pinned = nodeUuid
      · subst same
        have pins : Pins pinned (entry (call c) store (.pin certDer)) := by
          simp [Pins, call, pin_ok named]
        simp only [call, pin_ok named, AList.lookup_insert, Option.some.injEq]
        constructor
        · rintro rfl
          exact ⟨certDer, rfl, named, _, ⟨keeps, .inl ⟨pins, rfl⟩⟩, rfl⟩
        · rintro ⟨other, rfl, -, e, ⟨-, ⟨-, rfl⟩ | ⟨never, -⟩⟩, input⟩
          · cases input
            rfl
          · exact absurd pins never
      · have other : ¬ Pins nodeUuid (entry (call c) store (.pin certDer)) := by
          simp [Pins, call, pin_ok named, same]
        simp only [keeps, other, call, pin_ok named, AList.lookup_insert_ne (Ne.symm same),
          recorded nodeUuid peer, not_false_eq_true, true_and, false_and, false_or]
  | remove removed =>
    have noPin : ¬ Pins nodeUuid (entry (call c) store (.remove removed)) := by
      simp [Pins, call]
    by_cases same : removed = nodeUuid
    · subst same
      have removes : Removes removed (entry (call c) store (.remove removed)) := rfl
      simp [call, remove, removes]
    · have keeps : ¬ Removes nodeUuid (entry (call c) store (.remove removed)) := by
        simp [Removes, same]
      simp only [keeps, noPin, call, remove, AList.lookup_erase_ne (Ne.symm same),
        recorded nodeUuid peer, not_false_eq_true, true_and, false_and, false_or]

/-- The store is what the history of its calls says. -/
theorem recorded (calls : List Call) : Recorded c (history c calls) (after c calls) := by
  have keep : ∀ history state input, Recorded c history state →
      Recorded c (history ++ [entry (call c) state input]) (call c state input).1 :=
    fun _ _ input holds => holds.step input
  apply run_history keep
  · intro nodeUuid peer
    simp only [LastPin.nil, false_and, exists_false, and_false, iff_false]
    rw [show (({} : PeerPinStore).byUuid.lookup nodeUuid) = none from AList.lookup_empty nodeUuid]
    exact fun found => by cases found

theorem isPinned_iff {store : PeerPinStore} {certDer : Bytes} : store.isPinned certDer = true ↔
    ∃ nodeUuid peer, store.byUuid.lookup nodeUuid = some peer ∧ peer.certDer = certDer := by
  simp only [isPinned, List.any_eq_true, beq_iff_eq]
  constructor
  · rintro ⟨⟨nodeUuid, peer⟩, member, same⟩
    exact ⟨nodeUuid, peer, AList.mem_lookup_iff.mpr member, same⟩
  · rintro ⟨nodeUuid, peer, found, same⟩
    exact ⟨⟨nodeUuid, peer⟩, AList.mem_lookup_iff.mp found, same⟩

/-- Every entry is under the node of its certificate, a certificate is pinned
exactly when it was the last one pinned for its node since the node was
removed, and the verifier accepts the pinned certificates and no others. -/
theorem last_pin_decides (c : Crates) (calls : List Call) :
    (∀ nodeUuid peer, (after c calls).byUuid.lookup nodeUuid = some peer →
      peer.nodeUuid = nodeUuid ∧ nodeUuidFromCert c peer.certDer = some nodeUuid ∧
        peer.fingerprint = certFingerprint c peer.certDer) ∧
    (∀ certDer, (after c calls).isPinned certDer = true ↔
      ∃ nodeUuid, nodeUuidFromCert c certDer = some nodeUuid ∧
        ∃ e, LastPin nodeUuid (history c calls) e ∧ e.input = .pin certDer) ∧
    ∀ poisoned certDer, (PinnedPeerVerifier.mk ⟨after c calls, poisoned⟩).accept certDer = true ↔
      poisoned = false ∧ (after c calls).isPinned certDer = true := by
  refine ⟨fun nodeUuid peer found => ?_, fun certDer => ?_, fun poisoned certDer => ?_⟩
  · obtain ⟨certDer, rfl, named, -⟩ := (recorded calls nodeUuid peer).mp found
    exact ⟨rfl, named, rfl⟩
  · rw [isPinned_iff]
    constructor
    · rintro ⟨nodeUuid, peer, found, rfl⟩
      obtain ⟨certDer, rfl, named, last⟩ := (recorded calls nodeUuid peer).mp found
      exact ⟨nodeUuid, named, last⟩
    · rintro ⟨nodeUuid, named, last⟩
      exact ⟨nodeUuid, .of c nodeUuid certDer,
        (recorded calls nodeUuid _).mpr ⟨certDer, rfl, named, last⟩, rfl⟩
  · exact accept_iff _ certDer

end PeerPinStore

end OpenPair
