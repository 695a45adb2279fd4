import Mathlib.Data.List.Basic

/-! A stream of bytes that arrives in pieces, and reading from it.

A read returns bytes of one piece only, at least one of them while there are any;
nothing read means the end. What the pieces are does not matter to a reader that
goes on until it has enough.
-/

set_option autoImplicit false

namespace ByteReader

structure Reader where
  chunks : List (List UInt8)
  nonempty : ∀ chunk ∈ chunks, chunk ≠ []

def Reader.bytes (r : Reader) : List UInt8 := r.chunks.flatten

def Reader.read : Reader → Nat → List UInt8 × Reader
  | ⟨[], nonempty⟩, _ => ([], ⟨[], nonempty⟩)
  | ⟨chunk :: rest, nonempty⟩, room =>
    if fits : chunk.length ≤ room then
      (chunk, ⟨rest, fun other member => nonempty other (List.mem_cons_of_mem _ member)⟩)
    else
      (chunk.take room, ⟨chunk.drop room :: rest, by
        intro other member
        rcases List.mem_cons.mp member with rfl | later
        · intro empty
          exact fits (List.drop_eq_nil_iff.mp empty)
        · exact nonempty other (List.mem_cons_of_mem _ later)⟩)

theorem Reader.read_bytes (r : Reader) (room : Nat) :
    (r.read room).1 ++ (r.read room).2.bytes = r.bytes := by
  match r with
  | ⟨[], nonempty⟩ => rfl
  | ⟨chunk :: rest, nonempty⟩ =>
    rw [read]
    split
    · rfl
    · simp only [bytes, List.flatten_cons]
      rw [← List.append_assoc, List.take_append_drop]

theorem Reader.read_length (r : Reader) (room : Nat) : (r.read room).1.length ≤ room := by
  match r with
  | ⟨[], nonempty⟩ => exact Nat.zero_le room
  | ⟨chunk :: rest, nonempty⟩ =>
    rw [read]
    split
    · next fits => exact fits
    · exact List.length_take_le _ _

theorem Reader.read_eq_nil {r : Reader} {room : Nat} (some : 0 < room)
    (nothing : (r.read room).1 = []) : r.bytes = [] := by
  match r with
  | ⟨[], nonempty⟩ => rfl
  | ⟨chunk :: rest, nonempty⟩ =>
    rw [read] at nothing
    have present := nonempty chunk List.mem_cons_self
    split at nothing
    · exact absurd nothing present
    · rcases List.take_eq_nil_iff.mp nothing with none | empty
      · omega
      · exact absurd empty present

theorem Reader.read_one {r : Reader} {b : UInt8} {rest : List UInt8} (held : r.bytes = b :: rest) :
    (r.read 1).1 = [b] ∧ (r.read 1).2.bytes = rest := by
  have split := r.read_bytes 1
  have short := r.read_length 1
  rw [held] at split
  cases got : (r.read 1).1 with
  | nil =>
    have ended := read_eq_nil Nat.one_pos got
    rw [held] at ended
    cases ended
  | cons first more =>
    rw [got] at split short
    have alone : more = [] := List.eq_nil_of_length_eq_zero (by simpa using short)
    subst alone
    obtain ⟨rfl, left⟩ := List.cons.inj split
    exact ⟨rfl, left⟩

theorem Reader.read_end {r : Reader} (ended : r.bytes = []) (room : Nat) :
    (r.read room).1 = [] ∧ (r.read room).2.bytes = [] := by
  have split := r.read_bytes room
  rw [ended] at split
  exact List.append_eq_nil_iff.mp split

/-- Read until the buffer is full; nothing where the stream ends before that. -/
def Reader.readExact (r : Reader) (n : Nat) : Option (List UInt8) × Reader :=
  if n = 0 then (some [], r)
  else if (r.read n).1 = [] then (none, (r.read n).2)
  else
    let rest := (r.read n).2.readExact (n - (r.read n).1.length)
    (rest.1.map ((r.read n).1 ++ ·), rest.2)
termination_by n
decreasing_by
  rename_i some present
  have long : 0 < (r.read n).1.length := List.length_pos_iff.mpr present
  omega

/-- However the bytes arrive, the buffer is filled with the next ones. -/
theorem Reader.readExact_append (r : Reader) {want rest : List UInt8}
    (held : r.bytes = want ++ rest) :
    (r.readExact want.length).1 = some want ∧ (r.readExact want.length).2.bytes = rest := by
  rw [readExact]
  by_cases none : want.length = 0
  · obtain rfl := List.eq_nil_of_length_eq_zero none
    exact ⟨rfl, held⟩
  · rw [if_neg none]
    have split := r.read_bytes want.length
    have short := r.read_length want.length
    have present : (r.read want.length).1 ≠ [] := by
      intro nothing
      have ended := read_eq_nil (Nat.pos_of_ne_zero none) nothing
      rw [held] at ended
      exact none (congrArg List.length (List.append_eq_nil_iff.mp ended).1)
    rw [if_neg present]
    have long := List.length_pos_iff.mpr present
    -- What is left to read follows what was read.
    rw [held] at split
    obtain ⟨left, same⟩ : (r.read want.length).1 <+: want :=
      List.prefix_of_prefix_length_le ⟨_, split⟩ (List.prefix_append want rest) short
    have lengths := congrArg List.length same
    rw [List.length_append] at lengths
    have remains : want.length - (r.read want.length).1.length = left.length := by omega
    have follows : (r.read want.length).2.bytes = left ++ rest := by
      nth_rewrite 3 [← same] at split
      rw [List.append_assoc] at split
      exact List.append_cancel_left split
    obtain ⟨filled, after⟩ := readExact_append _ follows
    rw [remains]
    dsimp only
    rw [filled, Option.map_some, same]
    exact ⟨rfl, after⟩
termination_by want.length
decreasing_by omega

/-- A buffer larger than what is left is never filled. -/
theorem Reader.readExact_short (r : Reader) {n : Nat} (short : r.bytes.length < n) :
    (r.readExact n).1 = none := by
  rw [readExact, if_neg (by omega)]
  split
  · rfl
  · next present =>
    have long := List.length_pos_iff.mpr present
    have split := congrArg List.length (r.read_bytes n)
    rw [List.length_append] at split
    have less : (r.read n).2.bytes.length < n - (r.read n).1.length := by omega
    dsimp only
    rw [readExact_short _ less, Option.map_none]
termination_by n
decreasing_by omega

theorem Reader.readExact_cases (r : Reader) (n : Nat) :
    (∃ after : Reader, r.readExact n = (some (r.bytes.take n), after) ∧
      after.bytes = r.bytes.drop n ∧ n ≤ r.bytes.length) ∨
    (∃ after : Reader, r.readExact n = (none, after) ∧ r.bytes.length < n) := by
  by_cases enough : n ≤ r.bytes.length
  · have held : r.bytes = r.bytes.take n ++ r.bytes.drop n := (List.take_append_drop _ _).symm
    have filled := r.readExact_append held
    rw [List.length_take_of_le enough] at filled
    exact .inl ⟨_, Prod.ext filled.1 rfl, filled.2, enough⟩
  · have short := Nat.lt_of_not_le enough
    exact .inr ⟨_, Prod.ext (r.readExact_short short) rfl, short⟩

theorem Reader.readExact_end {r : Reader} (ended : r.bytes = []) {n : Nat} (some : 0 < n) :
    (r.readExact n).1 = none ∧ (r.readExact n).2.bytes = [] := by
  obtain ⟨nothing, left⟩ := read_end ended n
  rw [readExact, if_neg (Nat.pos_iff_ne_zero.mp some), if_pos nothing]
  exact ⟨rfl, left⟩

end ByteReader
