import Mathlib.Data.List.Basic

/-! Blocks of one size written one after the other, and what they begin with. -/

set_option autoImplicit false

namespace BlockStream

variable {α : Type}

def concat (block : Nat → List α) (count : Nat) : List α := (List.range count).flatMap block

/-- The first elements of all blocks; no more blocks are needed than are taken here. -/
def first (size : Nat) (block : Nat → List α) (count : Nat) : List α :=
  (concat block (count / size + 1)).take count

variable {block : Nat → List α} {size : Nat}

theorem concat_succ (block : Nat → List α) (count : Nat) :
    concat block (count + 1) = block 0 ++ concat (fun i => block (i + 1)) count := by
  rw [concat, concat, List.range_succ_eq_map, List.flatMap_cons, List.flatMap_map]

theorem concat_prefix (block : Nat → List α) {m n : Nat} (le : m ≤ n) :
    concat block m <+: concat block n := by
  obtain ⟨more, rfl⟩ := Nat.exists_eq_add_of_le le
  induction more with
  | zero => exact List.prefix_refl _
  | succ more ih =>
    apply (ih (Nat.le_add_right m more)).trans
    rw [← Nat.add_assoc, concat, concat, List.range_succ, List.flatMap_append]
    exact List.prefix_append _ _

section

variable (sized : ∀ i, (block i).length = size)
include sized

theorem length_concat (count : Nat) : (concat block count).length = size * count := by
  induction count with
  | zero => rfl
  | succ count ih =>
    rw [concat, List.range_succ, List.flatMap_append, List.length_append]
    change (concat block count).length + ([count].flatMap block).length = _
    rw [ih, List.flatMap_singleton, sized, Nat.mul_succ]

theorem take_concat {m n count : Nat} (le : m ≤ n) (enough : count ≤ size * m) :
    (concat block m).take count = (concat block n).take count := by
  obtain ⟨rest, split⟩ := concat_prefix block le
  rw [← split, List.take_append_of_le_length (by rw [length_concat sized]; exact enough)]

theorem first_eq (positive : 0 < size) {count n : Nat} (enough : count ≤ size * n) :
    first size block count = (concat block n).take count := by
  have here : count ≤ size * (count / size + 1) := Nat.le_of_lt (Nat.lt_mul_div_succ count positive)
  -- Of the two sequences of blocks, the shorter one begins the longer one.
  rcases Nat.le_total (count / size + 1) n with le | le
  · exact take_concat sized le here
  · exact (take_concat sized le enough).symm

theorem length_first (positive : 0 < size) (count : Nat) :
    (first size block count).length = count := by
  have here : count ≤ size * (count / size + 1) := Nat.le_of_lt (Nat.lt_mul_div_succ count positive)
  rw [first, List.length_take, length_concat sized, Nat.min_eq_left here]

theorem first_prefix (positive : 0 < size) {m n : Nat} (le : m ≤ n) :
    first size block m <+: first size block n := by
  have long : n ≤ size * (n / size + 1) := Nat.le_of_lt (Nat.lt_mul_div_succ n positive)
  rw [first_eq sized positive (Nat.le_trans le long), first]
  exact List.take_prefix_take_left le

end

end BlockStream
