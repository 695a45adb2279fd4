import Mathlib.Algebra.GroupWithZero.Nat
import Mathlib.Data.List.Basic

/-! Texts made of fields, each with a separator after it, and texts with a mark in them.

With a given number of fields, a text is cut in one way exactly when no field
holds the separator.
-/

set_option autoImplicit false

namespace Fields

variable {α : Type} {sep : α}

def ended (sep : α) (fields : List (List α)) : List α := fields.flatMap (· ++ [sep])

theorem ended_cons (sep : α) (field : List α) (fields : List (List α)) :
    ended sep (field :: fields) = field ++ sep :: ended sep fields := by
  rw [ended, List.flatMap_cons, List.append_assoc]
  rfl

theorem ended_append (sep : α) (first rest : List (List α)) :
    ended sep (first ++ rest) = ended sep first ++ ended sep rest :=
  List.flatMap_append

theorem exists_shifted {first second : List α} (inside : sep ∈ first ∨ sep ∈ second) :
    ∃ left right, left ≠ first ∧ left ++ sep :: right = first ++ sep :: second := by
  rcases inside with inside | inside
  · obtain ⟨before, after, rfl⟩ := List.append_of_mem inside
    exact ⟨before, after ++ sep :: second, by simp, by simp⟩
  · obtain ⟨before, after, rfl⟩ := List.append_of_mem inside
    exact ⟨first ++ sep :: before, after, by simp, by simp⟩

theorem exists_other {fields : List (List α)} (two : 2 ≤ fields.length)
    (inside : ∃ field ∈ fields, sep ∈ field) :
    ∃ others : List (List α), others.length = fields.length ∧ others ≠ fields ∧
      ended sep others = ended sep fields := by
  induction fields with
  | nil => simp at two
  | cons first fields ih =>
    cases fields with
    | nil => simp at two
    | cons second rest =>
      by_cases here : sep ∈ first ∨ sep ∈ second
      · obtain ⟨left, right, differs, same⟩ := exists_shifted here
        refine ⟨left :: right :: rest, rfl, fun equal => differs (List.cons.inj equal).1, ?_⟩
        simp only [ended_cons]
        rw [← List.cons_append, ← List.append_assoc, same, List.append_assoc, List.cons_append]
      · -- The field is further on, so that two are left after the first.
        obtain ⟨field, member, held⟩ := inside
        have later : field ∈ rest := by
          rcases List.mem_cons.mp member with rfl | member
          · exact absurd (.inl held) here
          · rcases List.mem_cons.mp member with rfl | member
            · exact absurd (.inr held) here
            · exact member
        have more : 2 ≤ (second :: rest).length := by
          have := List.length_pos_of_mem later
          rw [List.length_cons]
          omega
        obtain ⟨others, long, differs, same⟩ := ih more ⟨field, List.mem_cons_of_mem _ later, held⟩
        refine ⟨first :: others, congrArg (· + 1) long,
          fun equal => differs (List.cons.inj equal).2, ?_⟩
        rw [ended_cons, ended_cons, same]

theorem first_eq {first first' rest rest' : List α} (free : sep ∉ first) (free' : sep ∉ first')
    (same : first ++ sep :: rest = first' ++ sep :: rest') : first = first' ∧ rest = rest' := by
  rcases List.append_eq_append_iff.mp same with ⟨more, rfl, tail⟩ | ⟨more, rfl, tail⟩
  · cases more with
    | nil =>
      rw [List.append_nil]
      exact ⟨rfl, (List.cons.inj tail).2⟩
    | cons head more =>
      obtain ⟨rfl, -⟩ := List.cons.inj tail
      exact absurd (by simp) free'
  · cases more with
    | nil =>
      rw [List.append_nil]
      exact ⟨rfl, (List.cons.inj tail).2.symm⟩
    | cons head more =>
      obtain ⟨rfl, -⟩ := List.cons.inj tail
      exact absurd (by simp) free

theorem count_ended [DecidableEq α] (sep : α) (fields : List (List α)) :
    (ended sep fields).count sep = fields.length + (fields.map (List.count sep)).sum := by
  induction fields with
  | nil => rfl
  | cons field fields ih =>
    rw [ended_cons, List.count_append, List.count_cons_self, ih, List.length_cons, List.map_cons,
      List.sum_cons]
    omega

theorem eq_of_both_free {fields others : List (List α)} (free : ∀ field ∈ fields, sep ∉ field)
    (free' : ∀ field ∈ others, sep ∉ field) (same : ended sep others = ended sep fields) :
    others = fields := by
  induction fields generalizing others with
  | nil =>
    cases others with
    | nil => rfl
    | cons other others => simp [ended] at same
  | cons field fields ih =>
    cases others with
    | nil => simp [ended] at same
    | cons other others =>
      obtain ⟨here, later⟩ := List.forall_mem_cons.mp free
      obtain ⟨here', later'⟩ := List.forall_mem_cons.mp free'
      rw [ended_cons, ended_cons] at same
      obtain ⟨rfl, rest⟩ := first_eq here' here same
      rw [ih later later' rest]

/-- As many fields with the same text have no more separators to hold. -/
theorem eq_of_free [DecidableEq α] {fields others : List (List α)} (free : ∀ field ∈ fields, sep ∉ field)
    (long : others.length = fields.length) (same : ended sep others = ended sep fields) :
    others = fields := by
  have none : (fields.map (List.count sep)).sum = 0 := by
    rw [List.sum_eq_zero_iff_forall_eq_nat]
    intro count member
    obtain ⟨field, inside, rfl⟩ := List.mem_map.mp member
    exact List.count_eq_zero.mpr (free field inside)
  have counted := congrArg (List.count sep) same
  rw [count_ended, count_ended, none, long] at counted
  refine eq_of_both_free free (fun field inside => ?_) same
  have zero : (others.map (List.count sep)).sum = 0 := by omega
  exact List.count_eq_zero.mp (List.sum_eq_zero_iff_forall_eq_nat.mp zero _ (List.mem_map_of_mem inside))

/-- A mark whose first character does not come again in it is found where it stands,
unless it stands earlier. -/
theorem dropInfix?_mark [DecidableEq α] {first : α} {mark before : List α} (rest : List α)
    (fresh : first ∉ mark) (free : ¬ first :: mark <:+: before) :
    (before ++ (first :: mark) ++ rest).dropInfix? (first :: mark) = some (before, rest) := by
  apply List.dropInfix?_eq_some_iff.mpr
  refine ⟨⟨first :: mark, rfl, beq_self_eq_true _⟩, fun earlier found after same equal => ?_⟩
  obtain rfl : found = first :: mark := eq_of_beq equal
  by_contra shorter
  rw [List.append_assoc, List.append_assoc] at same
  rcases List.append_eq_append_iff.mp same with ⟨gap, longer, -⟩ | ⟨gap, split, shared⟩
  · rw [longer, List.length_append] at shorter
    omega
  -- The earlier mark begins in `before`; either it ends there or it overlaps the other one.
  rcases List.append_eq_append_iff.mp shared with ⟨past, within, -⟩ | ⟨past, overlap, next⟩
  · exact free ⟨earlier, past, by rw [split, within, List.append_assoc]⟩
  · cases gap with
    | nil =>
      rw [split, List.append_nil] at shorter
      exact shorter (Nat.le_refl _)
    | cons head gap =>
      obtain ⟨-, tail⟩ := List.cons.inj overlap
      cases past with
      | nil =>
        rw [List.append_nil] at overlap
        exact free ⟨earlier, [], by rw [split, List.append_nil, overlap]⟩
      | cons again past =>
        obtain ⟨rfl, -⟩ := List.cons.inj next
        exact fresh (tail ▸ by simp)
end Fields
