import Mathlib.Data.List.Basic

/-! Looking under several keys, one after the other, by a search that sees one
value of a key where it may have more.
-/

set_option autoImplicit false

namespace FirstOf

variable {K A : Type}

/-- The answer is a value of the first key that has one, and none where no key has. -/
structure Answers (has : K → A → Prop) (keys : List K) (answer : Option A) : Prop where
  value : ∀ before key after, keys = before ++ key :: after →
    (∀ other ∈ before, ∀ b, ¬ has other b) → (∃ b, has key b) → ∃ a, answer = some a ∧ has key a
  absent : (∀ key ∈ keys, ∀ a, ¬ has key a) → answer = none

/-- Of some keys one value is shown. From the first key that has a value on, the first
key that shows one shows a value of that key. -/
def Covered (has shown : K → A → Prop) (keys : List K) : Prop :=
  ∀ before key after, keys = before ++ key :: after → (∀ other ∈ before, ∀ b, ¬ has other b) →
    (∃ b, has key b) → ∃ middle found rest a, key :: after = middle ++ found :: rest ∧
      (∀ other ∈ middle, ∀ b, ¬ shown other b) ∧ shown found a ∧ has key a

variable {has shown : K → A → Prop} {search : K → Option A}

theorem search_eq_none (exact : ∀ key a, search key = some a ↔ shown key a) {key : K} :
    search key = none ↔ ∀ a, ¬ shown key a := by
  simp only [Option.eq_none_iff_forall_ne_some, ne_eq, exact]

/-- A search for what is shown answers rightly exactly when the keys are covered. -/
theorem answers_iff (exact : ∀ key a, search key = some a ↔ shown key a)
    (sound : ∀ key a, shown key a → has key a) (keys : List K) :
    Answers has keys (keys.findSome? search) ↔ Covered has shown keys := by
  have without {key : K} (nothing : ∀ a, ¬ has key a) : search key = none :=
    (search_eq_none exact).mpr fun a shows => nothing a (sound key a shows)
  have skip {before after : List K} {key : K} (split : keys = before ++ key :: after)
      (nothing : ∀ other ∈ before, ∀ b, ¬ has other b) :
      keys.findSome? search = (key :: after).findSome? search := by
    have nothing : before.findSome? search = none :=
      List.findSome?_eq_none_iff.mpr fun other member => without (nothing other member)
    rw [split, List.findSome?_append, nothing, Option.none_or]
  constructor
  · intro answers before key after split nothing some
    obtain ⟨a, found, holds⟩ := answers.value before key after split nothing some
    rw [skip split nothing] at found
    obtain ⟨middle, other, rest, same, value, passed⟩ := List.findSome?_eq_some_iff.mp found
    exact ⟨middle, other, rest, a, same,
      fun skipped member => (search_eq_none exact).mp (passed skipped member),
      (exact other a).mp value, holds⟩
  · intro covered
    refine ⟨fun before key after split nothing some => ?_, fun nothing => ?_⟩
    · obtain ⟨middle, other, rest, a, same, passed, value, holds⟩ :=
        covered before key after split nothing some
      refine ⟨a, ?_, holds⟩
      rw [skip split nothing]
      exact List.findSome?_eq_some_iff.mpr ⟨middle, other, rest, same, (exact other a).mpr value,
        fun skipped member => (search_eq_none exact).mpr (passed skipped member)⟩
    · exact List.findSome?_eq_none_iff.mpr fun key member => without (nothing key member)

end FirstOf
