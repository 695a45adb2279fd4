import Mathlib.Algebra.GroupWithZero.Nat

/-! Calls that return or panic, and arithmetic of 64 bits.

A result that does not fit makes a build with overflow checks panic and is
wrapped by one without. A sum panics or wraps on its way exactly when the exact
sum does not fit.
-/

set_option autoImplicit false

inductive Attempt (α : Type) where
  | returned (value : α)
  | panicked
  deriving DecidableEq

namespace Attempt

variable {α β S : Type}

def map (f : α → β) : Attempt α → Attempt β
  | .returned value => .returned (f value)
  | .panicked => .panicked

def bind (attempt : Attempt α) (next : α → Attempt β) : Attempt β :=
  match attempt with
  | .returned value => next value
  | .panicked => .panicked

instance : Monad Attempt where
  pure := .returned
  bind := bind
  map := map

theorem bind_returned_iff {attempt : Attempt α} {next : α → Attempt β} {value : β} :
    (attempt >>= next) = .returned value ↔
      ∃ first, attempt = .returned first ∧ next first = .returned value := by
  constructor
  · intro returns
    cases attempt with
    | returned first => exact ⟨first, rfl, returns⟩
    | panicked => cases returns
  · rintro ⟨first, rfl, returns⟩
    exact returns

/-! ## Loops -/

-- The values that calls in turn return, without the missing ones.
def filterMap (act : α → Attempt (Option β)) : List α → Attempt (List β)
  | [] => .returned []
  | x :: xs => do
    let value ← act x
    let values ← filterMap act xs
    return value.toList ++ values

theorem filterMap_returned {act : α → Attempt (Option β)} {value : α → Option β} {xs : List α}
    (returns : ∀ x ∈ xs, act x = .returned (value x)) :
    filterMap act xs = .returned (xs.filterMap value) := by
  induction xs with
  | nil => rfl
  | cons x xs ih =>
    obtain ⟨first, rest⟩ := List.forall_mem_cons.mp returns
    rw [filterMap, first, ih rest, List.filterMap_cons]
    cases value x <;> rfl

theorem filterMap_panicked {act : α → Attempt (Option β)} {xs : List α} {x : α}
    (member : x ∈ xs) (panics : act x = .panicked) : filterMap act xs = .panicked := by
  induction xs with
  | nil => cases member
  | cons first xs ih =>
    rw [filterMap]
    rcases List.mem_cons.mp member with rfl | later
    · rw [panics]
      rfl
    · rw [ih later]
      cases act first <;> rfl

theorem mem_of_filterMap {act : α → Attempt (Option β)} {xs : List α} {ys : List β} {y : β}
    (returns : filterMap act xs = .returned ys) (member : y ∈ ys) :
    ∃ x ∈ xs, act x = .returned (some y) := by
  induction xs generalizing ys with
  | nil =>
    cases returns
    cases member
  | cons x xs ih =>
    rw [filterMap, bind_returned_iff] at returns
    obtain ⟨value, first, rest⟩ := returns
    obtain ⟨values, later, same⟩ := bind_returned_iff.mp rest
    cases same
    rcases List.mem_append.mp member with here | there
    · cases Option.mem_toList.mp here
      exact ⟨x, List.mem_cons_self, first⟩
    · obtain ⟨x, within, acted⟩ := ih later there
      exact ⟨x, List.mem_cons_of_mem _ within, acted⟩

theorem foldlM_returned {step : S → α → Attempt S} {next : S → α → S} {xs : List α}
    (returns : ∀ state, ∀ x ∈ xs, step state x = .returned (next state x)) (state : S) :
    xs.foldlM step state = .returned (xs.foldl next state) := by
  induction xs generalizing state with
  | nil => rfl
  | cons x xs ih =>
    have rest : ∀ state, ∀ x ∈ xs, step state x = .returned (next state x) :=
      fun state x later => returns state x (List.mem_cons_of_mem _ later)
    rw [List.foldlM_cons, returns state x List.mem_cons_self]
    exact ih rest (next state x)

theorem foldlM_panicked {step : S → α → Attempt S} {xs : List α} {x : α} (member : x ∈ xs)
    (panics : ∀ state, step state x = .panicked) (state : S) :
    xs.foldlM step state = .panicked := by
  induction xs generalizing state with
  | nil => cases member
  | cons first xs ih =>
    rw [List.foldlM_cons]
    rcases List.mem_cons.mp member with rfl | later
    · rw [panics]
      rfl
    · cases step state first with
      | panicked => rfl
      | returned next => exact ih later next

/-! ## Arithmetic -/

def number (checks : Bool) (n : Nat) : Attempt UInt64 :=
  if n < 2 ^ 64 ∨ checks = false then .returned (.ofNat n) else .panicked

def mul (checks : Bool) (a b : UInt64) : Attempt UInt64 := number checks (a.toNat * b.toNat)

def add (checks : Bool) (a b : UInt64) : Attempt UInt64 := number checks (a.toNat + b.toNat)

-- `Iterator::sum`.
def sum (checks : Bool) (values : List UInt64) : Attempt UInt64 := values.foldlM (add checks) 0

def Exact (attempt : Attempt UInt64) (n : Nat) : Prop :=
  ∃ value, attempt = .returned value ∧ value.toNat = n

theorem Exact.fits {attempt : Attempt UInt64} {n : Nat} (exact : Exact attempt n) : n < 2 ^ 64 := by
  obtain ⟨value, -, rfl⟩ := exact
  exact value.toNat_lt

variable {checks : Bool} {n : Nat}

theorem number_returned (fits : n < 2 ^ 64) : number checks n = .returned (.ofNat n) :=
  if_pos (.inl fits)

theorem number_panicked (long : 2 ^ 64 ≤ n) : number true n = .panicked := by
  apply if_neg
  rintro (fits | unchecked)
  · exact absurd fits (Nat.not_lt_of_le long)
  · cases unchecked

/-- A partial sum is no longer than the whole. -/
theorem foldlM_add (values : List UInt64) {start : UInt64}
    (fits : start.toNat + (values.map UInt64.toNat).sum < 2 ^ 64) :
    Exact (values.foldlM (add checks) start) (start.toNat + (values.map UInt64.toNat).sum) := by
  induction values generalizing start with
  | nil => exact ⟨start, rfl, rfl⟩
  | cons value values ih =>
    rw [List.map_cons, List.sum_cons, ← Nat.add_assoc] at fits ⊢
    have stepFits : start.toNat + value.toNat < 2 ^ 64 := by omega
    have next : (UInt64.ofNat (start.toNat + value.toNat)).toNat = start.toNat + value.toNat :=
      UInt64.toNat_ofNat_of_lt' stepFits
    rw [← next] at fits ⊢
    rw [List.foldlM_cons, add, number_returned stepFits]
    exact ih fits

theorem sum_exact_iff {values : List UInt64} :
    Exact (sum checks values) (values.map UInt64.toNat).sum ↔
      (values.map UInt64.toNat).sum < 2 ^ 64 := by
  constructor
  · exact Exact.fits
  · intro fits
    have start : (0 : UInt64).toNat + (values.map UInt64.toNat).sum =
        (values.map UInt64.toNat).sum := Nat.zero_add _
    rw [← start] at fits ⊢
    exact foldlM_add values fits

end Attempt
