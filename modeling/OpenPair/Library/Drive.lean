import Mathlib.Data.Nat.Basic

/-! Loops that feed a step with one input after the other until it gives a result.

The inputs are a stream that the other side chooses; a loop is run with fuel.
-/

set_option autoImplicit false

namespace Drive

variable {State Input Result : Type}

def drive (step : State → Input → State × Option Result) (inputs : Nat → Input) :
    Nat → Nat → State → Option (State × Result)
  | 0, _, _ => none
  | fuel + 1, round, s =>
    match step s (inputs round) with
    | (s, some result) => some (s, result)
    | (s, none) => drive step inputs fuel (round + 1) s

def reached (step : State → Input → State × Option Result) (inputs : Nat → Input) (s : State) :
    Nat → State
  | 0 => s
  | round + 1 => (step (reached step inputs s round) (inputs round)).1

def Continues (step : State → Input → State × Option Result) (inputs : Nat → Input) (s : State)
    (round : Nat) : Prop :=
  (step (reached step inputs s round) (inputs round)).2 = none

variable {step : State → Input → State × Option Result} {inputs : Nat → Input} {s : State}

theorem drive_eq_none_iff (fuel round : Nat) :
    drive step inputs fuel round (reached step inputs s round) = none ↔
      ∀ k, round ≤ k → k < round + fuel → Continues step inputs s k := by
  induction fuel generalizing round with
  | zero => exact iff_of_true rfl fun k least below => by omega
  | succ fuel ih =>
    have next : reached step inputs s (round + 1) =
      (step (reached step inputs s round) (inputs round)).1 := rfl
    rw [drive]
    split
    · next after result stepped =>
      refine iff_of_false (Option.some_ne_none _) fun every => ?_
      have continues := every round (Nat.le_refl _) (by omega)
      rw [Continues, stepped] at continues
      cases continues
    · next after stepped =>
      have first : Continues step inputs s round := by rw [Continues, stepped]
      rw [stepped] at next
      rw [show after = reached step inputs s (round + 1) from next.symm, ih (round + 1)]
      constructor
      · intro rest k least below
        rcases Nat.eq_or_lt_of_le least with rfl | later
        · exact first
        · exact rest k later (by omega)
      · exact fun every k least below => every k (by omega) (by omega)

/-- A loop ends within its fuel exactly when some round gives a result. -/
theorem drive_isSome_iff (fuel : Nat) : (drive step inputs fuel 0 s).isSome = true ↔
    ∃ k < fuel, ¬ Continues step inputs s k := by
  have endless : drive step inputs fuel 0 s = none ↔
      ∀ k, 0 ≤ k → k < 0 + fuel → Continues step inputs s k := drive_eq_none_iff fuel 0
  rw [Option.isSome_iff_ne_none, Ne, endless]
  simp only [Nat.zero_le, Nat.zero_add, forall_const, not_forall, exists_prop]

/-- A loop ends when what it continues with descends in rank. -/
theorem drive_bounded (rank : Nat → Nat) {bound : Nat}
    (top : Continues step inputs s 0 → rank 0 ≤ bound)
    (descends : ∀ k, Continues step inputs s k → Continues step inputs s (k + 1) →
      rank (k + 1) < rank k) : (drive step inputs (bound + 2) 0 s).isSome = true := by
  rw [drive_isSome_iff]
  by_contra endless
  have every {k : Nat} (below : k < bound + 2) : Continues step inputs s k := by
    by_contra stops
    exact endless ⟨k, below, stops⟩
  have low (k : Nat) (below : k < bound + 2) : rank k + k ≤ bound := by
    induction k with
    | zero => exact top (every below)
    | succ k ih =>
      have before := ih (by omega)
      have smaller := descends k (every (by omega)) (every below)
      omega
  have last := low (bound + 1) (by omega)
  omega

/-- A loop that keeps an invariant under which the step gives no result never ends. -/
theorem drive_endless {P : State → Prop}
    (keep : ∀ t k, P t → (step t (inputs k)).2 = none ∧ P (step t (inputs k)).1) (start : P s)
    (fuel : Nat) : drive step inputs fuel 0 s = none := by
  have holds (k : Nat) : P (reached step inputs s k) := by
    induction k with
    | zero => exact start
    | succ k ih => exact (keep _ k ih).2
  exact (drive_eq_none_iff fuel 0).mpr fun k _ _ => (keep _ k (holds k)).1

end Drive
