import OpenPair.Library.Transition

/-! Two systems that take steps in any order and share nothing. -/

set_option autoImplicit false

namespace Interleaving

open Transition

variable {L R I J O Q : Type}

def step (left : L → I → L × O) (right : R → J → R × Q) (both : L × R) :
    I ⊕ J → (L × R) × (O ⊕ Q)
  | .inl input => (((left both.1 input).1, both.2), .inl (left both.1 input).2)
  | .inr input => ((both.1, (right both.2 input).1), .inr (right both.2 input).2)

def lefts (history : List (Entry (L × R) (I ⊕ J) (O ⊕ Q))) : List (Entry L I O) :=
  history.filterMap fun e =>
    match e.input, e.output with
    | .inl input, .inl output => some ⟨e.before.1, input, output, e.after.1⟩
    | _, _ => none

def rights (history : List (Entry (L × R) (I ⊕ J) (O ⊕ Q))) : List (Entry R J Q) :=
  history.filterMap fun e =>
    match e.input, e.output with
    | .inr input, .inr output => some ⟨e.before.2, input, output, e.after.2⟩
    | _, _ => none

variable (left : L → I → L × O) (right : R → J → R × Q)

/-- Each system runs as if it were alone. -/
theorem lefts_trace (both : L × R) (inputs : List (I ⊕ J)) :
    lefts (trace (step left right) both inputs) =
      trace left both.1 (inputs.filterMap Sum.getLeft?) := by
  induction inputs generalizing both with
  | nil => rfl
  | cons input rest ih =>
    cases input with
    | inl input => exact congrArg (List.cons _) (ih _)
    | inr input => exact ih _

theorem rights_trace (both : L × R) (inputs : List (I ⊕ J)) :
    rights (trace (step left right) both inputs) =
      trace right both.2 (inputs.filterMap Sum.getRight?) := by
  induction inputs generalizing both with
  | nil => rfl
  | cons input rest ih =>
    cases input with
    | inl input => exact ih _
    | inr input => exact congrArg (List.cons _) (ih _)

end Interleaving
