import OpenPair.Library.Transition

/-! Two runs that one observer cannot tell apart.

The observer has a view of the state and sees the outputs of its own inputs. An
input that is not its own keeps its view; one of its own acts on the view, given
what it asks of the rest of the state.
-/

set_option autoImplicit false

namespace Unwinding

open Transition

variable {State Input Output Answer : Type}

/-- The observer's own inputs, each with what was asked when it was read. -/
def dealings (mine : Input → Prop) [DecidablePred mine] (ask : State → Input → Answer)
    (history : List (Entry State Input Output)) : List (Input × Answer) :=
  (history.filter fun e => mine e.input).map fun e => (e.input, ask e.before e.input)

def answers (mine : Input → Prop) [DecidablePred mine] (history : List (Entry State Input Output)) :
    List Output :=
  (history.filter fun e => mine e.input).map Entry.output

structure Unwinds (step : State → Input → State × Output) (agree : State → State → Prop)
    (invariant : State → Prop) (mine : Input → Prop) (ask : State → Input → Answer) : Prop where
  keep : ∀ {s}, invariant s → ∀ i, invariant (step s i).1
  refl : ∀ s, agree s s
  trans : ∀ {s t u}, agree s t → agree t u → agree s u
  symm : ∀ {s t}, agree s t → agree t s
  other : ∀ {s i}, invariant s → ¬ mine i → agree (step s i).1 s
  own : ∀ {s t i}, invariant s → invariant t → agree s t → mine i → ask s i = ask t i →
    agree (step s i).1 (step t i).1 ∧ (step s i).2 = (step t i).2

section

variable {step : State → Input → State × Output} {agree : State → State → Prop}
  {invariant : State → Prop} {mine : Input → Prop} [DecidablePred mine]
  {ask : State → Input → Answer} (unwinds : Unwinds step agree invariant mine ask)

theorem dealings_own {s : State} {i : Input} (own : mine i) (rest : List Input) :
    dealings mine ask (trace step s (i :: rest)) =
      (i, ask s i) :: dealings mine ask (trace step (step s i).1 rest) := by
  simp [dealings, trace, own]

theorem dealings_other {s : State} {i : Input} (other : ¬ mine i) (rest : List Input) :
    dealings mine ask (trace step s (i :: rest)) =
      dealings mine ask (trace step (step s i).1 rest) := by
  simp [dealings, trace, other]

theorem answers_own {s : State} {i : Input} (own : mine i) (rest : List Input) :
    answers mine (trace step s (i :: rest)) =
      (step s i).2 :: answers mine (trace step (step s i).1 rest) := by
  simp [answers, trace, own]

theorem answers_other {s : State} {i : Input} (other : ¬ mine i) (rest : List Input) :
    answers mine (trace step s (i :: rest)) = answers mine (trace step (step s i).1 rest) := by
  simp [answers, trace, other]

include unwinds

omit [DecidablePred mine] in
/-- Inputs of others, however many, keep the view. -/
theorem run_others {s : State} (start : invariant s) {inputs : List Input}
    (others : ∀ i ∈ inputs, ¬ mine i) : agree (run step s inputs) s := by
  induction inputs generalizing s with
  | nil => exact unwinds.refl s
  | cons i rest ih =>
    have first : agree (step s i).1 s := unwinds.other start (others i (by simp))
    have after : agree (run step (step s i).1 rest) (step s i).1 :=
      ih (unwinds.keep start i) fun j member => others j (List.mem_cons_of_mem i member)
    exact unwinds.trans after first

/-- Runs in which the observer deals alike answer it alike, whatever the others do. -/
theorem answers_eq {s t : State} (left : invariant s) (right : invariant t) (same : agree s t)
    {first second : List Input}
    (alike : dealings mine ask (trace step s first) = dealings mine ask (trace step t second)) :
    answers mine (trace step s first) = answers mine (trace step t second) ∧
      agree (run step s first) (run step t second) := by
  -- By induction on the one run; where the observer deals, by a second one on the inputs that
  -- come before it in the other.
  induction first generalizing s t second with
  | nil =>
    induction second generalizing t with
    | nil => exact ⟨rfl, same⟩
    | cons j second ih =>
      by_cases own : mine j
      · rw [dealings_own own] at alike
        cases alike
      · rw [dealings_other own] at alike
        rw [answers_other own]
        have skipped := unwinds.trans same (unwinds.symm (unwinds.other right own))
        exact ih (unwinds.keep right j) skipped alike
  | cons i first ih =>
    by_cases own : mine i
    · -- The other run reaches the same input after some that are not the observer's.
      induction second generalizing t with
      | nil =>
        rw [dealings_own own] at alike
        cases alike
      | cons j second skip =>
        by_cases other : mine j
        · rw [dealings_own own, dealings_own other, List.cons.injEq, Prod.mk.injEq] at alike
          obtain ⟨⟨rfl, asked⟩, rest⟩ := alike
          obtain ⟨next, output⟩ := unwinds.own left right same own asked
          obtain ⟨outputs, final⟩ := ih (unwinds.keep left i) (unwinds.keep right i) next rest
          rw [answers_own own, answers_own own, output, outputs]
          exact ⟨rfl, final⟩
        · rw [dealings_other other] at alike
          rw [answers_other other]
          have skipped := unwinds.trans same (unwinds.symm (unwinds.other right other))
          exact skip (unwinds.keep right j) skipped alike
    · rw [dealings_other own] at alike
      rw [answers_other own]
      have skipped := unwinds.trans (unwinds.other left own) same
      exact ih (unwinds.keep left i) right skipped alike

end

end Unwinding
