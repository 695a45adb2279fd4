import OpenPair.Library.Transition

/-! A system with an operator, who sees its steps, looks at its states and gives it
inputs of his own between those that come from outside.
-/

set_option autoImplicit false

namespace Operated

open Transition

variable {State Input Output Outside Turn Stage : Type}

structure Operator (State Input Output Outside Turn Stage : Type) where
  /-- What comes from outside, as the system gets it. -/
  deliver : Outside → Input
  hears : Stage → Input → Output → Stage
  /-- A turn of the operator, with an input that he gives. -/
  acts : State → Stage → Turn → Stage × Option Input

structure Watched (State Stage : Type) where
  system : State
  stage : Stage

abbrev Steps (State Input Output Outside Turn Stage : Type) :=
  List (Entry (Watched State Stage) (Outside ⊕ Turn) (Option (Entry State Input Output)))

variable (system : State → Input → State × Output)
  (op : Operator State Input Output Outside Turn Stage)

/-- What the system gets, and the stage that the operator is at then. -/
def Operator.input (x : Watched State Stage) : Outside ⊕ Turn → Stage × Option Input
  | .inl outside => (x.stage, some (op.deliver outside))
  | .inr turn => op.acts x.system x.stage turn

/-- The step that the system takes in an event, if it takes one. -/
def Operator.step (x : Watched State Stage) (event : Outside ⊕ Turn) :
    Watched State Stage × Option (Entry State Input Output) :=
  match op.input x event with
  | (stage, none) => (⟨x.system, stage⟩, none)
  | (stage, some input) =>
    (⟨(system x.system input).1, op.hears stage input (system x.system input).2⟩,
      some (entry system x.system input))

section

variable {system op} {x : Watched State Stage} {turn : Turn} {next : Stage} {input : Input}

theorem step_quiet (acts : op.acts x.system x.stage turn = (next, none)) :
    op.step system x (.inr turn) = (⟨x.system, next⟩, none) := by
  simp only [Operator.step, Operator.input, acts]

theorem step_gives (acts : op.acts x.system x.stage turn = (next, some input)) :
    (op.step system x (.inr turn)).1 = ⟨(system x.system input).1,
      op.hears next input (system x.system input).2⟩ := by
  simp only [Operator.step, Operator.input, acts]

end

theorem step_delivers (x : Watched State Stage) (outside : Outside) :
    (op.step system x (.inl outside)).1 = ⟨(system x.system (op.deliver outside)).1,
      op.hears x.stage (op.deliver outside) (system x.system (op.deliver outside)).2⟩ := rfl

def taken (history : Steps State Input Output Outside Turn Stage) : List (Entry State Input Output) :=
  history.filterMap Entry.output

theorem taken_concat (history : Steps State Input Output Outside Turn Stage)
    (e : Entry (Watched State Stage) (Outside ⊕ Turn) (Option (Entry State Input Output))) :
    taken (history ++ [e]) = taken history ++ e.output.toList := by
  rw [taken, List.filterMap_append, taken]
  cases output : e.output with
  | none => simp [output]
  | some inner => simp [output]

section

variable {system op} {P : List (Entry State Input Output) → State → Stage → Prop}

/-- Induction over a run: what the operator's turns and the system's steps keep. -/
theorem run_taken
    (quiet : ∀ history state stage turn next, P history state stage →
      op.acts state stage turn = (next, none) → P history state next)
    (steps : ∀ history state stage event next input, P history state stage →
      op.input ⟨state, stage⟩ event = (next, some input) →
      P (history ++ [entry system state input]) (system state input).1
        (op.hears next input (system state input).2))
    {state : State} {stage : Stage} (start : P [] state stage) (events : List (Outside ⊕ Turn)) :
    P (taken (trace (op.step system) ⟨state, stage⟩ events))
      (run (op.step system) ⟨state, stage⟩ events).system
      (run (op.step system) ⟨state, stage⟩ events).stage := by
  let Q (history : Steps State Input Output Outside Turn Stage) (x : Watched State Stage) : Prop :=
    P (taken history) x.system x.stage
  have first : Q [] ⟨state, stage⟩ := start
  refine run_history (P := Q) ?_ first events
  rintro history ⟨state, stage⟩ event kept
  show P _ _ _
  rw [taken_concat, entry_output, Operator.step]
  match found : op.input ⟨state, stage⟩ event with
  | (next, none) =>
    cases event with
    | inl outside => cases found
    | inr turn => simpa using quiet _ _ _ turn next kept found
  | (next, some input) => simpa using steps _ _ _ event next input kept found

/-- A stretch of a run in which the operator hears nothing. -/
theorem run_unheard {stage : Stage} {events : List Outside} {state : State}
    (unheard : ∀ e ∈ trace system state (events.map op.deliver),
      op.hears stage e.input e.output = stage) :
    run (op.step system) ⟨state, stage⟩ (events.map .inl) =
      ⟨run system state (events.map op.deliver), stage⟩ := by
  induction events generalizing state with
  | nil => rfl
  | cons event events ih =>
    rw [List.map_cons, trace] at unheard
    obtain ⟨first, rest⟩ := List.forall_mem_cons.mp unheard
    have silent : op.hears stage (op.deliver event) (system state (op.deliver event)).2 = stage :=
      first
    rw [List.map_cons, run, List.map_cons, run, Operator.step]
    simp only [Operator.input, silent]
    exact ih rest

end

end Operated
