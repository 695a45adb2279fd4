import Mathlib.Data.List.Basic
import Mathlib.Data.List.Induction

/-! Runs of a deterministic step function that reads an input and shows an output.

A trace keeps every step as it happened, with the states around it. Facts of
the form "then earlier in that run" are statements about the trace; the rules
below reduce them to one step.
-/

set_option autoImplicit false

namespace Transition

variable {State Input Output : Type}

structure Entry (State Input Output : Type) where
  before : State
  input : Input
  output : Output
  after : State

def entry (step : State → Input → State × Output) (state : State) (input : Input) :
    Entry State Input Output :=
  ⟨state, input, (step state input).2, (step state input).1⟩

def run (step : State → Input → State × Output) (state : State) : List Input → State
  | [] => state
  | input :: rest => run step (step state input).1 rest

def trace (step : State → Input → State × Output) (state : State) :
    List Input → List (Entry State Input Output)
  | [] => []
  | input :: rest => entry step state input :: trace step (step state input).1 rest

def Throughout (step : State → Input → State × Output) (P : State → Prop) (state : State)
    (inputs : List Input) : Prop :=
  ∀ first rest, inputs = first ++ rest → P (run step state first)

variable (step : State → Input → State × Output)

@[simp] theorem entry_before (state : State) (input : Input) :
    (entry step state input).before = state := rfl

@[simp] theorem entry_input (state : State) (input : Input) :
    (entry step state input).input = input := rfl

@[simp] theorem entry_output (state : State) (input : Input) :
    (entry step state input).output = (step state input).2 := rfl

@[simp] theorem entry_after (state : State) (input : Input) :
    (entry step state input).after = (step state input).1 := rfl

theorem run_append (state : State) (first rest : List Input) :
    run step state (first ++ rest) = run step (run step state first) rest := by
  induction first generalizing state with
  | nil => rfl
  | cons input first ih => exact ih _

theorem trace_append (state : State) (first rest : List Input) :
    trace step state (first ++ rest) =
      trace step state first ++ trace step (run step state first) rest := by
  induction first generalizing state with
  | nil => rfl
  | cons input first ih => simp only [List.cons_append, trace, run, ih]

theorem trace_split {state : State} {inputs : List Input}
    {before after : List (Entry State Input Output)} {middle : Entry State Input Output}
    (split : trace step state inputs = before ++ middle :: after) :
    ∃ first input rest, inputs = first ++ input :: rest ∧
      before = trace step state first ∧ middle = entry step (run step state first) input ∧
      after = trace step (step (run step state first) input).1 rest := by
  induction before generalizing state inputs with
  | nil =>
    cases inputs with
    | nil => simp [trace] at split
    | cons input rest =>
      simp only [trace, List.nil_append, List.cons.injEq] at split
      exact ⟨[], input, rest, rfl, rfl, split.1.symm, split.2.symm⟩
  | cons head before ih =>
    cases inputs with
    | nil => simp [trace] at split
    | cons input inputs =>
      simp only [trace, List.cons_append, List.cons.injEq] at split
      obtain ⟨first, next, rest, same, prefixed, found, suffix⟩ := ih split.2
      exact ⟨input :: first, next, rest, by rw [same]; rfl,
        by rw [prefixed, ← split.1]; rfl, found, suffix⟩

theorem mem_trace {state : State} {inputs : List Input} {e : Entry State Input Output}
    (member : e ∈ trace step state inputs) :
    ∃ first input rest, inputs = first ++ input :: rest ∧
      e = entry step (run step state first) input := by
  obtain ⟨before, after, split⟩ := List.append_of_mem member
  obtain ⟨first, input, rest, same, -, found, -⟩ := trace_split step split
  exact ⟨first, input, rest, same, found⟩

theorem run_invariant {P : State → Prop} (keep : ∀ state input, P state → P (step state input).1)
    {state : State} (start : P state) (inputs : List Input) : P (run step state inputs) := by
  induction inputs generalizing state with
  | nil => exact start
  | cons input rest ih => exact ih (keep state input start)

/-- A condition on every step of a history, which may look at the steps before it. -/
def EveryStep (guard : List (Entry State Input Output) → Entry State Input Output → Prop)
    (history : List (Entry State Input Output)) : Prop :=
  ∀ before middle after, history = before ++ middle :: after → guard before middle

variable {step}

theorem EveryStep.nil {guard : List (Entry State Input Output) → Entry State Input Output → Prop} :
    EveryStep guard [] := by
  intro before middle after split
  simp at split

theorem EveryStep.append {guard : List (Entry State Input Output) → Entry State Input Output → Prop}
    {first second : List (Entry State Input Output)} : EveryStep guard (first ++ second) ↔
      EveryStep guard first ∧ EveryStep (fun before e => guard (first ++ before) e) second := by
  constructor
  · intro every
    refine ⟨fun before middle after split => every before middle (after ++ second) ?_,
      fun before middle after split => every (first ++ before) middle after ?_⟩
    · rw [split, List.append_assoc, List.cons_append]
    · rw [split, List.append_assoc]
  · rintro ⟨left, right⟩ before middle after split
    rcases List.append_eq_append_iff.mp split with ⟨more, rfl, rest⟩ | ⟨more, rfl, rest⟩
    · exact right more middle after rest
    · cases more with
      | nil =>
        simp only [List.nil_append] at rest ⊢
        simpa using right [] middle after rest.symm
      | cons head more =>
        obtain ⟨rfl, -⟩ := List.cons.inj rest
        exact left before _ more rfl

theorem EveryStep.singleton
    {guard : List (Entry State Input Output) → Entry State Input Output → Prop}
    {e : Entry State Input Output} : EveryStep guard [e] ↔ guard [] e := by
  constructor
  · intro every
    exact every [] e [] rfl
  · intro holds before middle after split
    rcases List.singleton_eq_append_iff.mp split with ⟨rfl, same⟩ | ⟨-, empty⟩
    · obtain ⟨rfl, -⟩ := List.cons.inj same
      exact holds
    · cases empty

theorem EveryStep.cons {guard : List (Entry State Input Output) → Entry State Input Output → Prop}
    {head : Entry State Input Output} {rest : List (Entry State Input Output)} :
    EveryStep guard (head :: rest) ↔
      guard [] head ∧ EveryStep (fun before e => guard (head :: before) e) rest := by
  rw [← List.singleton_append, EveryStep.append, EveryStep.singleton]
  rfl

theorem EveryStep.concat {guard : List (Entry State Input Output) → Entry State Input Output → Prop}
    {history : List (Entry State Input Output)} {last : Entry State Input Output} :
    EveryStep guard (history ++ [last]) ↔ EveryStep guard history ∧ guard history last := by
  rw [EveryStep.append, EveryStep.singleton, List.append_nil]

theorem EveryStep.later {guard : List (Entry State Input Output) → Entry State Input Output → Prop}
    {first second : List (Entry State Input Output)} (every : EveryStep guard (first ++ second))
    {f e : Entry State Input Output} (earlier : f ∈ first) (member : e ∈ second) :
    ∃ before, f ∈ before ∧ guard before e := by
  obtain ⟨before, after, rfl⟩ := List.append_of_mem member
  exact ⟨first ++ before, List.mem_append_left _ earlier, (EveryStep.append.mp every).2 _ _ _ rfl⟩

theorem EveryStep.of_forall {goal : Entry State Input Output → Prop}
    {history : List (Entry State Input Output)} (every : ∀ e ∈ history, goal e) :
    EveryStep (fun _ e => goal e) history := by
  rintro before middle after rfl
  exact every middle (by simp)

theorem EveryStep.mono {first second : List (Entry State Input Output) →
    Entry State Input Output → Prop} {history : List (Entry State Input Output)}
    (implies : ∀ before middle, first before middle → second before middle)
    (every : EveryStep first history) : EveryStep second history :=
  fun before middle after split => implies before middle (every before middle after split)

theorem EveryStep.congr_trace {first second : List (Entry State Input Output) →
    Entry State Input Output → Prop}
    (agree : ∀ history state input, first history (entry step state input) ↔
      second history (entry step state input)) {state : State} {inputs : List Input} :
    EveryStep first (trace step state inputs) ↔ EveryStep second (trace step state inputs) := by
  constructor
  · intro every before middle after split
    obtain ⟨_, _, _, -, -, rfl, -⟩ := trace_split step split
    exact (agree before _ _).mp (every before _ after split)
  · intro every before middle after split
    obtain ⟨_, _, _, -, -, rfl, -⟩ := trace_split step split
    exact (agree before _ _).mpr (every before _ after split)

/-- Induction over a run with its history: what every step allowed by the
guard preserves holds at the end of every run whose steps all meet it. -/
theorem history_invariant {P : List (Entry State Input Output) → State → Prop}
    {guard : List (Entry State Input Output) → Entry State Input Output → Prop}
    (keep : ∀ history state input, P history state → guard history (entry step state input) →
      P (history ++ [entry step state input]) (step state input).1)
    {state : State} (start : P [] state) (inputs : List Input)
    (every : EveryStep guard (trace step state inputs)) :
    P (trace step state inputs) (run step state inputs) := by
  induction inputs using List.reverseRecOn with
  | nil => exact start
  | append_singleton inputs input ih =>
    rw [trace_append] at every ⊢
    rw [run_append]
    obtain ⟨every, final⟩ := EveryStep.concat.mp every
    exact keep _ _ _ (ih every) final

/-- `history_invariant` for runs without a condition. -/
theorem run_history {P : List (Entry State Input Output) → State → Prop}
    (keep : ∀ history state input, P history state →
      P (history ++ [entry step state input]) (step state input).1)
    {state : State} (start : P [] state) (inputs : List Input) :
    P (trace step state inputs) (run step state inputs) := by
  have every : EveryStep (fun _ _ => True) (trace step state inputs) := fun _ _ _ _ => trivial
  exact history_invariant (fun h s i kept _ => keep h s i kept) start inputs every

/-- What an invariant of the history gives at a step holds at every step of every run. -/
theorem EveryStep.of_invariant {P : List (Entry State Input Output) → State → Prop}
    {guard goal : List (Entry State Input Output) → Entry State Input Output → Prop}
    (keep : ∀ history state input, P history state → guard history (entry step state input) →
      P (history ++ [entry step state input]) (step state input).1)
    (gives : ∀ history state input, P history state → guard history (entry step state input) →
      goal history (entry step state input))
    {state : State} (start : P [] state) (inputs : List Input)
    (every : EveryStep guard (trace step state inputs)) :
    EveryStep goal (trace step state inputs) := by
  intro before middle after split
  obtain ⟨first, input, rest, rfl, rfl, rfl, -⟩ := trace_split step split
  rw [trace_append] at every
  have allowed : EveryStep guard (trace step state first) :=
    fun b m a same => every b m (a ++ trace step (run step state first) (input :: rest))
      (by rw [same, List.append_assoc, List.cons_append])
  exact gives _ _ _ (history_invariant keep start first allowed) (every _ _ _ rfl)

/-- A property holds all along a run exactly when every step meets the condition
under which a step that is allowed keeps it. -/
theorem EveryStep.reached_iff (P I : State → Prop) (allowed guard : State → Input → Prop)
    (keep : ∀ state input, allowed state input → I state → P state → I (step state input).1)
    (exact : ∀ state input, allowed state input → I state → P state →
      (P (step state input).1 ↔ guard state input))
    {state : State} {inputs : List Input}
    (within : EveryStep (fun _ e => allowed e.before e.input) (trace step state inputs))
    (start : I state) (holds : P state) :
    Throughout step P state inputs ↔
      EveryStep (fun _ e => guard e.before e.input) (trace step state inputs) := by
  -- By induction on the inputs, from every state that the invariant and the property hold in.
  induction inputs generalizing state with
  | nil =>
    apply iff_of_true _ EveryStep.nil
    intro first rest same
    rw [(List.append_eq_nil_iff.mp same.symm).1]
    exact holds
  | cons input inputs ih =>
    rw [trace, EveryStep.cons] at within
    obtain ⟨allows, within⟩ := within
    have next := exact state input allows start holds
    have kept := keep state input allows start holds
    rw [trace, EveryStep.cons]
    constructor
    · intro reached
      have after : P (step state input).1 := reached [input] inputs rfl
      constructor
      · exact next.mp after
      · apply (ih within kept after).mp
        intro first rest same
        exact reached (input :: first) rest (by rw [same, List.cons_append])
    · rintro ⟨meets, later⟩ first rest same
      have reached := next.mpr meets
      cases first with
      | nil => exact holds
      | cons head first =>
        obtain ⟨rfl, tail⟩ := List.cons.inj same
        exact (ih within kept reached).mpr later first rest tail

/-- What every step keeps from a kind of state on is kept over every stretch of
the run that starts there, and conversely. -/
theorem EveryStep.stable_iff (step : State → Input → State × Output) {P : State → Prop}
    {R : State → State → Prop} (refl : ∀ s, R s s) (trans : ∀ {a b d}, R a b → R b d → R a d)
    (carries : ∀ {a b}, R a b → P a → P b) (state : State) (inputs : List Input) :
    EveryStep (fun _ e => P e.before → R e.before e.after) (trace step state inputs) ↔
      ∀ first middle rest, inputs = first ++ (middle ++ rest) → P (run step state first) →
        R (run step state first) (run step state (first ++ middle)) := by
  constructor
  · intro every first middle rest same holds
    -- By induction from the end of the stretch, which every step of it has reached.
    induction middle using List.reverseRecOn generalizing rest with
    | nil =>
      rw [List.append_nil]
      exact refl _
    | append_singleton middle input ih =>
      have before := ih (input :: rest) (by rw [same]; simp)
      have split : trace step state inputs = trace step state (first ++ middle) ++
          entry step (run step state (first ++ middle)) input ::
            trace step (step (run step state (first ++ middle)) input).1 rest := by
        rw [same, show first ++ (middle ++ [input] ++ rest) = (first ++ middle) ++ input :: rest by simp,
          trace_append]
        rfl
      have last := every _ _ _ split (carries before holds)
      rw [← List.append_assoc, run_append _ _ (first ++ middle) [input]]
      exact trans before last
  · intro stretch before middle after split holds
    obtain ⟨first, input, rest, same, -, rfl, -⟩ := trace_split step split
    have one := stretch first [input] rest (by rw [same]; rfl) holds
    rw [run_append] at one
    exact one

/-! ## The last step of a kind -/

section

variable {E : Type}

/-- The last step of a kind, in a history. -/
def LastOf (kind : E → Prop) (history : List E) (d : E) : Prop :=
  ∃ earlier later, history = earlier ++ d :: later ∧ kind d ∧ ∀ t ∈ later, ¬ kind t

theorem LastOf.concat_self {kind : E → Prop} (history : List E) {d : E} (holds : kind d) :
    LastOf kind (history ++ [d]) d :=
  ⟨history, [], rfl, holds, fun _ member => (List.not_mem_nil member).elim⟩

theorem LastOf.eq_last {kind : E → Prop} {history : List E} {d e : E}
    (last : LastOf kind (history ++ [e]) d) (holds : kind e) : d = e := by
  obtain ⟨earlier, later, split, -, none⟩ := last
  rcases List.eq_nil_or_concat later with rfl | ⟨front, t, rfl⟩
  · exact (List.cons.inj (List.append_inj' split rfl).2).1.symm
  · rw [List.concat_eq_append, ← List.cons_append, ← List.append_assoc] at split
    have same := (List.cons.inj (List.append_inj' split rfl).2).1
    exact absurd (same ▸ holds) (none t (by simp))

theorem LastOf.concat_other {kind : E → Prop} {history : List E} {d e : E}
    (last : LastOf kind history d) (other : ¬ kind e) : LastOf kind (history ++ [e]) d := by
  obtain ⟨earlier, later, rfl, holds, none⟩ := last
  refine ⟨earlier, later ++ [e], by simp, holds, fun t member => ?_⟩
  rcases List.mem_append.mp member with old | new
  · exact none t old
  · rw [List.mem_singleton.mp new]
    exact other

theorem LastOf.concat_iff {kind : E → Prop} {history : List E} {d e : E} :
    LastOf kind (history ++ [e]) d ↔ (kind e ∧ d = e) ∨ (¬ kind e ∧ LastOf kind history d) := by
  constructor
  · rintro ⟨earlier, later, split, holds, none⟩
    rcases List.eq_nil_or_concat later with rfl | ⟨front, t, rfl⟩
    · obtain ⟨rfl, -⟩ := List.cons.inj (List.append_inj' split rfl).2
      exact .inl ⟨holds, rfl⟩
    · rw [List.concat_eq_append, ← List.cons_append, ← List.append_assoc] at split
      obtain ⟨same, tail⟩ := List.append_inj' split rfl
      obtain ⟨rfl, -⟩ := List.cons.inj tail
      exact .inr ⟨none e (by simp), earlier, front, same, holds,
        fun t member => none t (by simp [member])⟩
  · rintro (⟨holds, rfl⟩ | ⟨other, last⟩)
    · exact LastOf.concat_self history holds
    · exact last.concat_other other

/-- The last step of a kind, with the steps before it. -/
def LastAt (kind : E → Prop) (history earlier : List E) (d : E) : Prop :=
  ∃ later, history = earlier ++ d :: later ∧ kind d ∧ ∀ t ∈ later, ¬ kind t

theorem LastAt.holds {kind : E → Prop} {history earlier : List E} {d : E}
    (last : LastAt kind history earlier d) : kind d := by
  obtain ⟨later, -, holds, -⟩ := last
  exact holds

theorem LastAt.mem {kind : E → Prop} {history earlier : List E} {d : E}
    (last : LastAt kind history earlier d) : d ∈ history := by
  obtain ⟨later, rfl, -⟩ := last
  simp

theorem LastAt.mem_of_mem {kind : E → Prop} {history earlier : List E} {d e : E}
    (last : LastAt kind history earlier d) (member : e ∈ earlier) : e ∈ history := by
  obtain ⟨later, rfl, -⟩ := last
  exact List.mem_append_left _ member

theorem LastAt.concat_self {kind : E → Prop} (history : List E) {d : E} (holds : kind d) :
    LastAt kind (history ++ [d]) history d :=
  ⟨[], rfl, holds, fun _ member => (List.not_mem_nil member).elim⟩

theorem LastAt.concat_other {kind : E → Prop} {history earlier : List E} {d e : E}
    (last : LastAt kind history earlier d) (other : ¬ kind e) :
    LastAt kind (history ++ [e]) earlier d := by
  obtain ⟨later, rfl, holds, none⟩ := last
  refine ⟨later ++ [e], by simp, holds, fun t member => ?_⟩
  rcases List.mem_append.mp member with old | new
  · exact none t old
  · rw [List.mem_singleton.mp new]
    exact other

/-- A further step is the last of its kind, or the last one stays. -/
theorem LastAt.concat_cases {kind : E → Prop} {history earlier : List E} {d e : E}
    (last : LastAt kind (history ++ [e]) earlier d) :
    (kind e ∧ d = e ∧ earlier = history) ∨ (¬ kind e ∧ LastAt kind history earlier d) := by
  obtain ⟨later, split, holds, none⟩ := last
  rcases List.eq_nil_or_concat later with rfl | ⟨front, t, rfl⟩
  · obtain ⟨same, tail⟩ := List.append_inj' split rfl
    obtain ⟨rfl, -⟩ := List.cons.inj tail
    exact .inl ⟨holds, rfl, same.symm⟩
  · rw [List.concat_eq_append, ← List.cons_append, ← List.append_assoc] at split
    obtain ⟨same, tail⟩ := List.append_inj' split rfl
    obtain ⟨rfl, -⟩ := List.cons.inj tail
    exact .inr ⟨none e (by simp), front, same, holds, fun t member => none t (by simp [member])⟩

end

end Transition
