import Mathlib.Logic.Function.Basic
import OpenPair.Library.Transition

/-! A set of keys and, kept apart from it, flags that say of some keys whether they
are in it.

Keys are put in and flags are written by steps that do not know of each other.
The flags are right all along a run exactly when every key is put in before it
has a flag and every flag is written as the set is then.
-/

set_option autoImplicit false

namespace Mirror

open Transition

variable {K : Type} [DecidableEq K]

structure State (K : Type) where
  held : K → Bool
  flag : K → Option Bool

inductive Update (K : Type) where
  | hold (key : K)
  | write (key : K) (value : Bool)

def State.update (s : State K) : Option (Update K) → State K
  | none => s
  | some (.hold key) => { s with held := Function.update s.held key true }
  | some (.write key value) => { s with flag := Function.update s.flag key (some value) }

def State.Coherent (s : State K) : Prop := ∀ key value, s.flag key = some value → value = s.held key

/-- A key that is put in has no flag; a flag that is written is right. -/
def State.Timely (s : State K) : Option (Update K) → Prop
  | none => True
  | some (.hold key) => s.held key = false → s.flag key = none
  | some (.write key value) => value = s.held key

variable {s : State K}

/-- A right flag stays right when its key was in already, and another key's does. -/
theorem coherent_hold_iff {key : K} (coherent : s.Coherent) :
    (s.update (some (.hold key))).Coherent ↔ s.Timely (some (.hold key)) := by
  constructor
  · intro after out
    cases written : s.flag key with
    | none => rfl
    | some value =>
      have wrong := coherent key value written
      have right : value = Function.update s.held key true key := after key value written
      rw [Function.update_self] at right
      rw [right, out] at wrong
      cases wrong
  · intro timely other value written
    change s.flag other = some value at written
    change value = Function.update s.held key true other
    have right := coherent other value written
    by_cases same : other = key
    · subst same
      rw [Function.update_self]
      cases inside : s.held other with
      | true => exact right.trans inside
      | false =>
        have unwritten := timely inside
        rw [unwritten] at written
        cases written
    · rw [Function.update_of_ne same]
      exact right

theorem coherent_write_iff {key : K} {value : Bool} (coherent : s.Coherent) :
    (s.update (some (.write key value))).Coherent ↔ s.Timely (some (.write key value)) := by
  constructor
  · intro after
    apply after key value
    exact Function.update_self _ _ _
  · intro timely other value' written
    change Function.update s.flag key (some value) other = some value' at written
    by_cases same : other = key
    · subst same
      rw [Function.update_self] at written
      cases written
      exact timely
    · rw [Function.update_of_ne same] at written
      exact coherent other value' written

theorem coherent_update_iff (coherent : s.Coherent) (update : Option (Update K)) :
    (s.update update).Coherent ↔ s.Timely update := by
  cases update with
  | none => exact iff_of_true coherent trivial
  | some update =>
    cases update with
    | hold key => exact coherent_hold_iff coherent
    | write key value => exact coherent_write_iff coherent

/-- Along a run of a system whose steps are updates, the flags are right in every
state exactly when every step is timely. -/
theorem coherent_run_iff {S Input Output : Type} {step : S → Input → S × Output}
    (view : S → State K) {update : S → Input → Option (Update K)}
    (refines : ∀ state input, view (step state input).1 = (view state).update (update state input))
    {state : S} (start : (view state).Coherent) (inputs : List Input) :
    Throughout step (fun s => (view s).Coherent) state inputs ↔
      EveryStep (fun _ e => (view e.before).Timely (update e.before e.input))
        (trace step state inputs) := by
  apply EveryStep.reached_iff (fun s => (view s).Coherent) (fun _ => True) (fun _ _ => True)
    fun s input => (view s).Timely (update s input)
  · intro _ _ _ _ _
    trivial
  · intro state input _ _ coherent
    rw [refines]
    exact coherent_update_iff coherent (update state input)
  · intro _ _ _ _
    trivial
  · trivial
  · exact start

end Mirror
