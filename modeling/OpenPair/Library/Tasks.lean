import Mathlib.Logic.Function.Basic
import OpenPair.Library.Transition

/-! Tasks that share a state and run, each in its turn, from one await point to the next.

The scheduler chooses the order, and with every turn what the awaited operation gives.
-/

set_option autoImplicit false

namespace Tasks

open Transition

/-- The result of one turn: the shared state, the point reached and what is seen of it. -/
structure Turn (Shared Point Seen : Type) where
  shared : Shared
  point : Point
  seen : Seen

/-- A task keeps the call that started it. -/
structure Task (Call Point : Type) where
  call : Call
  point : Point

structure Program (Shared Id Call Point Io Seen : Type) where
  name : Call → Nat → Id
  start : Shared → Call → Turn Shared Point Seen
  advance : Shared → Id → Io → Point → Turn Shared Point Seen

structure Executor (Shared Id Call Point : Type) where
  shared : Shared
  tasks : Id → Option (Task Call Point) := fun _ => none

inductive Event (Id Call Io : Type) where
  | call (serial : Nat) (call : Call)
  | resume (id : Id) (io : Io)

variable {Shared Id Call Point Io Seen : Type}

def Program.id (p : Program Shared Id Call Point Io Seen) : Event Id Call Io → Id
  | .call serial call => p.name call serial
  | .resume id _ => id

variable [DecidableEq Id]

def Executor.put (x : Executor Shared Id Call Point) (id : Id) (call : Call)
    (turn : Turn Shared Point Seen) : Executor Shared Id Call Point :=
  { shared := turn.shared, tasks := Function.update x.tasks id (some ⟨call, turn.point⟩) }

/-- An event for a name in use, or for no task, does nothing. -/
def Program.step (p : Program Shared Id Call Point Io Seen) (x : Executor Shared Id Call Point) :
    Event Id Call Io → Executor Shared Id Call Point × Option Seen
  | .call serial call =>
    match x.tasks (p.name call serial) with
    | some _ => (x, none)
    | none => (x.put (p.name call serial) call (p.start x.shared call),
        some (p.start x.shared call).seen)
  | .resume id io =>
    match x.tasks id with
    | none => (x, none)
    | some task => (x.put id task.call (p.advance x.shared id io task.point),
        some (p.advance x.shared id io task.point).seen)

section

variable {p : Program Shared Id Call Point Io Seen} {x : Executor Shared Id Call Point}

@[simp] theorem put_shared (id : Id) (call : Call) (turn : Turn Shared Point Seen) :
    (x.put id call turn).shared = turn.shared := rfl

@[simp] theorem put_self (id : Id) (call : Call) (turn : Turn Shared Point Seen) :
    (x.put id call turn).tasks id = some ⟨call, turn.point⟩ := Function.update_self _ _ _

theorem put_other {id other : Id} (call : Call) (turn : Turn Shared Point Seen)
    (differs : other ≠ id) : (x.put id call turn).tasks other = x.tasks other :=
  Function.update_of_ne differs _ _

theorem step_call {serial : Nat} {call : Call} (new : x.tasks (p.name call serial) = none) :
    p.step x (.call serial call) = (x.put (p.name call serial) call (p.start x.shared call),
      some (p.start x.shared call).seen) := by
  simp only [Program.step, new]

theorem step_resume {id : Id} {io : Io} {task : Task Call Point} (found : x.tasks id = some task) :
    p.step x (.resume id io) = (x.put id task.call (p.advance x.shared id io task.point),
      some (p.advance x.shared id io task.point).seen) := by
  simp only [Program.step, found]

theorem step_taken {serial : Nat} {call : Call} {task : Task Call Point}
    (taken : x.tasks (p.name call serial) = some task) : p.step x (.call serial call) = (x, none) := by
  simp only [Program.step, taken]

theorem step_unknown {id : Id} {io : Io} (absent : x.tasks id = none) :
    p.step x (.resume id io) = (x, none) := by
  simp only [Program.step, absent]

theorem step_cases (p : Program Shared Id Call Point Io Seen) (x : Executor Shared Id Call Point)
    (event : Event Id Call Io) : p.step x event = (x, none) ∨
      (∃ serial call, event = .call serial call ∧ x.tasks (p.name call serial) = none ∧
        p.step x event = (x.put (p.name call serial) call (p.start x.shared call),
          some (p.start x.shared call).seen)) ∨
      ∃ id io task, event = .resume id io ∧ x.tasks id = some task ∧
        p.step x event = (x.put id task.call (p.advance x.shared id io task.point),
          some (p.advance x.shared id io task.point).seen) := by
  cases event with
  | call serial call =>
    cases found : x.tasks (p.name call serial) with
    | some task => exact .inl (step_taken found)
    | none => exact .inr (.inl ⟨serial, call, rfl, found, step_call found⟩)
  | resume id io =>
    cases found : x.tasks id with
    | none => exact .inl (step_unknown found)
    | some task => exact .inr (.inr ⟨id, io, task, rfl, found, step_resume found⟩)

theorem step_tasks_other {event : Event Id Call Io} {id : Id} (other : id ≠ p.id event) :
    (p.step x event).1.tasks id = x.tasks id := by
  rcases step_cases p x event with idle | ⟨serial, call, rfl, -, started⟩ |
    ⟨turn, io, task, rfl, -, advanced⟩
  · rw [idle]
  · rw [started]
    exact put_other _ _ other
  · rw [advanced]
    exact put_other _ _ other

/-! ## What a turn does to the shared state -/

section

variable {Effect : Type} (p : Program Shared Id Call Point Io Seen)
  (start : Shared → Call → Option Effect) (advance : Shared → Io → Point → Option Effect)

def Program.effect (x : Executor Shared Id Call Point) : Event Id Call Io → Option Effect
  | .call serial call =>
    match x.tasks (p.name call serial) with
    | some _ => none
    | none => start x.shared call
  | .resume id io => (x.tasks id).bind fun task => advance x.shared io task.point

variable {p start advance}

/-- What relates every turn's shared states, by its effect, relates those of every step. -/
theorem step_effect {R : Shared → Option Effect → Shared → Prop} (idle : ∀ s, R s none s)
    (started : ∀ s call, R s (start s call) (p.start s call).shared)
    (advanced : ∀ s id io point, R s (advance s io point) (p.advance s id io point).shared)
    (x : Executor Shared Id Call Point) (event : Event Id Call Io) :
    R x.shared (p.effect start advance x event) (p.step x event).1.shared := by
  cases event with
  | call serial call =>
    cases found : x.tasks (p.name call serial) with
    | some task =>
      have nothing : p.effect start advance x (.call serial call) = none := by
        simp only [Program.effect, found]
      rw [nothing, step_taken found]
      exact idle x.shared
    | none =>
      have whole : p.effect start advance x (.call serial call) = start x.shared call := by
        simp only [Program.effect, found]
      rw [whole, step_call found, put_shared]
      exact started x.shared call
  | resume id io =>
    cases found : x.tasks id with
    | none =>
      have nothing : p.effect start advance x (.resume id io) = none := by
        simp only [Program.effect, found, Option.bind_none]
      rw [nothing, step_unknown found]
      exact idle x.shared
    | some task =>
      have whole : p.effect start advance x (.resume id io) = advance x.shared io task.point := by
        simp only [Program.effect, found, Option.bind_some]
      rw [whole, step_resume found, put_shared]
      exact advanced x.shared id io task.point

end

/-! ## A call that runs alone -/

def Program.alone (p : Program Shared Id Call Point Io Seen) (id : Id)
    (turn : Turn Shared Point Seen) (ios : List Io) : Turn Shared Point Seen :=
  ios.foldl (fun turn io => p.advance turn.shared id io turn.point) turn

def Program.solo (p : Program Shared Id Call Point Io Seen) (serial : Nat) (call : Call)
    (ios : List Io) : List (Event Id Call Io) :=
  .call serial call :: ios.map (.resume (p.name call serial))

@[simp] theorem put_put (id : Id) (first call : Call) (before turn : Turn Shared Point Seen) :
    (x.put id first before).put id call turn = x.put id call turn := by
  simp only [Executor.put, Function.update_idem]

theorem step_put (id : Id) (call : Call) (turn : Turn Shared Point Seen) (io : Io) :
    p.step (x.put id call turn) (.resume id io) =
      (x.put id call (p.advance turn.shared id io turn.point),
        some (p.advance turn.shared id io turn.point).seen) := by
  rw [step_resume (put_self id call turn), put_put, put_shared]

theorem run_put (id : Id) (call : Call) (turn : Turn Shared Point Seen) (ios : List Io) :
    run p.step (x.put id call turn) (ios.map (.resume id)) = x.put id call (p.alone id turn ios) := by
  induction ios generalizing turn with
  | nil => rfl
  | cons io ios ih =>
    rw [List.map_cons, run, step_put, ih]
    rfl

theorem run_solo {serial : Nat} {call : Call} (new : x.tasks (p.name call serial) = none)
    (ios : List Io) : run p.step x (p.solo serial call ios) =
      x.put (p.name call serial) call
        (p.alone (p.name call serial) (p.start x.shared call) ios) := by
  rw [Program.solo, run, step_call new, run_put]

end

end Tasks
