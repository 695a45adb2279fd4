import Mathlib.Data.List.Basic

/-! The bracket and string structure of JSON text.

A scan follows bracket depth and strings, and stops at a comma or a closing
bracket that belongs to the text around the value. Texts it reads to the end
can be joined by commas, and the joined text splits in one way only.
-/

set_option autoImplicit false

namespace Json

inductive Mode where
  | outside
  | string
  | escape
  deriving DecidableEq

structure Scan where
  depth : Nat := 0
  mode : Mode := .outside
  deriving DecidableEq

/-- One character; `none` where it ends or separates the text being read. -/
def Scan.next (s : Scan) (ch : Char) : Option Scan :=
  match s.mode with
  | .escape => some { s with mode := .string }
  | .string =>
    if ch = '"' then some { s with mode := .outside }
    else if ch = '\\' then some { s with mode := .escape }
    else some s
  | .outside =>
    if ch = '"' then some { s with mode := .string }
    else if ch = '[' ∨ ch = '{' then some { s with depth := s.depth + 1 }
    else if ch = ']' ∨ ch = '}' then
      if s.depth = 0 then none else some { s with depth := s.depth - 1 }
    else if ch = ',' ∧ s.depth = 0 then none
    else some s

def Scan.through (s : Scan) : List Char → Option Scan
  | [] => some s
  | ch :: rest => (s.next ch).bind fun t => t.through rest

/-- A text whose brackets and strings close and which has no comma outside them. -/
def Closed (text : List Char) : Prop := ({} : Scan).through text = some {}

instance (text : List Char) : Decidable (Closed text) :=
  inferInstanceAs (Decidable (_ = _))

theorem Scan.through_append (s : Scan) (first rest : List Char) :
    s.through (first ++ rest) = (s.through first).bind fun t => t.through rest := by
  induction first generalizing s with
  | nil => rfl
  | cons ch first ih =>
    rw [List.cons_append, through, through, Option.bind_assoc]
    exact Option.bind_congr fun t _ => ih t

theorem Closed.append {first rest : List Char} (left : Closed first) (right : Closed rest) :
    Closed (first ++ rest) := by
  rw [Closed, Scan.through_append, left]
  exact right

/-- What is read at some depth is read at any greater depth. -/
theorem Scan.next_deeper {s t : Scan} {ch : Char} (read : s.next ch = some t) (more : Nat) :
    ({ s with depth := s.depth + more } : Scan).next ch =
      some { t with depth := t.depth + more } := by
  obtain ⟨depth, mode⟩ := s
  cases mode with
  | escape =>
    cases read
    rfl
  | string =>
    simp only [next] at read ⊢
    split at read
    · next quote =>
      rw [if_pos quote]
      cases read
      rfl
    · next inside =>
      rw [if_neg inside]
      split at read
      · next backslash =>
        rw [if_pos backslash]
        cases read
        rfl
      · next plain =>
        rw [if_neg plain]
        cases read
        rfl
  | outside =>
    simp only [next] at read ⊢
    split at read
    · next quote =>
      rw [if_pos quote]
      cases read
      rfl
    next plain =>
    rw [if_neg plain]
    split at read
    · next opens =>
      rw [if_pos opens]
      cases read
      simp only [Nat.add_right_comm]
    next level =>
    rw [if_neg level]
    split at read
    · next closes =>
      rw [if_pos closes]
      split at read
      · cases read
      · next inside =>
        rw [if_neg (by omega)]
        cases read
        simp only [Option.some.injEq, Scan.mk.injEq, and_true]
        omega
    next inner =>
    rw [if_neg inner]
    split at read
    · cases read
    · next comma =>
      -- Only at depth zero does a comma end what is read, and there it would not have been read.
      rw [if_neg fun both => comma ⟨both.1, by omega⟩]
      cases read
      rfl

theorem Scan.through_deeper {s t : Scan} {text : List Char} (read : s.through text = some t)
    (more : Nat) :
    ({ s with depth := s.depth + more } : Scan).through text =
      some { t with depth := t.depth + more } := by
  induction text generalizing s with
  | nil =>
    cases read
    rfl
  | cons ch text ih =>
    obtain ⟨u, first, rest⟩ := Option.bind_eq_some_iff.mp read
    rw [through, next_deeper first more, Option.bind_some, ih rest]

theorem Closed.through {text : List Char} (closed : Closed text) (depth : Nat) :
    ({ depth := depth } : Scan).through text = some { depth := depth } := by
  have deeper := Scan.through_deeper closed depth
  simpa using deeper

/-! ## Joining and splitting -/

def join : List (List Char) → List Char
  | [] => []
  | [text] => text
  | text :: rest => text ++ ',' :: join rest

theorem join_cons (text : List Char) {rest : List (List Char)} (more : rest ≠ []) :
    join (text :: rest) = text ++ ',' :: join rest := by
  cases rest with
  | nil => exact absurd rfl more
  | cons next rest => rfl

theorem join_eq_intercalate (texts : List (List Char)) : join texts = [','].intercalate texts := by
  induction texts with
  | nil => rfl
  | cons text rest ih =>
    cases rest with
    | nil => simp [join]
    | cons next rest => simp [join, ih, List.intercalate]

-- The pieces between the commas that stand outside every bracket and string.
def splitTop (s : Scan) : List Char → List (List Char)
  | [] => [[]]
  | ch :: rest =>
    match s.next ch with
    | none => [] :: splitTop s rest
    | some t => ((splitTop t rest).head?.getD []).cons ch :: (splitTop t rest).tail

theorem splitTop_append {s : Scan} {text : List Char} (read : s.through text = some {})
    (rest : List Char) : splitTop s (text ++ ',' :: rest) = text :: splitTop {} rest := by
  induction text generalizing s with
  | nil =>
    cases read
    rfl
  | cons ch text ih =>
    obtain ⟨t, first, later⟩ := Option.bind_eq_some_iff.mp read
    simp only [List.cons_append, splitTop, first, ih later, List.head?_cons, Option.getD_some,
      List.tail_cons]

theorem splitTop_closed {s : Scan} {text : List Char} (read : s.through text = some {}) :
    splitTop s text = [text] := by
  induction text generalizing s with
  | nil => rfl
  | cons ch text ih =>
    obtain ⟨t, first, later⟩ := Option.bind_eq_some_iff.mp read
    simp only [splitTop, first, ih later, List.head?_cons, Option.getD_some, List.tail_cons]

theorem splitTop_join {texts : List (List Char)} (some : texts ≠ [])
    (closed : ∀ text ∈ texts, Closed text) : splitTop {} (join texts) = texts := by
  induction texts with
  | nil => exact absurd rfl some
  | cons text rest ih =>
    have first : Closed text := closed text List.mem_cons_self
    by_cases more : rest = []
    · subst more
      exact splitTop_closed first
    · rw [join_cons text more, splitTop_append first,
        ih more fun text member => closed text (List.mem_cons_of_mem _ member)]

/-- Joined texts determine the texts. -/
theorem join_injective {first second : List (List Char)} (some : first ≠ [])
    (some' : second ≠ []) (closed : ∀ text ∈ first, Closed text)
    (closed' : ∀ text ∈ second, Closed text) (same : join first = join second) :
    first = second := by
  rw [← splitTop_join some closed, ← splitTop_join some' closed', same]

theorem through_join {texts : List (List Char)} (closed : ∀ text ∈ texts, Closed text)
    (depth : Nat) :
    ({ depth := depth + 1 } : Scan).through (join texts) = some { depth := depth + 1 } := by
  induction texts with
  | nil => rfl
  | cons text rest ih =>
    have first : Closed text := closed text List.mem_cons_self
    have later := ih fun text member => closed text (List.mem_cons_of_mem _ member)
    by_cases more : rest = []
    · subst more
      exact first.through _
    · rw [join_cons text more, Scan.through_append, first.through, Option.bind_some, Scan.through,
        show ({ depth := depth + 1 } : Scan).next ',' = some { depth := depth + 1 } by
          simp [Scan.next],
        Option.bind_some, later]

theorem closed_brackets {texts : List (List Char)} (closed : ∀ text ∈ texts, Closed text) :
    Closed ('[' :: join texts ++ [']']) := by
  rw [Closed, List.cons_append, Scan.through, show ({} : Scan).next '[' = some { depth := 0 + 1 }
    from rfl, Option.bind_some, Scan.through_append, through_join closed]
  rfl

theorem closed_braces {texts : List (List Char)} (closed : ∀ text ∈ texts, Closed text) :
    Closed ('{' :: join texts ++ ['}']) := by
  rw [Closed, List.cons_append, Scan.through, show ({} : Scan).next '{' = some { depth := 0 + 1 }
    from rfl, Option.bind_some, Scan.through_append, through_join closed]
  rfl

example : splitTop {} "1,[2,3],\"a,b\"".toList = ["1".toList, "[2,3]".toList, "\"a,b\"".toList] := by
  decide

end Json
