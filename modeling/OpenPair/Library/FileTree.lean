import Mathlib.Logic.Function.Basic

/-! A tree of directories and regular files, and how a POSIX path is followed in it.

The slash is the one separator. A path is followed part by part: an empty part and
`.` stay, `..` goes to the parent, and every part but the last leads through a
directory. Names are the same where they are spelled alike, and there are no links.
-/

set_option autoImplicit false

namespace FileTree

abbrev Name := List Char

abbrev Place := List Name

inductive Entry (α : Type) where
  | dir
  | file (content : α)
  deriving DecidableEq

def Entry.isDir {α : Type} : Entry α → Bool
  | .dir => true
  | .file _ => false

abbrev Files (α : Type) := Place → Option (Entry α)

/-! ## Paths -/

structure Path where
  absolute : Bool
  parts : List Name
  deriving DecidableEq

def posixParts : List Char → List Name
  | [] => [[]]
  | ch :: rest =>
    if ch = '/' then [] :: posixParts rest
    else
      match posixParts rest with
      | [] => [[ch]]
      | part :: parts => (ch :: part) :: parts

theorem posixParts_of_not_mem {text : List Char} (plain : '/' ∉ text) :
    posixParts text = [text] := by
  induction text with
  | nil => rfl
  | cons ch rest ih =>
    rw [List.mem_cons, not_or] at plain
    rw [posixParts, if_neg (Ne.symm plain.1), ih plain.2]

def Path.posix (text : List Char) : Path := ⟨text.head? == some '/', posixParts text⟩

def Path.join (p q : Path) : Path :=
  if q.absolute then q else { p with parts := p.parts ++ q.parts }

def Path.valid (p : Path) : Bool := p.parts.all fun part => !part.contains '\x00'

/-! ## Following a path -/

variable {α : Type}

def Files.isDir (t : Files α) (place : Place) : Bool := (t place).any Entry.isDir

def enter (place : Place) (part : Name) : Place :=
  if part = [] ∨ part = ['.'] then place
  else if part = ['.', '.'] then place.dropLast
  else place ++ [part]

def Files.walk (t : Files α) (place : Place) : List Name → Option Place
  | [] => if t.isDir place then some place else none
  | part :: rest => if t.isDir place then t.walk (enter place part) rest else none

def Path.start (cwd : Place) (p : Path) : Place := if p.absolute then [] else cwd

/-- The place of the file a path names, where one can be written. -/
def Files.target (t : Files α) (cwd : Place) (p : Path) : Option Place :=
  if p.valid = false then none
  else
    match p.parts.getLast? with
    | none => none
    | some last =>
      if last = [] ∨ last = ['.'] ∨ last = ['.', '.'] then none
      else
        match t.walk (p.start cwd) p.parts.dropLast with
        | none => none
        | some place => if t.isDir (place ++ [last]) then none else some (place ++ [last])

/-- Write a file; `false` where the path cannot be written. -/
def Files.write (t : Files α) (cwd : Place) (p : Path) (content : α) : Files α × Bool :=
  match t.target cwd p with
  | none => (t, false)
  | some place => (Function.update t place (some (.file content)), true)

/-- Make the missing directories along the parts; `false` where a file is in the way. -/
def Files.makeDirs (t : Files α) (place : Place) : List Name → Files α × Bool
  | [] => (t, t.isDir place)
  | part :: rest =>
    match t (enter place part) with
    | none => Files.makeDirs (Function.update t (enter place part) (some .dir)) (enter place part) rest
    | some .dir => t.makeDirs (enter place part) rest
    | some (.file _) => (t, false)

/-- `create_dir_all`. -/
def Files.createDirs (t : Files α) (cwd : Place) (p : Path) : Files α × Bool :=
  if p.valid = false then (t, false) else t.makeDirs (p.start cwd) p.parts

def Files.place (t : Files α) (cwd : Place) (p : Path) : Option Place :=
  if p.valid = false then none else t.walk (p.start cwd) p.parts

def Files.lookup (t : Files α) (cwd : Place) (p : Path) : Option (Entry α) :=
  if p.valid = false then none
  else
    match p.parts.getLast? with
    | none => none
    | some last =>
      (t.walk (p.start cwd) p.parts.dropLast).bind fun place => t (enter place last)

def Path.child (dir : Path) (name : Name) : Path := dir.join ⟨false, [name]⟩

/-- A name that a directory can hold. -/
structure Normal (name : Name) : Prop where
  some : name ≠ []
  here : name ≠ ['.']
  parent : name ≠ ['.', '.']
  valid : name.contains '\x00' = false

/-! ## Lemmas -/

theorem Files.walk_append (t : Files α) (place : Place) (first rest : List Name) :
    t.walk place (first ++ rest) = (t.walk place first).bind fun place => t.walk place rest := by
  induction first generalizing place with
  | nil =>
    rw [List.nil_append, walk]
    split
    · rfl
    · next closed =>
      cases rest with
      | nil => rw [walk, if_neg closed, Option.bind_none]
      | cons part rest => rw [walk, if_neg closed, Option.bind_none]
  | cons part first ih =>
    rw [List.cons_append, walk, walk]
    split
    · exact ih _
    · rfl

theorem Files.isDir_of_walk {t : Files α} {place base : Place} {parts : List Name}
    (walked : t.walk place parts = some base) : t.isDir place = true ∧ t.isDir base = true := by
  induction parts generalizing place with
  | nil =>
    rw [walk] at walked
    split at walked
    · next opened =>
      cases walked
      exact ⟨opened, opened⟩
    · cases walked
  | cons part rest ih =>
    rw [walk] at walked
    split at walked
    · next opened => exact ⟨opened, (ih walked).2⟩
    · cases walked

theorem Files.walk_mono {t u : Files α} (more : ∀ p, t.isDir p = true → u.isDir p = true)
    {place base : Place} {parts : List Name} (walked : t.walk place parts = some base) :
    u.walk place parts = some base := by
  induction parts generalizing place with
  | nil =>
    have opened := (isDir_of_walk walked).1
    rw [walk, if_pos opened] at walked
    rw [walk, if_pos (more _ opened), walked]
  | cons part rest ih =>
    have opened := (isDir_of_walk walked).1
    rw [walk, if_pos opened] at walked
    rw [walk, if_pos (more _ opened), ih walked]

theorem Files.walk_congr {t u : Files α} (same : ∀ p, u.isDir p = t.isDir p) (place : Place)
    (parts : List Name) : u.walk place parts = t.walk place parts := by
  induction parts generalizing place with
  | nil => rw [walk, walk, same]
  | cons part rest ih => rw [walk, walk, same, ih]

theorem Files.eq_dir {t : Files α} {place : Place} (held : t.isDir place = true) :
    t place = some .dir := by
  unfold isDir at held
  cases found : t place with
  | none => simp [found] at held
  | some entry =>
    cases entry with
    | dir => rfl
    | file content => simp [found, Entry.isDir] at held

theorem Files.makeDirs_walk {t : Files α} {place base : Place} {parts : List Name}
    (walked : t.walk place parts = some base) (rest : List Name) :
    t.makeDirs place (parts ++ rest) = t.makeDirs base rest := by
  induction parts generalizing place with
  | nil =>
    rw [walk] at walked
    split at walked
    · cases walked
      rfl
    · cases walked
  | cons part parts ih =>
    have opened := (isDir_of_walk walked).1
    rw [walk, if_pos opened] at walked
    have next := (isDir_of_walk walked).1
    rw [List.cons_append, makeDirs]
    -- The next place is a directory, so that nothing is made there.
    cases held : t (enter place part) with
    | none => simp [isDir, held] at next
    | some entry =>
      cases entry with
      | dir => exact ih walked
      | file content => simp [isDir, held, Entry.isDir] at next

/-- A relative path is followed from the directory it is joined to. -/
theorem Files.target_join {t : Files α} {cwd base : Place} {p q : Path} (valid : p.valid = true)
    (walked : t.walk (p.start cwd) p.parts = some base) (named : q.parts ≠ []) :
    t.target cwd (p.join q) = t.target base q := by
  unfold Path.join
  cases absolute : q.absolute with
  | true => simp [target, Path.start, absolute]
  | false =>
    have start : Path.start base q = base := by simp [Path.start, absolute]
    have both : ({ p with parts := p.parts ++ q.parts } : Path).valid = q.valid := by
      simp only [Path.valid] at valid ⊢
      rw [List.all_append, valid, Bool.true_and]
    have from' : Path.start cwd ({ p with parts := p.parts ++ q.parts } : Path) = p.start cwd := rfl
    simp only [target, Bool.false_eq_true, if_false, both, from', start,
      List.getLast?_append, List.getLast?_eq_some_getLast named, Option.some_or, List.dropLast_append_of_ne_nil named, walk_append,
      walked, Option.bind_some]

theorem Files.target_eq_some {t : Files α} {cwd place : Place} {p : Path}
    (found : t.target cwd p = some place) : ∃ base last, place = base ++ [last] ∧
      p.parts.getLast? = some last ∧ t.walk (p.start cwd) p.parts.dropLast = some base ∧
      t.isDir place = false := by
  unfold target at found
  split at found
  · cases found
  split at found
  · cases found
  · next last named =>
    split at found
    · cases found
    split at found
    · cases found
    · next base walked =>
      split at found
      · cases found
      · next free =>
        cases found
        exact ⟨base, last, rfl, named, walked, by simpa using free⟩

/-! ## Entries of a directory -/

theorem enter_normal {name : Name} (normal : Normal name) (place : Place) :
    enter place name = place ++ [name] := by
  simp [enter, normal.some, normal.here, normal.parent]

theorem Path.child_parts (dir : Path) (name : Name) : (dir.child name).parts = dir.parts ++ [name] :=
  rfl

theorem Path.child_start (dir : Path) (name : Name) (cwd : Place) :
    (dir.child name).start cwd = dir.start cwd := rfl

theorem Path.child_valid {name : Name} (normal : Normal name) (dir : Path) :
    (dir.child name).valid = dir.valid := by
  rw [valid, child_parts, List.all_append, List.all_cons, List.all_nil, normal.valid]
  simp [valid]

theorem Files.lookup_child {name : Name} (normal : Normal name) (t : Files α) (cwd : Place)
    (dir : Path) :
    t.lookup cwd (dir.child name) = (t.place cwd dir).bind fun base => t (base ++ [name]) := by
  rw [lookup, place, Path.child_valid normal]
  split
  · rfl
  · simp only [Path.child_parts, Path.child_start, List.getLast?_concat, List.dropLast_concat,
      enter_normal normal]

theorem Files.target_child {name : Name} (normal : Normal name) (t : Files α) (cwd : Place)
    (dir : Path) : t.target cwd (dir.child name) =
      (t.place cwd dir).bind fun base =>
        if t.isDir (base ++ [name]) then none else some (base ++ [name]) := by
  have proper : ¬ (name = [] ∨ name = ['.'] ∨ name = ['.', '.']) := by
    simp [normal.some, normal.here, normal.parent]
  rw [target, place, Path.child_valid normal]
  split
  · rfl
  · simp only [Path.child_parts, Path.child_start, List.getLast?_concat, List.dropLast_concat,
      if_neg proper]
    cases t.walk (dir.start cwd) dir.parts <;> rfl

theorem Files.isDir_update {t : Files α} {place : Place} (content : α)
    (free : t.isDir place = false) (p : Place) :
    Files.isDir (Function.update t place (some (.file content))) p = t.isDir p := by
  by_cases here : p = place
  · subst here
    rw [free, isDir, Function.update_self]
    rfl
  · rw [isDir, Function.update_of_ne here, isDir]

theorem Files.place_update {t : Files α} {place : Place} (content : α)
    (free : t.isDir place = false) (cwd : Place) (p : Path) :
    Files.place (Function.update t place (some (.file content))) cwd p = t.place cwd p := by
  unfold Files.place
  split
  · rfl
  · exact walk_congr (isDir_update content free) _ _

theorem Files.target_update {t : Files α} {place : Place} (content : α)
    (free : t.isDir place = false) (cwd : Place) (p : Path) :
    Files.target (Function.update t place (some (.file content))) cwd p = t.target cwd p := by
  have dirs := isDir_update content free
  simp only [target, walk_congr dirs, dirs]

theorem Files.write_ok {t : Files α} {cwd : Place} {p : Path} {content : α}
    (written : (t.write cwd p content).2 = true) : ∃ place, t.target cwd p = some place ∧
      t.isDir place = false ∧
      (t.write cwd p content).1 = Function.update t place (some (.file content)) := by
  unfold write at written ⊢
  cases found : t.target cwd p with
  | none => simp [found] at written
  | some place =>
    obtain ⟨-, -, -, -, -, free⟩ := target_eq_some found
    exact ⟨place, rfl, free, rfl⟩

theorem Files.createDirs_place {t : Files α} {cwd base : Place} {dir : Path}
    (led : t.place cwd dir = some base) : t.createDirs cwd dir = (t, true) := by
  unfold place at led
  split at led
  · cases led
  · next valid =>
    have made := makeDirs_walk led []
    rw [List.append_nil, makeDirs, (isDir_of_walk led).2] at made
    rw [createDirs, if_neg valid, made]

theorem Files.makeDirs_isDir {t : Files α} {place : Place} {parts : List Name}
    (made : (t.makeDirs place parts).2 = true) :
    (t.makeDirs place parts).1.isDir (parts.foldl enter place) = true := by
  induction parts generalizing t place with
  | nil => exact made
  | cons part rest ih =>
    rw [makeDirs] at made ⊢
    cases held : t (enter place part) with
    | none =>
      rw [held] at made
      exact ih made
    | some entry =>
      cases entry with
      | dir =>
        rw [held] at made
        exact ih made
      | file content =>
        rw [held] at made
        cases made

theorem Files.walk_foldl {t : Files α} {place base : Place} {parts : List Name}
    (walked : t.walk place parts = some base) : base = parts.foldl enter place := by
  induction parts generalizing place with
  | nil =>
    rw [walk] at walked
    split at walked
    · exact (Option.some.inj walked).symm
    · cases walked
  | cons part rest ih =>
    rw [walk] at walked
    split at walked
    · exact ih walked
    · cases walked

theorem Files.createDirs_child {t : Files α} {cwd base : Place} {dir : Path} {name : Name}
    (normal : Normal name) (made : (t.createDirs cwd (dir.child name)).2 = true)
    (led : (t.createDirs cwd (dir.child name)).1.place cwd dir = some base) :
    (t.createDirs cwd (dir.child name)).1.isDir (base ++ [name]) = true := by
  unfold place at led
  split at led
  · cases led
  · next valid =>
    have ends := walk_foldl led
    rw [createDirs, if_neg (by rwa [Path.child_valid normal])] at made ⊢
    have isDir := makeDirs_isDir made
    rw [Path.child_parts, List.foldl_append, Path.child_start, ← ends, List.foldl_cons,
      List.foldl_nil, enter_normal normal] at isDir
    exact isDir

theorem Files.makeDirs_file (t : Files α) (place : Place) (parts : List Name) (p : Place)
    (content : α) : (t.makeDirs place parts).1 p = some (.file content) ↔
      t p = some (.file content) := by
  induction parts generalizing t place with
  | nil => rfl
  | cons part rest ih =>
    rw [makeDirs]
    cases held : t (enter place part) with
    | none =>
      rw [ih]
      by_cases here : p = enter place part
      · subst here
        simp [held]
      · rw [Function.update_of_ne here]
    | some entry =>
      cases entry with
      | dir => exact ih t _
      | file _ => rfl

/-- Making directories changes no file. -/
theorem Files.createDirs_file (t : Files α) (cwd : Place) (path : Path) (p : Place) (content : α) :
    (t.createDirs cwd path).1 p = some (.file content) ↔ t p = some (.file content) := by
  rw [createDirs]
  split
  · rfl
  · exact makeDirs_file t _ _ p content

theorem Files.makeDirs_keeps (t : Files α) (place : Place) (parts : List Name) {p : Place}
    (held : t.isDir p = true) : (t.makeDirs place parts).1.isDir p = true := by
  induction parts generalizing t place with
  | nil => exact held
  | cons part rest ih =>
    rw [makeDirs]
    cases found : t (enter place part) with
    | none =>
      apply ih
      by_cases here : p = enter place part
      · subst here
        simp [isDir, Entry.isDir]
      · rwa [isDir, Function.update_of_ne here]
    | some entry =>
      cases entry with
      | dir => exact ih t _ held
      | file _ => exact held

theorem Files.createDirs_keeps (t : Files α) (cwd : Place) (path : Path) {p : Place}
    (held : t.isDir p = true) : (t.createDirs cwd path).1.isDir p = true := by
  rw [createDirs]
  split
  · exact held
  · exact makeDirs_keeps t _ _ held

theorem Files.makeDirs_walks {t : Files α} {place : Place} {parts : List Name}
    (opened : t.isDir place = true) (made : (t.makeDirs place parts).2 = true) :
    (t.makeDirs place parts).1.walk place parts = some (parts.foldl enter place) := by
  induction parts generalizing t place with
  | nil => exact if_pos opened
  | cons part rest ih =>
    rw [walk, if_pos (makeDirs_keeps t place (part :: rest) opened), List.foldl_cons]
    rw [makeDirs] at made ⊢
    cases found : t (enter place part) with
    | none =>
      rw [found] at made
      exact ih (by simp [isDir, Entry.isDir]) made
    | some entry =>
      cases entry with
      | dir =>
        rw [found] at made
        exact ih (by simp [isDir, found, Entry.isDir]) made
      | file _ =>
        rw [found] at made
        cases made

theorem Files.createDirs_walks {t : Files α} {cwd : Place} {dir : Path}
    (opened : t.isDir (dir.start cwd) = true) (made : (t.createDirs cwd dir).2 = true) :
    (t.createDirs cwd dir).1.place cwd dir = some (dir.parts.foldl enter (dir.start cwd)) := by
  unfold createDirs at made ⊢
  unfold place
  split at made
  · cases made
  · next valid =>
    rw [if_neg valid, if_neg valid]
    exact makeDirs_walks opened made

end FileTree
