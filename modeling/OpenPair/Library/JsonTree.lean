import OpenPair.Library.JsonCodec

/-! JSON values as trees, their compact text, and reading it with a bound on how
deep arrays and objects may be nested.
-/

set_option autoImplicit false

namespace Json

/-- An integer that fits 64 bits, signed or not. -/
structure Whole where
  value : Int
  lower : -(2 ^ 63) ≤ value
  upper : value < 2 ^ 64
  deriving DecidableEq

def Whole.ofInt? (n : Int) : Option Whole :=
  if fits : -(2 ^ 63) ≤ n ∧ n < 2 ^ 64 then some ⟨n, fits.1, fits.2⟩ else none

theorem Whole.ofInt?_value (n : Whole) : ofInt? n.value = some n := by
  rw [ofInt?, dif_pos ⟨n.lower, n.upper⟩]

/-- A value, the members of an object in their order. The numbers that are no
integers of 64 bits are of a type of their own. -/
inductive Tree (F : Type) where
  | null
  | bool (b : Bool)
  | num (n : Whole)
  | float (x : F)
  | str (s : String)
  | arr (items : List (Tree F))
  | obj (members : List (String × Tree F))

namespace Tree

section

variable {F : Type}

mutual

def depth : Tree F → Nat
  | .null | .bool _ | .num _ | .float _ | .str _ => 0
  | .arr items => depthItems items + 1
  | .obj members => depthMembers members + 1

def depthItems : List (Tree F) → Nat
  | [] => 0
  | item :: rest => max (depth item) (depthItems rest)

def depthMembers : List (String × Tree F) → Nat
  | [] => 0
  | (_, value) :: rest => max (depth value) (depthMembers rest)

end

/-- A tree is inside itself, and inside an array or an object is what is inside
the items or the values. -/
inductive Inside : Tree F → Tree F → Prop where
  | self {tree : Tree F} : Inside tree tree
  | item {inner item : Tree F} {items : List (Tree F)} :
      item ∈ items → Inside inner item → Inside inner (.arr items)
  | member {inner : Tree F} {entry : String × Tree F} {members : List (String × Tree F)} :
      entry ∈ members → Inside inner entry.2 → Inside inner (.obj members)

def Integral (tree : Tree F) : Prop := ∀ x, ¬ Inside (.float x) tree

theorem inside_arr {inner : Tree F} {items : List (Tree F)} :
    Inside inner (.arr items) ↔ inner = .arr items ∨ ∃ item ∈ items, Inside inner item := by
  constructor
  · rintro (_ | ⟨found, inside⟩)
    · exact .inl rfl
    · exact .inr ⟨_, found, inside⟩
  · rintro (rfl | ⟨item, found, inside⟩)
    · exact .self
    · exact .item found inside

theorem inside_obj {inner : Tree F} {members : List (String × Tree F)} :
    Inside inner (.obj members) ↔
      inner = .obj members ∨ ∃ entry ∈ members, Inside inner entry.2 := by
  constructor
  · rintro (_ | _ | ⟨found, inside⟩)
    · exact .inl rfl
    · exact .inr ⟨_, found, inside⟩
  · rintro (rfl | ⟨entry, found, inside⟩)
    · exact .self
    · exact .member found inside

theorem integral_arr {items : List (Tree F)} :
    (Tree.arr items).Integral ↔ ∀ item ∈ items, item.Integral := by
  constructor
  · exact fun integral item member x inside => integral x (.item member inside)
  · intro integral x inside
    rcases inside_arr.mp inside with same | ⟨item, member, inside⟩
    · cases same
    · exact integral item member x inside

theorem integral_obj {members : List (String × Tree F)} :
    (Tree.obj members).Integral ↔ ∀ entry ∈ members, entry.2.Integral := by
  constructor
  · exact fun integral entry member x inside => integral x (.member member inside)
  · intro integral x inside
    rcases inside_obj.mp inside with same | ⟨entry, member, inside⟩
    · cases same
    · exact integral entry member x inside

theorem integral_leaf {leaf : Tree F} (flat : leaf.depth = 0) (other : ∀ x, leaf ≠ .float x) :
    leaf.Integral := by
  rintro x (_ | _ | _)
  · exact other x rfl
  · cases flat
  · cases flat

end

mutual

def widen {F : Type} : Tree Empty → Tree F
  | .null => .null
  | .bool b => .bool b
  | .num n => .num n
  | .str s => .str s
  | .arr items => .arr (widenItems items)
  | .obj members => .obj (widenMembers members)

def widenItems {F : Type} : List (Tree Empty) → List (Tree F)
  | [] => []
  | item :: rest => widen item :: widenItems rest

def widenMembers {F : Type} : List (String × Tree Empty) → List (String × Tree F)
  | [] => []
  | (name, value) :: rest => (name, widen value) :: widenMembers rest

end

theorem integral_empty (tree : Tree Empty) : tree.Integral := nofun

/-! ## Writing

Texts are of trees whose numbers are all integers.
-/

mutual

def write : Tree Empty → List Char
  | .null => "null".toList
  | .bool true => "true".toList
  | .bool false => "false".toList
  | .num n => intDigits n.value
  | .str s => quote s.toList
  | .arr items => '[' :: join (writeItems items) ++ [']']
  | .obj members => '{' :: join (writeMembers members) ++ ['}']

def writeItems : List (Tree Empty) → List (List Char)
  | [] => []
  | item :: rest => write item :: writeItems rest

def writeMembers : List (String × Tree Empty) → List (List Char)
  | [] => []
  | (key, value) :: rest => (quote key.toList ++ ':' :: write value) :: writeMembers rest

end

/-! ## Reading -/

/-- A string with its closing quote, and what follows it; `escaped` after a backslash. -/
def takeString (escaped : Bool) : List Char → Option (List Char × List Char)
  | [] => none
  | ch :: rest =>
    if ch = '"' ∧ escaped = false then some ([ch], rest)
    else (takeString (ch = '\\' && !escaped) rest).map fun taken => (ch :: taken.1, taken.2)

-- A member of an object, its value read by `read`.
def readEntry (read : List Char → Option (Tree Empty)) : List Char → Option (String × Tree Empty)
  | '"' :: rest => do
    let (key, rest) ← takeString false rest
    match rest with
    | ':' :: value => return (String.ofList (← unquoteBody key), ← read value)
    | _ => none
  | _ => none

def readScalar (text : List Char) : Option (Tree Empty) :=
  if text = "null".toList then some .null
  else if text = "true".toList then some (.bool true)
  else if text = "false".toList then some (.bool false)
  else if text.head? = some '"' then (unquote text).map fun s => .str (String.ofList s)
  else (readInt text).bind fun n => (Whole.ofInt? n).map .num

def read : Nat → List Char → Option (Tree Empty)
  | 0, text => if text.head? = some '[' ∨ text.head? = some '{' then none else readScalar text
  | limit + 1, text =>
    if text.head? = some '[' then
      ((between '[' ']' text).bind (readItems (read limit))).map .arr
    else if text.head? = some '{' then
      ((between '{' '}' text).bind (readItems (readEntry (read limit)))).map .obj
    else readScalar text

/-! ## Closed texts -/

theorem closed_member {key text : List Char} (closed : Closed text) :
    Closed (quote key ++ ':' :: text) := by
  have colon : Closed [':'] := closed_plain (by
    intro ch member
    rw [List.mem_singleton] at member
    subst member
    exact fun _ => rfl)
  exact (closed_quote key).append (colon.append closed)

mutual

theorem closed_write (tree : Tree Empty) : Closed (write tree) := by
  cases tree with
  | null => exact rfl
  | bool b => cases b <;> exact rfl
  | num n => exact closed_intDigits n.value
  | float x => cases x
  | str s => exact closed_quote s.toList
  | arr items => exact closed_brackets (closed_writeItems items)
  | obj members => exact closed_braces (closed_writeMembers members)

theorem closed_writeItems (items : List (Tree Empty)) : ∀ text ∈ writeItems items, Closed text := by
  cases items with
  | nil => exact fun _ member => absurd member List.not_mem_nil
  | cons item rest => exact List.forall_mem_cons.mpr ⟨closed_write item, closed_writeItems rest⟩

theorem closed_writeMembers (members : List (String × Tree Empty)) :
    ∀ text ∈ writeMembers members, Closed text := by
  match members with
  | [] => exact fun _ member => absurd member List.not_mem_nil
  | (key, value) :: rest =>
    exact List.forall_mem_cons.mpr ⟨closed_member (closed_write value), closed_writeMembers rest⟩

end

/-! ## Reading what was written -/

theorem hexDigit_plain : ∀ n < 16, hexDigit n ≠ '"' ∧ hexDigit n ≠ '\\' := by decide

theorem takeString_plain {ch : Char} (quote : ch ≠ '"') (backslash : ch ≠ '\\')
    (rest : List Char) : takeString false (ch :: rest) =
      (takeString false rest).map fun taken => (ch :: taken.1, taken.2) := by
  simp [takeString, quote, backslash]

theorem takeString_backslash (letter : Char) (rest : List Char) :
    takeString false ('\\' :: letter :: rest) =
      (takeString false rest).map fun taken => ('\\' :: letter :: taken.1, taken.2) := by
  simp [takeString, Option.map_map, Function.comp_def]

/-- An escape is inside the string, whatever follows it. -/
theorem takeString_escape (ch : Char) (rest : List Char) :
    takeString false (escape ch ++ rest) =
      (takeString false rest).map fun taken => (escape ch ++ taken.1, taken.2) := by
  rcases escape_cases ch with ⟨letter, -, made⟩ | ⟨control, made⟩ | ⟨quote, backslash, -, made⟩
  · rw [made]
    exact takeString_backslash letter rest
  · have first := hexDigit_plain (ch.toNat / 16) (by omega)
    have second := hexDigit_plain (ch.toNat % 16) (by omega)
    have zero : '0' ≠ '"' ∧ '0' ≠ '\\' := by decide
    simp only [made, List.cons_append, List.nil_append, takeString_backslash,
      takeString_plain zero.1 zero.2, takeString_plain first.1 first.2,
      takeString_plain second.1 second.2, Option.map_map, Function.comp_def]
  · rw [made]
    exact takeString_plain quote backslash rest

theorem takeString_flatMap (text rest : List Char) :
    takeString false (text.flatMap escape ++ '"' :: rest) =
      some (text.flatMap escape ++ ['"'], rest) := by
  induction text with
  | nil => rfl
  | cons ch text ih =>
    rw [List.flatMap_cons, List.append_assoc, takeString_escape, ih]
    simp

theorem readEntry_member (read : List Char → Option (Tree Empty)) (key : String) (text : List Char) :
    readEntry read (quote key.toList ++ ':' :: text) = (read text).map fun value => (key, value) := by
  have parts : quote key.toList ++ ':' :: text =
      '"' :: (key.toList.flatMap escape ++ '"' :: ':' :: text) := by simp [quote]
  simp only [parts, readEntry, takeString_flatMap, unquoteBody_flatMap, Option.bind_eq_bind,
    Option.bind_some, String.ofList_toList]
  cases read text <;> rfl

theorem write_ne_nil (tree : Tree Empty) : write tree ≠ [] := by
  cases tree with
  | null => exact List.cons_ne_nil _ _
  | bool b => cases b <;> exact List.cons_ne_nil _ _
  | num n => exact intDigits_ne_nil n.value
  | float x => cases x
  | str s => exact List.cons_ne_nil _ _
  | arr items => exact List.cons_ne_nil _ _
  | obj members => exact List.cons_ne_nil _ _

theorem writeItems_ne_nil (items : List (Tree Empty)) : ∀ text ∈ writeItems items, text ≠ [] := by
  induction items with
  | nil => exact fun _ member => absurd member List.not_mem_nil
  | cons item rest ih => exact List.forall_mem_cons.mpr ⟨write_ne_nil item, ih⟩

theorem writeMembers_ne_nil (members : List (String × Tree Empty)) :
    ∀ text ∈ writeMembers members, text ≠ [] := by
  induction members with
  | nil => exact fun _ member => absurd member List.not_mem_nil
  | cons entry rest ih => exact List.forall_mem_cons.mpr ⟨List.cons_ne_nil _ _, ih⟩

theorem intDigits_head (n : Int) :
    ∃ ch rest, intDigits n = ch :: rest ∧ (ch = '-' ∨ ch.isDigit = true) := by
  cases n with
  | ofNat n =>
    rw [show intDigits (Int.ofNat n) = natDigits n from intDigits_ofNat n]
    cases digits : natDigits n with
    | nil => exact absurd digits Nat.toDigits_ne_nil
    | cons ch rest =>
      have member : ch ∈ Nat.toDigits 10 n := by
        rw [show Nat.toDigits 10 n = ch :: rest from digits]
        exact List.mem_cons_self
      exact ⟨ch, rest, rfl, .inr (Nat.isDigit_of_mem_toDigits (by decide) (by decide) member)⟩
  | negSucc n =>
    rw [show intDigits (Int.negSucc n) = '-' :: natDigits (n + 1) from intDigits_neg n]
    exact ⟨'-', _, rfl, .inl rfl⟩

theorem readScalar_whole (n : Whole) : readScalar (intDigits n.value) = some (.num n) := by
  obtain ⟨ch, rest, same, start⟩ := intDigits_head n.value
  have apart (other : Char) (letter : other ≠ '-' ∧ other.isDigit = false) : ch ≠ other := by
    rintro rfl
    rcases start with minus | digit
    · exact letter.1 minus
    · rw [letter.2] at digit
      cases digit
  have text (first : Char) (word : List Char) (letter : first ≠ '-' ∧ first.isDigit = false) :
      intDigits n.value ≠ first :: word := by
    rw [same]
    intro equal
    exact apart first letter (List.cons.inj equal).1
  have null : intDigits n.value ≠ "null".toList := text 'n' ['u', 'l', 'l'] (by decide)
  have true' : intDigits n.value ≠ "true".toList := text 't' ['r', 'u', 'e'] (by decide)
  have false' : intDigits n.value ≠ "false".toList := text 'f' ['a', 'l', 's', 'e'] (by decide)
  have unquoted : (intDigits n.value).head? ≠ some '"' := by
    rw [same]
    intro equal
    exact apart '"' (by decide) (Option.some.inj equal)
  rw [readScalar, if_neg null, if_neg true', if_neg false', if_neg unquoted, readInt_intDigits,
    Option.bind_some, Whole.ofInt?_value, Option.map_some]

theorem readScalar_quote (s : String) : readScalar (quote s.toList) = some (.str s) := by
  have text (first : Char) (word : List Char) (other : first ≠ '"') :
      quote s.toList ≠ first :: word := by
    intro equal
    exact other (List.cons.inj equal).1.symm
  have null : quote s.toList ≠ "null".toList := text 'n' ['u', 'l', 'l'] (by decide)
  have true' : quote s.toList ≠ "true".toList := text 't' ['r', 'u', 'e'] (by decide)
  have false' : quote s.toList ≠ "false".toList := text 'f' ['a', 'l', 's', 'e'] (by decide)
  have quoted : (quote s.toList).head? = some '"' := rfl
  rw [readScalar, if_neg null, if_neg true', if_neg false', if_pos quoted, unquote_quote,
    Option.map_some, String.ofList_toList]

theorem read_scalar {text : List Char} {ch : Char} (head : text.head? = some ch)
    (plain : ch ≠ '[' ∧ ch ≠ '{') (limit : Nat) : read limit text = readScalar text := by
  have array : text.head? ≠ some '[' := by
    rw [head]
    exact fun same => plain.1 (Option.some.inj same)
  have object : text.head? ≠ some '{' := by
    rw [head]
    exact fun same => plain.2 (Option.some.inj same)
  cases limit with
  | zero => rw [read, if_neg (by simp [array, object])]
  | succ limit => rw [read, if_neg array, if_neg object]

mutual

/-- Exactly the trees that are nested no deeper are read back. -/
theorem read_write (tree : Tree Empty) (limit : Nat) :
    read limit (write tree) = if depth tree ≤ limit then some tree else none := by
  -- By recursion on the tree, together with the lists of its items and members.
  match tree with
  | .null =>
    have fits : depth (.null : Tree Empty) ≤ limit := Nat.zero_le limit
    have head : (write .null).head? = some 'n' := rfl
    rw [read_scalar head (by decide), if_pos fits]
    rfl
  | .bool true =>
    have fits : depth (.bool true : Tree Empty) ≤ limit := Nat.zero_le limit
    have head : (write (.bool true)).head? = some 't' := rfl
    rw [read_scalar head (by decide), if_pos fits]
    rfl
  | .bool false =>
    have fits : depth (.bool false : Tree Empty) ≤ limit := Nat.zero_le limit
    have head : (write (.bool false)).head? = some 'f' := rfl
    rw [read_scalar head (by decide), if_pos fits]
    rfl
  | .num n =>
    -- A number begins with a digit or a sign, neither of which opens a bracket.
    obtain ⟨ch, rest, same, start⟩ := intDigits_head n.value
    have head : (intDigits n.value).head? = some ch := by
      rw [same]
      rfl
    have plain : ch ≠ '[' ∧ ch ≠ '{' := by
      rcases start with rfl | digit
      · decide
      · constructor
        · rintro rfl
          cases digit
        · rintro rfl
          cases digit
    rw [write, read_scalar head plain, readScalar_whole]
    exact (if_pos (Nat.zero_le limit)).symm
  | .float x => cases x
  | .str s =>
    have head : (quote s.toList).head? = some '"' := rfl
    rw [write, read_scalar head (by decide), readScalar_quote]
    exact (if_pos (Nat.zero_le limit)).symm
  | .arr items =>
    have head : ('[' :: join (writeItems items) ++ [']']).head? = some '[' := rfl
    rw [write, depth]
    cases limit with
    | zero => rw [read, if_pos (.inl head), if_neg (Nat.not_succ_le_zero _)]
    | succ limit =>
      rw [read, if_pos head, between_wrapped, Option.bind_some,
        readItems_eq (closed_writeItems items) (writeItems_ne_nil items), read_writeItems items]
      simp only [Nat.add_le_add_iff_right]
      split <;> rfl
  | .obj members =>
    have head : ('{' :: join (writeMembers members) ++ ['}']).head? = some '{' := rfl
    have array : ('{' :: join (writeMembers members) ++ ['}']).head? ≠ some '[' := by
      intro same
      cases same
    rw [write, depth]
    cases limit with
    | zero => rw [read, if_pos (.inr head), if_neg (Nat.not_succ_le_zero _)]
    | succ limit =>
      rw [read, if_neg array, if_pos head, between_wrapped, Option.bind_some,
        readItems_eq (closed_writeMembers members) (writeMembers_ne_nil members),
        read_writeMembers members]
      simp only [Nat.add_le_add_iff_right]
      split <;> rfl

theorem read_writeItems (items : List (Tree Empty)) (limit : Nat) :
    (writeItems items).mapM (read limit) = if depthItems items ≤ limit then some items else none := by
  match items with
  | [] =>
    rw [writeItems, depthItems, if_pos (Nat.zero_le limit)]
    rfl
  | item :: rest =>
    rw [writeItems, List.mapM_cons, read_write item, read_writeItems rest, depthItems]
    by_cases first : depth item ≤ limit
    · by_cases later : depthItems rest ≤ limit
      · rw [if_pos first, if_pos later, if_pos (max_le first later)]
        rfl
      · rw [if_pos first, if_neg later, if_neg fun both => later (le_of_max_le_right both)]
        rfl
    · rw [if_neg first, if_neg fun both => first (le_of_max_le_left both)]
      rfl

theorem read_writeMembers (members : List (String × Tree Empty)) (limit : Nat) :
    (writeMembers members).mapM (readEntry (read limit)) =
      if depthMembers members ≤ limit then some members else none := by
  match members with
  | [] =>
    rw [writeMembers, depthMembers, if_pos (Nat.zero_le limit)]
    rfl
  | (key, value) :: rest =>
    rw [writeMembers, List.mapM_cons, readEntry_member, read_write value, read_writeMembers rest,
      depthMembers]
    by_cases first : depth value ≤ limit
    · by_cases later : depthMembers rest ≤ limit
      · rw [if_pos first, if_pos later, if_pos (max_le first later)]
        rfl
      · rw [if_pos first, if_neg later, if_neg fun both => later (le_of_max_le_right both)]
        rfl
    · rw [if_neg first, if_neg fun both => first (le_of_max_le_left both)]
      rfl

end

/-! ## How long a text is -/

theorem length_le_join (text : List Char) (rest : List (List Char)) :
    text.length ≤ (join (text :: rest)).length ∧
      (join rest).length ≤ (join (text :: rest)).length := by
  by_cases more : rest = []
  · rw [more]
    exact ⟨le_rfl, Nat.zero_le _⟩
  · rw [join_cons text more, List.length_append, List.length_cons]
    omega

mutual

/-- Every level takes a character of the text. -/
theorem depth_le_length (tree : Tree Empty) : depth tree ≤ (write tree).length := by
  match tree with
  | .null | .bool _ | .num _ | .str _ => exact Nat.zero_le _
  | .float x => cases x
  | .arr items =>
    have inner := depthItems_le_length items
    rw [depth, write, List.length_append, List.length_cons]
    omega
  | .obj members =>
    have inner := depthMembers_le_length members
    rw [depth, write, List.length_append, List.length_cons]
    omega

theorem depthItems_le_length (items : List (Tree Empty)) :
    depthItems items ≤ (join (writeItems items)).length := by
  match items with
  | [] => exact Nat.zero_le _
  | item :: rest =>
    have both := length_le_join (write item) (writeItems rest)
    exact max_le ((depth_le_length item).trans both.1) ((depthItems_le_length rest).trans both.2)

theorem depthMembers_le_length (members : List (String × Tree Empty)) :
    depthMembers members ≤ (join (writeMembers members)).length := by
  match members with
  | [] => exact Nat.zero_le _
  | (key, value) :: rest =>
    have both := length_le_join (quote key.toList ++ ':' :: write value) (writeMembers rest)
    have inner := depth_le_length value
    have later := depthMembers_le_length rest
    rw [List.length_append, List.length_cons] at both
    rw [depthMembers, writeMembers]
    omega

end

theorem read_write_all (tree : Tree Empty) :
    read (write tree).length (write tree) = some tree := by
  rw [read_write, if_pos tree.depth_le_length]

end Tree

end Json
