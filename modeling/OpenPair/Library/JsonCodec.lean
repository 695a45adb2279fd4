import Mathlib.Tactic.IntervalCases
import OpenPair.Library.JsonScan

/-! Compact JSON text of strings, integers, arrays and objects, and its readers. -/

set_option autoImplicit false

namespace Json

/-! ## Strings -/

def hexDigit (n : Nat) : Char :=
  if n < 10 then Char.ofNat (0x30 + n) else Char.ofNat (0x61 + n - 10)

def escape (ch : Char) : List Char :=
  if ch = '"' then ['\\', '"']
  else if ch = '\\' then ['\\', '\\']
  else if ch.toNat = 0x08 then ['\\', 'b']
  else if ch.toNat = 0x09 then ['\\', 't']
  else if ch.toNat = 0x0A then ['\\', 'n']
  else if ch.toNat = 0x0C then ['\\', 'f']
  else if ch.toNat = 0x0D then ['\\', 'r']
  else if ch.toNat < 0x20 then
    ['\\', 'u', '0', '0', hexDigit (ch.toNat / 16), hexDigit (ch.toNat % 16)]
  else [ch]

def quote (text : List Char) : List Char := '"' :: text.flatMap escape ++ ['"']

def hexValue (ch : Char) : Option Nat :=
  if ch.isDigit then some (ch.toNat - 0x30)
  else if 'a' ≤ ch ∧ ch ≤ 'f' then some (ch.toNat - 0x61 + 10)
  else if 'A' ≤ ch ∧ ch ≤ 'F' then some (ch.toNat - 0x41 + 10)
  else none

def unescapeLetter (ch : Char) : Option Char :=
  if ch = '"' ∨ ch = '\\' ∨ ch = '/' then some ch
  else if ch = 'b' then some (Char.ofNat 0x08)
  else if ch = 't' then some (Char.ofNat 0x09)
  else if ch = 'n' then some (Char.ofNat 0x0A)
  else if ch = 'f' then some (Char.ofNat 0x0C)
  else if ch = 'r' then some (Char.ofNat 0x0D)
  else none

/-- Four hexadecimal digits as a character; surrogates are not characters. -/
def unescapeHex (a b c d : Char) : Option Char := do
  let n := (((← hexValue a) * 16 + (← hexValue b)) * 16 + (← hexValue c)) * 16 + (← hexValue d)
  if n < 0xD800 ∨ 0xDFFF < n then some (Char.ofNat n) else none

/-- The characters of a string up to its closing quote, which ends the text. -/
def unquoteBody : List Char → Option (List Char)
  | [] => none
  | '"' :: rest => if rest.isEmpty then some [] else none
  | '\\' :: 'u' :: a :: b :: c :: d :: rest => do
    return (← unescapeHex a b c d) :: (← unquoteBody rest)
  | '\\' :: letter :: rest => do
    return (← unescapeLetter letter) :: (← unquoteBody rest)
  | ch :: rest => if ch.toNat < 0x20 then none else (unquoteBody rest).map (ch :: ·)

def unquote : List Char → Option (List Char)
  | '"' :: rest => unquoteBody rest
  | _ => none

theorem hexDigit_value : ∀ n < 16, hexValue (hexDigit n) = some n := by
  decide

theorem eq_ofNat {ch : Char} {n : Nat} (same : ch.toNat = n) : ch = Char.ofNat n := by
  rw [← same, Char.ofNat_toNat]

theorem unescapeHex_control {n : Nat} (control : n < 0x20) :
    unescapeHex '0' '0' (hexDigit (n / 16)) (hexDigit (n % 16)) = some (Char.ofNat n) := by
  have high := hexDigit_value (n / 16) (by omega)
  have low := hexDigit_value (n % 16) (by omega)
  have zero : hexValue '0' = some 0 := by decide
  simp only [unescapeHex, zero, high, low, Option.bind_eq_bind, Option.bind_some]
  rw [if_pos (.inl (by omega)), show ((0 * 16 + 0) * 16 + n / 16) * 16 + n % 16 = n by omega]

theorem unquoteBody_plain {ch : Char} (quote : ch ≠ '"') (backslash : ch ≠ '\\')
    (printable : ¬ ch.toNat < 0x20) (rest : List Char) :
    unquoteBody (ch :: rest) = (unquoteBody rest).map (ch :: ·) := by
  rw [unquoteBody.eq_def]
  split <;> simp_all

theorem unquoteBody_letter {letter ch : Char} (known : unescapeLetter letter = some ch)
    (rest : List Char) :
    unquoteBody ('\\' :: letter :: rest) = (unquoteBody rest).map (ch :: ·) := by
  have plain : letter ≠ 'u' := by
    rintro rfl
    cases known
  rw [unquoteBody.eq_4 _ _ (by simp [plain])]
  rw [known]
  cases unquoteBody rest <;> rfl

theorem escape_cases (ch : Char) :
    (∃ letter, unescapeLetter letter = some ch ∧ escape ch = ['\\', letter]) ∨
      (ch.toNat < 0x20 ∧ escape ch =
        ['\\', 'u', '0', '0', hexDigit (ch.toNat / 16), hexDigit (ch.toNat % 16)]) ∨
      (ch ≠ '"' ∧ ch ≠ '\\' ∧ ¬ ch.toNat < 0x20 ∧ escape ch = [ch]) := by
  generalize made : escape ch = text
  unfold escape at made
  split at made
  · next same =>
    rw [same]
    exact .inl ⟨_, by decide, made.symm⟩
  next quote =>
  split at made
  · next same =>
    rw [same]
    exact .inl ⟨_, by decide, made.symm⟩
  next backslash =>
  iterate 5
    split at made
    · next same =>
      rw [eq_ofNat same]
      exact .inl ⟨_, by decide, made.symm⟩
  split at made
  · next control => exact .inr (.inl ⟨control, made.symm⟩)
  · next printable => exact .inr (.inr ⟨quote, backslash, printable, made.symm⟩)

theorem unquoteBody_escape (ch : Char) (rest : List Char) :
    unquoteBody (escape ch ++ rest) = (unquoteBody rest).map (ch :: ·) := by
  rcases escape_cases ch with
    ⟨letter, known, made⟩ | ⟨control, made⟩ | ⟨quote, backslash, printable, made⟩
  · rw [made]
    exact unquoteBody_letter known rest
  · rw [made]
    simp only [List.cons_append, List.nil_append, unquoteBody, unescapeHex_control control,
      Char.ofNat_toNat, Option.bind_eq_bind, Option.bind_some]
    cases unquoteBody rest <;> rfl
  · rw [made]
    exact unquoteBody_plain quote backslash printable rest

theorem unquoteBody_flatMap (text : List Char) :
    unquoteBody (text.flatMap escape ++ ['"']) = some text := by
  induction text with
  | nil => rfl
  | cons ch text ih =>
    rw [List.flatMap_cons, List.append_assoc, unquoteBody_escape, ih]
    rfl

theorem unquote_quote (text : List Char) : unquote (quote text) = some text :=
  unquoteBody_flatMap text

/-! A quoted text closes: no escape leaves the string. -/

theorem through_escape (ch : Char) :
    ({ mode := .string } : Scan).through (escape ch) = some { mode := .string } := by
  rcases escape_cases ch with ⟨letter, -, made⟩ | ⟨control, made⟩ | ⟨quote, backslash, -, made⟩
  · rw [made]
    rfl
  · rw [made]
    generalize ch.toNat = n at control
    interval_cases n <;> rfl
  · rw [made]
    simp [Scan.through, Scan.next, quote, backslash]

theorem through_flatMap_escape (text : List Char) :
    ({ mode := .string } : Scan).through (text.flatMap escape) = some { mode := .string } := by
  induction text with
  | nil => rfl
  | cons ch text ih =>
    rw [List.flatMap_cons, Scan.through_append, through_escape, Option.bind_some, ih]

theorem closed_quote (text : List Char) : Closed (quote text) := by
  rw [Closed, quote, List.cons_append, Scan.through,
    show ({} : Scan).next '"' = some { mode := .string } from rfl, Option.bind_some,
    Scan.through_append, through_flatMap_escape]
  rfl

/-! ## Integers

An integer is read when it is written the way `toString` writes it.
-/

def natDigits (n : Nat) : List Char := Nat.toDigits 10 n

def readNat (text : List Char) : Option Nat :=
  let n := Nat.ofDigitChars 10 text 0
  if natDigits n = text then some n else none

theorem readNat_natDigits (n : Nat) : readNat (natDigits n) = some n := by
  have same : Nat.ofDigitChars 10 (natDigits n) 0 = n := Nat.ofDigitChars_ten_toDigits
  simp only [readNat, same, ↓reduceIte]

def intDigits (n : Int) : List Char := (toString n).toList

def readInt (text : List Char) : Option Int :=
  let value : Int := match text with
    | '-' :: digits => -(Nat.ofDigitChars 10 digits 0)
    | digits => Nat.ofDigitChars 10 digits 0
  if intDigits value = text then some value else none

theorem toDigits_head {n : Nat} {digits : List Char} : natDigits n ≠ '-' :: digits := by
  intro same
  have member : '-' ∈ Nat.toDigits 10 n := by
    rw [show Nat.toDigits 10 n = '-' :: digits from same]
    exact List.mem_cons_self
  have digit := Nat.isDigit_of_mem_toDigits (by decide : 0 < 10) (by decide) member
  cases digit

theorem intDigits_ofNat (n : Nat) : intDigits n = natDigits n := by
  change (Nat.repr n).toList = Nat.toDigits 10 n
  exact Nat.toList_repr

theorem intDigits_neg (n : Nat) : intDigits (-(n + 1 : Nat)) = '-' :: natDigits (n + 1) := by
  rw [show (-(n + 1 : Nat) : Int) = Int.negSucc n from rfl]
  simp [intDigits, natDigits, toString, Int.repr]

theorem readInt_intDigits (n : Int) : readInt (intDigits n) = some n := by
  have value (m : Nat) : Nat.ofDigitChars 10 (natDigits m) 0 = m := Nat.ofDigitChars_ten_toDigits
  unfold readInt
  cases n with
  | ofNat n =>
    rw [show intDigits (Int.ofNat n) = natDigits n from intDigits_ofNat n]
    split
    · next same => exact absurd same toDigits_head
    · rw [value, if_pos (intDigits_ofNat n)]
      rfl
  | negSucc n =>
    rw [show intDigits (Int.negSucc n) = '-' :: natDigits (n + 1) from intDigits_neg n]
    simp only [value]
    rw [if_pos (intDigits_neg n)]
    rfl

def Plain (ch : Char) : Prop := ∀ depth, ({ depth := depth } : Scan).next ch = some { depth := depth }

theorem closed_plain {text : List Char} (plain : ∀ ch ∈ text, Plain ch) : Closed text := by
  induction text with
  | nil => rfl
  | cons ch text ih =>
    rw [Closed, Scan.through, plain ch List.mem_cons_self 0, Option.bind_some]
    exact ih fun other member => plain other (List.mem_cons_of_mem _ member)

theorem plain_minus : Plain '-' := fun _ => rfl

theorem plain_digit {ch : Char} (digit : ch.isDigit = true) : Plain ch := by
  intro depth
  have apart (other : Char) (letter : other.isDigit = false) : ch ≠ other := by
    rintro rfl
    rw [digit] at letter
    cases letter
  simp [Scan.next, apart '"' (by decide), apart '[' (by decide), apart '{' (by decide),
    apart ']' (by decide), apart '}' (by decide), apart ',' (by decide)]

theorem closed_natDigits (n : Nat) : Closed (natDigits n) :=
  closed_plain fun _ member =>
    plain_digit (Nat.isDigit_of_mem_toDigits (by decide) (by decide) member)

theorem closed_intDigits (n : Int) : Closed (intDigits n) := by
  cases n with
  | ofNat n =>
    rw [show intDigits (Int.ofNat n) = natDigits n from intDigits_ofNat n]
    exact closed_natDigits n
  | negSucc n =>
    rw [show intDigits (Int.negSucc n) = '-' :: natDigits (n + 1) from intDigits_neg n]
    exact (closed_plain (by simpa using plain_minus : ∀ ch ∈ ['-'], Plain ch)).append
      (closed_natDigits (n + 1))

/-! ## Arrays and objects -/

def between (opening closing : Char) : List Char → Option (List Char)
  | [] => none
  | ch :: rest =>
    if ch = opening ∧ rest.getLast? = some closing then some rest.dropLast else none

theorem between_wrapped (opening closing : Char) (inner : List Char) :
    between opening closing (opening :: inner ++ [closing]) = some inner := by
  simp [between]

def readItems {α : Type} (read : List Char → Option α) (inner : List Char) : Option (List α) :=
  if inner.isEmpty then some [] else (splitTop {} inner).mapM read

theorem mapM_written {α β : Type} {read : β → Option α} {write : α → β}
    {items : List α} (same : ∀ item ∈ items, read (write item) = some item) :
    (items.map write).mapM read = some items := by
  induction items with
  | nil => rfl
  | cons item items ih =>
    rw [List.map_cons, List.mapM_cons, same item List.mem_cons_self,
      ih fun other member => same other (List.mem_cons_of_mem _ member)]
    rfl

theorem join_ne_nil {text : List Char} (some : text ≠ []) (rest : List (List Char)) :
    join (text :: rest) ≠ [] := by
  cases rest <;> simp [join, some]

theorem readItems_eq {α : Type} {read : List Char → Option α} {texts : List (List Char)}
    (closed : ∀ text ∈ texts, Closed text) (some : ∀ text ∈ texts, text ≠ []) :
    readItems read (join texts) = texts.mapM read := by
  unfold readItems
  cases texts with
  | nil => rfl
  | cons text rest =>
    have head := join_ne_nil (some text List.mem_cons_self) rest
    rw [if_neg (by simpa using head), splitTop_join (List.cons_ne_nil _ _) closed]

theorem readItems_join {α : Type} {read : List Char → Option α} {write : α → List Char}
    {items : List α} (closed : ∀ item ∈ items, Closed (write item))
    (written : ∀ item ∈ items, write item ≠ [])
    (same : ∀ item ∈ items, read (write item) = some item) :
    readItems read (join (items.map write)) = some items := by
  rw [readItems_eq (List.forall_mem_map.mpr closed) (List.forall_mem_map.mpr written)]
  exact mapM_written same

def writeInts (ns : List Int) : List Char := '[' :: join (ns.map intDigits) ++ [']']

def readInts (text : List Char) : Option (List Int) :=
  (between '[' ']' text).bind (readItems readInt)

theorem intDigits_ne_nil (n : Int) : intDigits n ≠ [] := by
  intro empty
  have read := readInt_intDigits n
  rw [empty] at read
  cases read

theorem readInts_writeInts (ns : List Int) : readInts (writeInts ns) = some ns := by
  rw [readInts, writeInts, between_wrapped, Option.bind_some]
  exact readItems_join (fun n _ => closed_intDigits n) (fun n _ => intDigits_ne_nil n)
    fun n _ => readInt_intDigits n

theorem closed_writeInts (ns : List Int) : Closed (writeInts ns) := by
  refine closed_brackets ?_
  intro text member
  obtain ⟨n, -, rfl⟩ := List.mem_map.mp member
  exact closed_intDigits n

abbrev Member := List Char × List Char

def SimpleKey (key : List Char) : Prop := ∀ ch ∈ key, ch ≠ '"' ∧ ch ≠ '\\'

instance (key : List Char) : Decidable (SimpleKey key) := List.decidableBAll _ key

def writeMember (member : Member) : List Char := '"' :: member.1 ++ '"' :: ':' :: member.2

def readMember : List Char → Option Member
  | '"' :: rest =>
    match rest.dropWhile (· != '"') with
    | '"' :: ':' :: value => some (rest.takeWhile (· != '"'), value)
    | _ => none
  | _ => none

theorem readMember_writeMember {member : Member} (simple : SimpleKey member.1) :
    readMember (writeMember member) = some member := by
  have inside : ∀ ch ∈ member.1, (ch != '"') = true := fun ch found => by simpa using (simple ch found).1
  have key : (member.1 ++ '"' :: ':' :: member.2).takeWhile (· != '"') = member.1 := by
    rw [List.takeWhile_append_of_pos inside]
    simp
  have rest : (member.1 ++ '"' :: ':' :: member.2).dropWhile (· != '"') = '"' :: ':' :: member.2 := by
    rw [List.dropWhile_append_of_pos inside]
    simp
  rw [writeMember, List.cons_append, readMember, rest]
  simp only [key]

theorem through_simple {key : List Char} (simple : SimpleKey key) :
    ({ mode := .string } : Scan).through key = some { mode := .string } := by
  induction key with
  | nil => rfl
  | cons ch key ih =>
    obtain ⟨quote, backslash⟩ := simple ch List.mem_cons_self
    rw [Scan.through, show ({ mode := .string } : Scan).next ch = some { mode := .string } by
      simp [Scan.next, quote, backslash], Option.bind_some]
    exact ih fun other member => simple other (List.mem_cons_of_mem _ member)

theorem closed_writeMember {member : Member} (simple : SimpleKey member.1)
    (closed : Closed member.2) : Closed (writeMember member) := by
  rw [Closed, writeMember, List.cons_append, Scan.through,
    show ({} : Scan).next '"' = some { mode := .string } from rfl, Option.bind_some,
    Scan.through_append, through_simple simple, Option.bind_some]
  exact closed

def writeObject (members : List Member) : List Char :=
  '{' :: join (members.map writeMember) ++ ['}']

def readObject (text : List Char) : Option (List Member) :=
  (between '{' '}' text).bind (readItems readMember)

def Readable (members : List Member) : Prop :=
  ∀ member ∈ members, SimpleKey member.1 ∧ Closed member.2

theorem readObject_writeObject {members : List Member} (readable : Readable members) :
    readObject (writeObject members) = some members := by
  rw [readObject, writeObject, between_wrapped, Option.bind_some]
  exact readItems_join
    (fun member found => closed_writeMember (readable member found).1 (readable member found).2)
    (fun member _ => by simp [writeMember])
    fun member found => readMember_writeMember (readable member found).1

theorem closed_writeObject {members : List Member} (readable : Readable members) :
    Closed (writeObject members) := by
  refine closed_braces ?_
  intro text found
  obtain ⟨member, inside, rfl⟩ := List.mem_map.mp found
  exact closed_writeMember (readable member inside).1 (readable member inside).2

/-- The value of a key: `none` where the key is repeated, `some none` where it is absent. -/
def member? (members : List Member) (key : List Char) : Option (Option (List Char)) :=
  match members.filter fun member => member.1 = key with
  | [] => some none
  | [member] => some (some member.2)
  | _ => none

def present (slots : List (List Char × Option (List Char))) : List Member :=
  slots.filterMap fun slot => slot.2.map (slot.1, ·)

theorem filter_present_absent {slots : List (List Char × Option (List Char))} {key : List Char}
    (absent : key ∉ slots.map Prod.fst) :
    (present slots).filter (fun member => member.1 = key) = [] := by
  rw [List.filter_eq_nil_iff]
  intro member found
  obtain ⟨slot, inside, same⟩ := List.mem_filterMap.mp found
  obtain ⟨value, -, rfl⟩ := Option.map_eq_some_iff.mp same
  simp only [decide_eq_true_eq]
  rintro rfl
  exact absent (List.mem_map_of_mem inside)

theorem member?_present {slots : List (List Char × Option (List Char))}
    (distinct : (slots.map Prod.fst).Nodup) {key : List Char} {value : Option (List Char)}
    (found : (key, value) ∈ slots) : member? (present slots) key = some value := by
  induction slots with
  | nil => cases found
  | cons slot slots ih =>
    obtain ⟨fresh, distinct⟩ := List.nodup_cons.mp distinct
    rcases List.mem_cons.mp found with rfl | later
    · have others := filter_present_absent fresh
      cases value with
      | none =>
        simp only [present, List.filterMap_cons, Option.map_none] at others ⊢
        rw [member?, others]
      | some value =>
        simp only [present, List.filterMap_cons, Option.map_some] at others ⊢
        rw [member?, List.filter_cons_of_pos (by simp), others]
    · have differs : slot.1 ≠ key := by
        rintro rfl
        exact fresh (List.mem_map.mpr ⟨_, later, rfl⟩)
      have skipped : (present (slot :: slots)).filter (fun member => member.1 = key) =
          (present slots).filter fun member => member.1 = key := by
        obtain ⟨name, value⟩ := slot
        cases value with
        | none => rfl
        | some value =>
          rw [present, List.filterMap_cons, Option.map_some]
          exact List.filter_cons_of_neg (by simpa using differs)
      rw [member?, skipped]
      exact ih distinct later

end Json
