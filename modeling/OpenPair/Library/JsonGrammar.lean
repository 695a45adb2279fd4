import OpenPair.Library.JsonCodec

/-! The grammar of JSON text, production by production.

A value carries no white space around it; the white space inside arrays and
objects is free. Every value closes its brackets and strings.
-/

set_option autoImplicit false

namespace Json

/-! ## Tokens -/

def IsSpace (ch : Char) : Prop := ch = ' ' ∨ ch = '\t' ∨ ch = '\n' ∨ ch = '\r'

def Space (text : List Char) : Prop := ∀ ch ∈ text, IsSpace ch

def Digits (text : List Char) : Prop := text ≠ [] ∧ ∀ ch ∈ text, ch.isDigit = true

def Integer (text : List Char) : Prop :=
  ∃ sign digits, text = sign ++ digits ∧ (sign = [] ∨ sign = ['-']) ∧ Digits digits

/-- `frac` and `exp` of a number, each of which may be missing. -/
def Fraction (text : List Char) : Prop :=
  text = [] ∨ ∃ digits, text = '.' :: digits ∧ Digits digits

def Exponent (text : List Char) : Prop :=
  text = [] ∨ ∃ mark sign digits, text = mark :: sign ++ digits ∧ (mark = 'e' ∨ mark = 'E') ∧
    (sign = [] ∨ sign = ['+'] ∨ sign = ['-']) ∧ Digits digits

def NoLeadingZero (text : List Char) : Prop := ∀ sign rest, text = sign ++ '0' :: rest →
  (sign = [] ∨ sign = ['-']) → rest = []

def Number (text : List Char) : Prop :=
  ∃ int frac exp, text = int ++ frac ++ exp ∧ Integer int ∧ NoLeadingZero int ∧ Fraction frac ∧
    Exponent exp

abbrev IsHex (ch : Char) : Prop := (hexValue ch).isSome = true

/-- What may stand between the quotes of a string. -/
inductive Characters : List Char → Prop where
  | nil : Characters []
  | plain {ch rest} : ch ≠ '"' → ch ≠ '\\' → 0x20 ≤ ch.toNat → Characters rest →
      Characters (ch :: rest)
  | letter {ch rest} : (unescapeLetter ch).isSome = true → Characters rest →
      Characters ('\\' :: ch :: rest)
  | hex {a b c d rest} : IsHex a → IsHex b → IsHex c → IsHex d → Characters rest →
      Characters ('\\' :: 'u' :: a :: b :: c :: d :: rest)

/-! ## Productions -/

inductive Production where
  | value
  | element
  | elements
  | member
  | members
  deriving DecidableEq

inductive Derives : Production → List Char → Prop where
  | null : Derives .value "null".toList
  | true : Derives .value "true".toList
  | false : Derives .value "false".toList
  | number {text} : Number text → Derives .value text
  | string {text} : Characters text → Derives .value ('"' :: text ++ ['"'])
  | emptyArray {space} : Space space → Derives .value ('[' :: space ++ [']'])
  | array {text} : Derives .elements text → Derives .value ('[' :: text ++ [']'])
  | emptyObject {space} : Space space → Derives .value ('{' :: space ++ ['}'])
  | object {text} : Derives .members text → Derives .value ('{' :: text ++ ['}'])
  | element {before text after} : Space before → Derives .value text → Space after →
      Derives .element (before ++ text ++ after)
  | lastElement {text} : Derives .element text → Derives .elements text
  | elements {text rest} : Derives .element text → Derives .elements rest →
      Derives .elements (text ++ ',' :: rest)
  | member {before key after text} : Space before → Characters key → Space after →
      Derives .element text → Derives .member (before ++ '"' :: key ++ '"' :: after ++ ':' :: text)
  | lastMember {text} : Derives .member text → Derives .members text
  | members {text rest} : Derives .member text → Derives .members rest →
      Derives .members (text ++ ',' :: rest)

/-- A complete JSON text without white space around it. -/
def Text (text : List Char) : Prop := Derives .value text

/-! ## Every value closes -/

theorem plain_space {ch : Char} (space : IsSpace ch) : Plain ch := by
  intro depth
  rcases space with rfl | rfl | rfl | rfl <;> rfl

theorem closed_space {text : List Char} (space : Space text) : Closed text :=
  closed_plain fun ch member => plain_space (space ch member)

theorem closed_digits {text : List Char} (digits : Digits text) : Closed text :=
  closed_plain fun ch member => plain_digit (digits.2 ch member)

theorem closed_sign {sign : List Char} (known : sign = [] ∨ sign = ['+'] ∨ sign = ['-']) :
    Closed sign := by
  rcases known with rfl | rfl | rfl <;> decide

theorem Integer.closed {text : List Char} (integer : Integer text) : Closed text := by
  obtain ⟨sign, digits, rfl, known, digits'⟩ := integer
  have signed : Closed sign := closed_sign (known.imp_right .inr)
  exact signed.append (closed_digits digits')

theorem Number.closed {text : List Char} (number : Number text) : Closed text := by
  obtain ⟨int, frac, exp, rfl, integer, -, fraction, exponent⟩ := number
  have frac : Closed frac := by
    rcases fraction with rfl | ⟨digits, rfl, digits'⟩
    · rfl
    · have point : Closed ['.'] := by decide
      exact point.append (closed_digits digits')
  have exp : Closed exp := by
    rcases exponent with rfl | ⟨mark, sign, digits, rfl, known, signed, digits'⟩
    · rfl
    · have marked : Closed [mark] := by rcases known with rfl | rfl <;> decide
      exact (marked.append (closed_sign signed)).append (closed_digits digits')
  exact (integer.closed.append frac).append exp

/-- A string is read up to its closing quote, whatever the depth. -/
theorem Characters.through {text : List Char} (characters : Characters text) (depth : Nat) :
    ({ depth := depth, mode := .string } : Scan).through text =
      some { depth := depth, mode := .string } := by
  induction characters with
  | nil => rfl
  | plain quote backslash printable rest ih =>
    rw [Scan.through, Scan.next]
    simp only [if_neg quote, if_neg backslash, Option.bind_some, ih]
  | @letter ch rest known more ih =>
    have opened : ({ depth := depth, mode := .string } : Scan).next '\\' =
        some { depth := depth, mode := .escape } := rfl
    have escaped : ({ depth := depth, mode := .escape } : Scan).next ch =
        some { depth := depth, mode := .string } := rfl
    rw [Scan.through, opened, Option.bind_some, Scan.through, escaped, Option.bind_some, ih]
  | @hex a b c d rest first second third fourth more ih =>
    -- A hexadecimal digit neither ends the string nor starts an escape.
    have step {ch : Char} (hex : IsHex ch) :
        ({ depth := depth, mode := .string } : Scan).next ch =
          some { depth := depth, mode := .string } := by
      have quote : ch ≠ '"' := by
        rintro rfl
        exact absurd hex (by decide)
      have backslash : ch ≠ '\\' := by
        rintro rfl
        exact absurd hex (by decide)
      simp only [Scan.next, if_neg quote, if_neg backslash]
    have opened : ({ depth := depth, mode := .string } : Scan).through ['\\', 'u'] =
        some { depth := depth, mode := .string } := rfl
    rw [show '\\' :: 'u' :: a :: b :: c :: d :: rest = ['\\', 'u'] ++ a :: b :: c :: d :: rest
      from rfl, Scan.through_append, opened, Option.bind_some]
    simp only [Scan.through, step first, step second, step third, step fourth, Option.bind_some, ih]

theorem Characters.closed {text : List Char} (characters : Characters text) :
    Closed ('"' :: text ++ ['"']) := by
  rw [Closed, List.cons_append, Scan.through, show ({} : Scan).next '"' =
    some { depth := 0, mode := .string } from rfl, Option.bind_some, Scan.through_append,
    characters.through]
  rfl

def Nested (text : List Char) : Prop :=
  ∀ depth, ({ depth := depth + 1 } : Scan).through text = some { depth := depth + 1 }

theorem Closed.nested {text : List Char} (closed : Closed text) : Nested text :=
  fun depth => closed.through (depth + 1)

theorem Nested.comma {first rest : List Char} (left : Nested first) (right : Nested rest) :
    Nested (first ++ ',' :: rest) := by
  intro depth
  have comma : ({ depth := depth + 1 } : Scan).next ',' = some { depth := depth + 1 } := by
    simp [Scan.next]
  rw [Scan.through_append, left, Option.bind_some, Scan.through, comma, Option.bind_some, right]

theorem Nested.array {text : List Char} (nested : Nested text) :
    Closed ('[' :: text ++ [']']) := by
  rw [Closed, List.cons_append, Scan.through, show ({} : Scan).next '[' = some { depth := 0 + 1 }
    from rfl, Option.bind_some, Scan.through_append, nested]
  rfl

theorem Nested.object {text : List Char} (nested : Nested text) :
    Closed ('{' :: text ++ ['}']) := by
  rw [Closed, List.cons_append, Scan.through, show ({} : Scan).next '{' = some { depth := 0 + 1 }
    from rfl, Option.bind_some, Scan.through_append, nested]
  rfl

theorem Derives.nested {production : Production} {text : List Char}
    (derives : Derives production text) :
    Nested text ∧ (production ≠ .elements ∧ production ≠ .members → Closed text) := by
  have closes {production : Production} {text : List Char} (closed : Closed text) :
      Nested text ∧ (production ≠ .elements ∧ production ≠ .members → Closed text) :=
    ⟨closed.nested, fun _ => closed⟩
  have value : Production.value ≠ .elements ∧ Production.value ≠ .members := by decide
  have single : Production.element ≠ .elements ∧ Production.element ≠ .members := by decide
  have pair : Production.member ≠ .elements ∧ Production.member ≠ .members := by decide
  induction derives with
  | null => exact closes (by decide)
  | true => exact closes (by decide)
  | false => exact closes (by decide)
  | number number => exact closes number.closed
  | string characters => exact closes characters.closed
  | emptyArray space => exact closes (closed_space space).nested.array
  | array _ ih => exact closes ih.1.array
  | emptyObject space => exact closes (closed_space space).nested.object
  | object _ ih => exact closes ih.1.object
  | element before _ after ih =>
    exact closes (((closed_space before).append (ih.2 value)).append (closed_space after))
  | lastElement _ ih => exact ⟨ih.1, fun other => absurd rfl other.1⟩
  | elements _ _ first rest => exact ⟨first.1.comma rest.1, fun other => absurd rfl other.1⟩
  | @member before key after text space characters space' _ ih =>
    have colon : Closed [':'] := by decide
    have keyed : Closed ('"' :: key ++ ['"']) := characters.closed
    have all := ((((closed_space space).append keyed).append (closed_space space')).append
      colon).append (ih.2 single)
    exact closes (by simpa using all)
  | lastMember _ ih => exact ⟨ih.1, fun other => absurd rfl other.2⟩
  | members _ _ first rest => exact ⟨first.1.comma rest.1, fun other => absurd rfl other.2⟩

theorem Text.closed {text : List Char} (complete : Text text) : Closed text :=
  complete.nested.2 (by decide)

end Json
