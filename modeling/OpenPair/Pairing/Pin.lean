import OpenPair.Records

/-! Six-digit PINs as sixteen-byte out-of-band values (`pin.rs`). -/

set_option autoImplicit false

namespace OpenPair

def isAsciiDigit (b : UInt8) : Bool := 0x30 ≤ b && b ≤ 0x39

def isValidPin (pin : String) : Bool :=
  (utf8 pin).length == 6 && (utf8 pin).all isAsciiDigit

-- `str::parse::<u128>`: an optional plus sign and at least one digit, without overflow.
def parseDigits (digits : Bytes) : Option Nat :=
  digits.foldl (fun value digit => do
    let value ← value
    if isAsciiDigit digit then
      let value := value * 10 + (digit.toNat - 0x30)
      if value < 2 ^ 128 then some value else none
    else none) (some 0)

def parseU128 (text : Bytes) : Option Nat :=
  let digits := if text.head? = some 0x2B then text.tail else text
  if digits.isEmpty then none else parseDigits digits

/-- `u128::to_be_bytes`. -/
def beBytes128 (n : Nat) : Bytes :=
  (List.range 16).map fun i => UInt8.ofNat (n >>> (8 * (15 - i)))

theorem length_beBytes128 (n : Nat) : (beBytes128 n).length = 16 := by
  simp [beBytes128]

def noobFromPin (pin : String) : ByteArr 16 :=
  ⟨beBytes128 ((parseU128 (utf8 pin)).getD 0), length_beBytes128 _⟩

/-! ## Two PINs give two values -/

def digitValue (b : UInt8) : Nat := b.toNat - 0x30

theorem digitValue_lt {b : UInt8} (digit : isAsciiDigit b = true) : digitValue b < 10 := by
  simp only [isAsciiDigit, Bool.and_eq_true, decide_eq_true_eq, UInt8.le_iff_toNat_le] at digit
  simp only [digitValue]
  have upper : b.toNat ≤ 0x39 := digit.2
  omega

theorem digit_eq {a b : UInt8} (left : isAsciiDigit a = true) (right : isAsciiDigit b = true)
    (same : digitValue a = digitValue b) : a = b := by
  simp only [isAsciiDigit, Bool.and_eq_true, decide_eq_true_eq, UInt8.le_iff_toNat_le] at left right
  have above : 0x30 ≤ a.toNat := left.1
  have above' : 0x30 ≤ b.toNat := right.1
  simp only [digitValue] at same
  exact UInt8.toNat_inj.mp (by omega)

def sixDigits (digits : Bytes) : Nat :=
  digits.foldl (fun value digit => value * 10 + digitValue digit) 0

theorem isValidPin_iff (pin : String) :
    isValidPin pin = true ↔ (utf8 pin).length = 6 ∧ ∀ b ∈ utf8 pin, isAsciiDigit b = true := by
  simp [isValidPin]

theorem six_bytes {digits : Bytes} (long : digits.length = 6) :
    ∃ d₁ d₂ d₃ d₄ d₅ d₆, digits = [d₁, d₂, d₃, d₄, d₅, d₆] := by
  match digits, long with
  | [d₁, d₂, d₃, d₄, d₅, d₆], _ => exact ⟨d₁, d₂, d₃, d₄, d₅, d₆, rfl⟩

theorem parseDigits_eq {digits : Bytes} (long : digits.length = 6)
    (all : ∀ b ∈ digits, isAsciiDigit b = true) : parseDigits digits = some (sixDigits digits) := by
  obtain ⟨d₁, d₂, d₃, d₄, d₅, d₆, rfl⟩ := six_bytes long
  simp only [List.forall_mem_cons, List.not_mem_nil, false_implies, implies_true, and_true] at all
  obtain ⟨h₁, h₂, h₃, h₄, h₅, h₆⟩ := all
  have v₁ := digitValue_lt h₁
  have v₂ := digitValue_lt h₂
  have v₃ := digitValue_lt h₃
  have v₄ := digitValue_lt h₄
  have v₅ := digitValue_lt h₅
  have v₆ := digitValue_lt h₆
  simp only [digitValue] at v₁ v₂ v₃ v₄ v₅ v₆
  -- No partial value comes near the bound.
  have small {n : Nat} (below : n < 1000000) : n < 2 ^ 128 := Nat.lt_trans below (by decide)
  simp only [parseDigits, sixDigits, digitValue, List.foldl_cons, List.foldl_nil,
    Option.bind_eq_bind, Option.bind_some, h₁, h₂, h₃, h₄, h₅, h₆, if_true, Nat.zero_mul,
    Nat.zero_add]
  rw [if_pos (small (by omega)), Option.bind_some, if_pos (small (by omega)), Option.bind_some,
    if_pos (small (by omega)), Option.bind_some, if_pos (small (by omega)), Option.bind_some,
    if_pos (small (by omega)), Option.bind_some, if_pos (small (by omega))]

theorem sixDigits_lt {digits : Bytes} (long : digits.length = 6)
    (all : ∀ b ∈ digits, isAsciiDigit b = true) : sixDigits digits < 1000000 := by
  obtain ⟨d₁, d₂, d₃, d₄, d₅, d₆, rfl⟩ := six_bytes long
  simp only [List.forall_mem_cons, List.not_mem_nil, false_implies, implies_true, and_true] at all
  obtain ⟨h₁, h₂, h₃, h₄, h₅, h₆⟩ := all
  have v₁ := digitValue_lt h₁
  have v₂ := digitValue_lt h₂
  have v₃ := digitValue_lt h₃
  have v₄ := digitValue_lt h₄
  have v₅ := digitValue_lt h₅
  have v₆ := digitValue_lt h₆
  simp only [sixDigits, List.foldl_cons, List.foldl_nil]
  omega

theorem sixDigits_injective {first second : Bytes} (long : first.length = 6)
    (long' : second.length = 6) (all : ∀ b ∈ first, isAsciiDigit b = true)
    (all' : ∀ b ∈ second, isAsciiDigit b = true) (same : sixDigits first = sixDigits second) :
    first = second := by
  obtain ⟨a₁, a₂, a₃, a₄, a₅, a₆, rfl⟩ := six_bytes long
  obtain ⟨b₁, b₂, b₃, b₄, b₅, b₆, rfl⟩ := six_bytes long'
  simp only [List.forall_mem_cons, List.not_mem_nil, false_implies, implies_true, and_true]
    at all all'
  obtain ⟨h₁, h₂, h₃, h₄, h₅, h₆⟩ := all
  obtain ⟨g₁, g₂, g₃, g₄, g₅, g₆⟩ := all'
  simp only [sixDigits, List.foldl_cons, List.foldl_nil, Nat.zero_mul, Nat.zero_add] at same
  have v₁ := digitValue_lt h₁
  have v₂ := digitValue_lt h₂
  have v₃ := digitValue_lt h₃
  have v₄ := digitValue_lt h₄
  have v₅ := digitValue_lt h₅
  have v₆ := digitValue_lt h₆
  have w₁ := digitValue_lt g₁
  have w₂ := digitValue_lt g₂
  have w₃ := digitValue_lt g₃
  have w₄ := digitValue_lt g₄
  have w₅ := digitValue_lt g₅
  have w₆ := digitValue_lt g₆
  rw [digit_eq h₁ g₁ (by omega), digit_eq h₂ g₂ (by omega), digit_eq h₃ g₃ (by omega),
    digit_eq h₄ g₄ (by omega), digit_eq h₅ g₅ (by omega), digit_eq h₆ g₆ (by omega)]

/-- The last three bytes tell numbers below `2 ^ 24` apart. -/
theorem beBytes128_injective {n m : Nat} (below : n < 2 ^ 24) (below' : m < 2 ^ 24)
    (same : beBytes128 n = beBytes128 m) : n = m := by
  have byte (i : Nat) (inside : i < 16) :
      (n >>> (8 * (15 - i))) % 256 = (m >>> (8 * (15 - i))) % 256 := by
    have entry := congrArg (fun bytes => bytes[i]?.map UInt8.toNat) same
    simpa [beBytes128, inside] using entry
  have high : n / 65536 % 256 = m / 65536 % 256 := by
    simpa [Nat.shiftRight_eq_div_pow] using byte 13 (by decide)
  have middle : n / 256 % 256 = m / 256 % 256 := by
    simpa [Nat.shiftRight_eq_div_pow] using byte 14 (by decide)
  have low : n % 256 = m % 256 := by
    simpa [Nat.shiftRight_eq_div_pow] using byte 15 (by decide)
  omega

theorem noobFromPin_eq {pin : String} (valid : isValidPin pin = true) :
    (noobFromPin pin).bytes = beBytes128 (sixDigits (utf8 pin)) := by
  obtain ⟨long, all⟩ := (isValidPin_iff pin).mp valid
  have first : (utf8 pin).head? ≠ some 0x2B := by
    intro plus
    have digit := all _ (List.mem_of_mem_head? plus)
    revert digit
    decide
  have some : (utf8 pin).isEmpty = false := by
    rw [List.isEmpty_eq_false_iff]
    rintro empty
    rw [empty] at long
    cases long
  have parsed : parseU128 (utf8 pin) = .some (sixDigits (utf8 pin)) := by
    simp only [parseU128, if_neg first, some, parseDigits_eq long all, Bool.false_eq_true, if_false]
  simp only [noobFromPin, parsed, Option.getD_some]

theorem noobFromPin_injective {p q : String} (valid : isValidPin p = true)
    (valid' : isValidPin q = true) (same : (noobFromPin p).bytes = (noobFromPin q).bytes) :
    p = q := by
  obtain ⟨long, all⟩ := (isValidPin_iff p).mp valid
  obtain ⟨long', all'⟩ := (isValidPin_iff q).mp valid'
  rw [noobFromPin_eq valid, noobFromPin_eq valid'] at same
  have small := sixDigits_lt long all
  have small' := sixDigits_lt long' all'
  have number := beBytes128_injective (by omega) (by omega) same
  exact utf8_injective (sixDigits_injective long long' all all' number)

example : (noobFromPin "123456").bytes = List.replicate 13 0 ++ [0x01, 0xE2, 0x40] := by decide

end OpenPair
