import Mathlib.Data.List.Basic

/-! Base64 over an alphabet, with or without padding.

A text is decoded when it is exactly what its bytes encode to, so stray bits
and misplaced padding are refused.
-/

set_option autoImplicit false

namespace Base64

/-- Sixty-four characters, the padding sign not among them. -/
structure Alphabet where
  char : Nat → Char
  value : Char → Option Nat
  value_char : ∀ n < 64, value (char n) = some n
  value_pad : value '=' = none

/-- The letters and digits common to both alphabets, then the two signs given. -/
def charWith (plus slash : Char) (n : Nat) : Char :=
  if n < 26 then Char.ofNat (0x41 + n)
  else if n < 52 then Char.ofNat (0x61 + (n - 26))
  else if n < 62 then Char.ofNat (0x30 + (n - 52))
  else if n = 62 then plus
  else slash

def valueWith (plus slash : Char) (ch : Char) : Option Nat :=
  if 'A' ≤ ch ∧ ch ≤ 'Z' then some (ch.toNat - 0x41)
  else if 'a' ≤ ch ∧ ch ≤ 'z' then some (ch.toNat - 0x61 + 26)
  else if '0' ≤ ch ∧ ch ≤ '9' then some (ch.toNat - 0x30 + 52)
  else if ch = plus then some 62
  else if ch = slash then some 63
  else none

def standard : Alphabet where
  char := charWith '+' '/'
  value := valueWith '+' '/'
  value_char := by decide
  value_pad := by decide

def urlSafe : Alphabet where
  char := charWith '-' '_'
  value := valueWith '-' '_'
  value_char := by decide
  value_pad := by decide

/-! ## Six bits and eight bits -/

/-- Three bytes are four sextets; one or two bytes at the end are filled with zero bits. -/
def sextets : List UInt8 → List Nat
  | a :: b :: c :: rest =>
    a.toNat / 4 :: (a.toNat % 4 * 16 + b.toNat / 16) :: (b.toNat % 16 * 4 + c.toNat / 64) ::
      c.toNat % 64 :: sextets rest
  | [a, b] => [a.toNat / 4, a.toNat % 4 * 16 + b.toNat / 16, b.toNat % 16 * 4]
  | [a] => [a.toNat / 4, a.toNat % 4 * 16]
  | [] => []

def octets : List Nat → List UInt8
  | v :: w :: x :: y :: rest =>
    UInt8.ofNat (v * 4 + w / 16) :: UInt8.ofNat (w % 16 * 16 + x / 4) ::
      UInt8.ofNat (x % 4 * 64 + y) :: octets rest
  | [v, w, x] => [UInt8.ofNat (v * 4 + w / 16), UInt8.ofNat (w % 16 * 16 + x / 4)]
  | [v, w] => [UInt8.ofNat (v * 4 + w / 16)]
  | _ => []

theorem ofNat_eq {b : UInt8} {n : Nat} (same : n = b.toNat) : UInt8.ofNat n = b := by
  rw [same, UInt8.ofNat_toNat]

theorem octets_sextets (bytes : List UInt8) : octets (sextets bytes) = bytes := by
  induction bytes using sextets.induct with
  | case1 a b c rest ih =>
    have := a.toNat_lt
    have := b.toNat_lt
    have := c.toNat_lt
    rw [sextets, octets, ih, ofNat_eq (b := a) (by omega), ofNat_eq (b := b) (by omega),
      ofNat_eq (b := c) (by omega)]
  | case2 a b =>
    have := a.toNat_lt
    have := b.toNat_lt
    rw [sextets, octets, ofNat_eq (b := a) (by omega), ofNat_eq (b := b) (by omega)]
  | case3 a =>
    have := a.toNat_lt
    rw [sextets, octets, ofNat_eq (b := a) (by omega)]
  | case4 => rfl

theorem sextets_lt (bytes : List UInt8) : ∀ n ∈ sextets bytes, n < 64 := by
  induction bytes using sextets.induct with
  | case1 a b c rest ih =>
    have := a.toNat_lt
    have := b.toNat_lt
    have := c.toNat_lt
    simp only [sextets, List.forall_mem_cons]
    exact ⟨by omega, by omega, by omega, by omega, ih⟩
  | case2 a b =>
    have := a.toNat_lt
    have := b.toNat_lt
    simp only [sextets, List.forall_mem_cons]
    exact ⟨by omega, by omega, by omega, fun _ wrong => (List.not_mem_nil wrong).elim⟩
  | case3 a =>
    have := a.toNat_lt
    simp only [sextets, List.forall_mem_cons]
    exact ⟨by omega, by omega, fun _ wrong => (List.not_mem_nil wrong).elim⟩
  | case4 => exact fun _ wrong => (List.not_mem_nil wrong).elim

/-! ## Texts -/

variable (alphabet : Alphabet) (padded : Bool)

def padding (bytes : List UInt8) : List Char :=
  if padded then List.replicate ((3 - bytes.length % 3) % 3) '=' else []

def encode (bytes : List UInt8) : List Char :=
  (sextets bytes).map alphabet.char ++ padding padded bytes

def decode (text : List Char) : Option (List UInt8) := do
  let values ← (text.takeWhile (· != '=')).mapM alphabet.value
  if encode alphabet padded (octets values) = text then some (octets values) else none

theorem mapM_value {values : List Nat} (small : ∀ n ∈ values, n < 64) :
    (values.map alphabet.char).mapM alphabet.value = some values := by
  induction values with
  | nil => rfl
  | cons n values ih =>
    rw [List.map_cons, List.mapM_cons, alphabet.value_char n (small n List.mem_cons_self),
      ih fun m member => small m (List.mem_cons_of_mem _ member)]
    rfl

theorem takeWhile_encode (bytes : List UInt8) :
    (encode alphabet padded bytes).takeWhile (· != '=') = (sextets bytes).map alphabet.char := by
  have letters : ∀ ch ∈ (sextets bytes).map alphabet.char, (ch != '=') = true := by
    intro ch member
    obtain ⟨n, found, rfl⟩ := List.mem_map.mp member
    have value := alphabet.value_char n (sextets_lt bytes n found)
    rw [bne_iff_ne]
    intro pad
    rw [pad, alphabet.value_pad] at value
    cases value
  rw [encode, List.takeWhile_append_of_pos letters, padding]
  cases padded with
  | false => simp
  | true => cases (3 - bytes.length % 3) % 3 <;> simp [List.replicate_succ]

theorem decode_encode (bytes : List UInt8) :
    decode alphabet padded (encode alphabet padded bytes) = some bytes := by
  rw [decode, takeWhile_encode, mapM_value alphabet (sextets_lt bytes)]
  simp [octets_sextets]

example : String.ofList (encode urlSafe false [0xFB, 0xFF]) = "-_8" := by decide

end Base64
