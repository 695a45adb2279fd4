import Mathlib.Data.List.Basic

/-! Reading bytes as UTF-8 with replacement.

Every longest run of bytes that begins a character and does not end one, and
every byte that begins none, is read as one U+FFFD.
-/

set_option autoImplicit false

namespace Utf8

def isTail (b : UInt8) : Bool := 0x80 ≤ b && b ≤ 0xBF

-- The second bytes that a first byte of a longer character allows.
def allows (first second : UInt8) : Bool :=
  if first = 0xE0 then 0xA0 ≤ second && second ≤ 0xBF
  else if first = 0xED then 0x80 ≤ second && second ≤ 0x9F
  else if first = 0xF0 then 0x90 ≤ second && second ≤ 0xBF
  else if first = 0xF4 then 0x80 ≤ second && second ≤ 0x8F
  else isTail second

def invalidLength : List UInt8 → Nat
  | a :: b :: rest =>
    if 0xE0 ≤ a && a ≤ 0xF4 && allows a b then
      match rest with
      | x :: _ => if 0xF0 ≤ a && isTail x then 3 else 2
      | [] => 2
    else 1
  | _ => 1

-- `String::from_utf8_lossy` on at most so many characters.
def lossyFrom : Nat → List UInt8 → List Char
  | 0, _ => []
  | fuel + 1, bytes =>
    if bytes.isEmpty then []
    else
      match ByteArray.utf8DecodeChar? bytes.toByteArray 0 with
      | some ch => ch :: lossyFrom fuel (bytes.drop ch.utf8Size)
      | none => Char.ofNat 0xFFFD :: lossyFrom fuel (bytes.drop (invalidLength bytes))

def lossy (bytes : List UInt8) : String := String.ofList (lossyFrom bytes.length bytes)

theorem decode_encode (ch : Char) (rest : List UInt8) :
    ByteArray.utf8DecodeChar? (String.utf8EncodeChar ch ++ rest).toByteArray 0 = some ch := by
  rw [List.toByteArray_append]
  exact ByteArray.utf8DecodeChar?_utf8EncodeChar_append

theorem lossyFrom_encode (text : List Char) (fuel : Nat)
    (enough : (text.flatMap String.utf8EncodeChar).length ≤ fuel) :
    lossyFrom fuel (text.flatMap String.utf8EncodeChar) = text := by
  induction text generalizing fuel with
  | nil => cases fuel <;> rfl
  | cons ch text ih =>
    rw [List.flatMap_cons] at enough ⊢
    rw [List.length_append, String.length_utf8EncodeChar] at enough
    have size := ch.utf8Size_pos
    cases fuel with
    | zero => omega
    | succ fuel =>
      have some : (String.utf8EncodeChar ch ++ text.flatMap String.utf8EncodeChar).isEmpty = false := by
        rw [List.isEmpty_eq_false_iff, ← List.length_pos_iff, List.length_append,
          String.length_utf8EncodeChar]
        omega
      have dropped : (String.utf8EncodeChar ch ++ text.flatMap String.utf8EncodeChar).drop
          ch.utf8Size = text.flatMap String.utf8EncodeChar := by
        rw [← String.length_utf8EncodeChar ch, List.drop_left]
      rw [lossyFrom, some]
      simp only [Bool.false_eq_true, if_false, decode_encode, dropped]
      rw [ih fuel (by omega)]

/-- Valid UTF-8 is read as it stands. -/
theorem lossy_utf8 (s : String) : lossy s.toUTF8.data.toList = s := by
  have bytes : s.toUTF8.data.toList = s.toList.flatMap String.utf8EncodeChar := by
    have same : s.toUTF8 = (String.ofList s.toList).toByteArray := by
      rw [String.ofList_toList]
      rfl
    rw [same, String.toByteArray_ofList, List.utf8Encode]
    simp
  rw [lossy, bytes, lossyFrom_encode _ _ (Nat.le_refl _), String.ofList_toList]

end Utf8
