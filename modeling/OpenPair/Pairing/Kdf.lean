import OpenPair.Crates

/-! The one-step key derivation of `kdf.rs` and its 320-byte split. -/

set_option autoImplicit false

namespace OpenPair

variable (c : Crates)

def eapnoobOutputLen : Nat := 320

/-- `u32::to_be_bytes`. -/
def beBytes32 (n : UInt32) : Bytes :=
  [(n >>> 24).toUInt8, (n >>> 16).toUInt8, (n >>> 8).toUInt8, n.toUInt8]

/-- The loop of `one_step_kdf_sha256`; `none` where `counter += 1` overflows. -/
def kdfLoop (z fixedInfo : Bytes) (outLen : Nat) (counter : UInt32) (out : Bytes) : Option Bytes :=
  if out.length < outLen then
    if counter = 0xFFFFFFFF then none
    else kdfLoop z fixedInfo outLen (counter + 1)
      (out ++ (c.sha256 (beBytes32 counter ++ z ++ fixedInfo)).bytes)
  else some (out.take outLen)
termination_by outLen - out.length
decreasing_by
  have block := (c.sha256 (beBytes32 counter ++ z ++ fixedInfo)).length_eq
  simp only [List.length_append, block]
  omega

def oneStepKdfSha256 (z fixedInfo : Bytes) (outLen : Nat) : Option Bytes :=
  kdfLoop c z fixedInfo outLen 1 []

-- `ALGORITHM_ID`, the bytes of `EAP-NOOB`.
def algorithmId : Bytes := [0x45, 0x41, 0x50, 0x2D, 0x4E, 0x4F, 0x4F, 0x42]

def eapnoobFixedInfo (np ns noob : Bytes) : Bytes :=
  algorithmId ++ np ++ ns ++ [UInt8.ofNat noob.length] ++ noob

structure DerivedKeys where
  msk : ByteArr 64
  emsk : ByteArr 64
  amsk : ByteArr 64
  methodId : ByteArr 32
  kms : ByteArr 32
  kmp : ByteArr 32
  kz : ByteArr 32
  deriving DecidableEq

def DerivedKeys.fromOutput (out : Bytes) : Option DerivedKeys :=
  if long : eapnoobOutputLen ≤ out.length then
    some
      { msk := .slice out 0 64 (Nat.le_trans (by decide) long)
        emsk := .slice out 64 64 (Nat.le_trans (by decide) long)
        amsk := .slice out 128 64 (Nat.le_trans (by decide) long)
        methodId := .slice out 192 32 (Nat.le_trans (by decide) long)
        kms := .slice out 224 32 (Nat.le_trans (by decide) long)
        kmp := .slice out 256 32 (Nat.le_trans (by decide) long)
        kz := .slice out 288 32 (Nat.le_trans (by decide) long) }
  else none

/-! ## The output of the loop

The blocks are what the loop appends, stated without its accumulator.
-/

/-- `H(counter || z || fixedInfo)`. -/
def kdfBlock (z fixedInfo : Bytes) (counter : UInt32) : ByteArr 32 :=
  c.sha256 (beBytes32 counter ++ z ++ fixedInfo)

-- The blocks of `count` counters from `counter` on.
def kdfBlocks (z fixedInfo : Bytes) (counter : UInt32) : Nat → Bytes
  | 0 => []
  | count + 1 => (kdfBlock c z fixedInfo counter).bytes ++ kdfBlocks z fixedInfo (counter + 1) count

variable {c}

theorem length_kdfBlocks (z fixedInfo : Bytes) (counter : UInt32) (count : Nat) :
    (kdfBlocks c z fixedInfo counter count).length = 32 * count := by
  induction count generalizing counter with
  | zero => rfl
  | succ count ih =>
    simp only [kdfBlocks, List.length_append, ih, (kdfBlock c z fixedInfo counter).length_eq]
    omega

theorem kdfLoop_eq (z fixedInfo : Bytes) (outLen count : Nat) (counter : UInt32) (out : Bytes)
    (enough : outLen ≤ out.length + 32 * count) (room : counter.toNat + count < 2 ^ 32) :
    kdfLoop c z fixedInfo outLen counter out =
      some ((out ++ kdfBlocks c z fixedInfo counter count).take outLen) := by
  induction count generalizing counter out with
  | zero =>
    rw [kdfLoop, if_neg (by omega)]
    simp only [kdfBlocks, List.append_nil]
  | succ count ih =>
    rw [kdfLoop]
    by_cases short : out.length < outLen
    · have below : counter ≠ 0xFFFFFFFF := by
        rintro rfl
        simp at room
        omega
      have next : (counter + 1).toNat = counter.toNat + 1 := by
        rw [UInt32.toNat_add]
        simp only [UInt32.toNat_one]
        omega
      rw [if_pos short, if_neg below, ih]
      · simp only [kdfBlocks, kdfBlock, List.append_assoc]
      · simp only [List.length_append, (c.sha256 _).length_eq]
        omega
      · omega
    · rw [if_neg short, List.take_append_of_le_length (by omega)]

theorem oneStepKdfSha256_eq (z fixedInfo : Bytes) (outLen count : Nat) (enough : outLen ≤ 32 * count)
    (room : count + 1 < 2 ^ 32) :
    oneStepKdfSha256 c z fixedInfo outLen =
      some ((kdfBlocks c z fixedInfo 1 count).take outLen) := by
  rw [oneStepKdfSha256, kdfLoop_eq z fixedInfo outLen count 1 [] (by simpa using enough)]
  · rfl
  · simp only [UInt32.toNat_one]
    omega

theorem oneStepKdfSha256_output (z fixedInfo : Bytes) :
    oneStepKdfSha256 c z fixedInfo eapnoobOutputLen = some (kdfBlocks c z fixedInfo 1 10) := by
  rw [oneStepKdfSha256_eq z fixedInfo eapnoobOutputLen 10 (by decide) (by decide)]
  rw [List.take_of_length_le (by rw [length_kdfBlocks]; decide)]

variable (c) in
/-- The keys cut out of the blocks; the two `expect`s of `derive_completion` never fire. -/
theorem deriveCompletion_isSome (z np ns noob : Bytes) :
    ((oneStepKdfSha256 c z (eapnoobFixedInfo np ns noob) eapnoobOutputLen).bind
      DerivedKeys.fromOutput).isSome = true := by
  rw [oneStepKdfSha256_output, Option.bind_some, DerivedKeys.fromOutput,
    dif_pos (by rw [length_kdfBlocks]; decide)]
  rfl

variable (c) in
def deriveCompletion (z np ns noob : Bytes) : DerivedKeys :=
  ((oneStepKdfSha256 c z (eapnoobFixedInfo np ns noob) eapnoobOutputLen).bind
    DerivedKeys.fromOutput).get (deriveCompletion_isSome c z np ns noob)

theorem slice_kdfBlocks (z fixedInfo : Bytes) (counter : UInt32) (count index : Nat)
    (bound : 32 * index + 32 ≤ (kdfBlocks c z fixedInfo counter count).length) :
    ByteArr.slice (kdfBlocks c z fixedInfo counter count) (32 * index) 32 bound =
      kdfBlock c z fixedInfo (counter + UInt32.ofNat index) := by
  apply ByteArr.ext
  simp only [ByteArr.slice]
  induction count generalizing counter index with
  | zero => simp [kdfBlocks] at bound
  | succ count ih =>
    have block := (kdfBlock c z fixedInfo counter).length_eq
    cases index with
    | zero => simp [kdfBlocks, block]
    | succ index =>
      have shift : counter + UInt32.ofNat (index + 1) = counter + 1 + UInt32.ofNat index := by
        rw [UInt32.ofNat_add, UInt32.add_assoc, UInt32.add_comm (UInt32.ofNat index)]
        rfl
      rw [kdfBlocks, List.drop_append, List.drop_of_length_le (by omega), List.nil_append, block,
        shift, show 32 * (index + 1) - 32 = 32 * index by omega]
      apply ih
      simp only [kdfBlocks, List.length_append, block] at bound
      omega

theorem fromOutput_kdfBlocks (z np ns noob : Bytes) :
    DerivedKeys.fromOutput (kdfBlocks c z (eapnoobFixedInfo np ns noob) 1 10) =
      some (deriveCompletion c z np ns noob) := by
  have output := oneStepKdfSha256_output (c := c) z (eapnoobFixedInfo np ns noob)
  calc DerivedKeys.fromOutput (kdfBlocks c z (eapnoobFixedInfo np ns noob) 1 10)
      = (oneStepKdfSha256 c z (eapnoobFixedInfo np ns noob) eapnoobOutputLen).bind
          DerivedKeys.fromOutput := by rw [output, Option.bind_some]
    _ = some (deriveCompletion c z np ns noob) := (Option.some_get _).symm

/-- Kmp is the ninth block and Kz the tenth, so both are hashes of the same `z || FixedInfo`. -/
theorem deriveCompletion_kmp_kz (z np ns noob : Bytes) :
    (deriveCompletion c z np ns noob).kmp = kdfBlock c z (eapnoobFixedInfo np ns noob) 9 ∧
      (deriveCompletion c z np ns noob).kz = kdfBlock c z (eapnoobFixedInfo np ns noob) 10 := by
  have long : eapnoobOutputLen ≤ (kdfBlocks c z (eapnoobFixedInfo np ns noob) 1 10).length := by
    rw [length_kdfBlocks]
    decide
  have output := fromOutput_kdfBlocks (c := c) z np ns noob
  rw [DerivedKeys.fromOutput, dif_pos long] at output
  rw [← Option.some.inj output]
  exact ⟨slice_kdfBlocks z _ 1 10 8 (Nat.le_trans (by decide) long),
    slice_kdfBlocks z _ 1 10 9 (Nat.le_trans (by decide) long)⟩

end OpenPair
