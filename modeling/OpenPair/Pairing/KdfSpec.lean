import OpenPair.Library.BlockStream
import OpenPair.Pairing.Kdf
import OpenPair.Reference

/-! The key derivation against its definition: the first bytes of
`H(1 || Z || FixedInfo) || H(2 || Z || FixedInfo) || …`, with counters that are
numbers of any size in the definition and of 32 bits in the code.
-/

set_option autoImplicit false

namespace OpenPair

/-- A number below `2 ^ 32` in four octets, the most significant first. -/
def counterOctets (n : Nat) : Bytes :=
  [UInt8.ofNat (n / 2 ^ 24), UInt8.ofNat (n / 2 ^ 16), UInt8.ofNat (n / 2 ^ 8), UInt8.ofNat n]

-- The blocks of the definition, of which the counters begin at 1.
def hashBlock (c : Crates) (z fixedInfo : Bytes) (i : Nat) : Bytes :=
  (c.sha256 (counterOctets (i + 1) ++ z ++ fixedInfo)).bytes

def oneStepKdf (c : Crates) (z fixedInfo : Bytes) (outLen : Nat) : Bytes :=
  BlockStream.first 32 (hashBlock c z fixedInfo) outLen

def maxOutLen : Nat := 32 * (2 ^ 32 - 2)

def DerivedKeys.concat (keys : DerivedKeys) : Bytes :=
  keys.msk.bytes ++ keys.emsk.bytes ++ keys.amsk.bytes ++ keys.methodId.bytes ++
    keys.kms.bytes ++ keys.kmp.bytes ++ keys.kz.bytes

section

variable {c : Crates} (z fixedInfo : Bytes)

theorem beBytes32_ofNat {n : Nat} (small : n < 2 ^ 32) :
    beBytes32 (UInt32.ofNat n) = counterOctets n := by
  have value : (UInt32.ofNat n).toNat = n := UInt32.toNat_ofNat_of_lt' small
  have octet (shift : UInt32) (bits : shift.toNat < 32) :
      (UInt32.ofNat n >>> shift).toUInt8 = UInt8.ofNat (n / 2 ^ shift.toNat) := by
    apply UInt8.toNat_inj.mp
    rw [UInt32.toNat_toUInt8, UInt32.toNat_shiftRight, value, Nat.mod_eq_of_lt bits,
      Nat.shiftRight_eq_div_pow, UInt8.toNat_ofNat']
  have last : (UInt32.ofNat n).toUInt8 = UInt8.ofNat n := by
    apply UInt8.toNat_inj.mp
    rw [UInt32.toNat_toUInt8, value, UInt8.toNat_ofNat']
  rw [beBytes32, octet 24 (by decide), octet 16 (by decide), octet 8 (by decide), last]
  rfl

theorem length_hashBlock (i : Nat) : (hashBlock c z fixedInfo i).length = 32 :=
  (c.sha256 _).length_eq

theorem kdfBlocks_eq_concat (first count : Nat) (room : first + count < 2 ^ 32) :
    kdfBlocks c z fixedInfo (UInt32.ofNat (first + 1)) count =
      BlockStream.concat (fun i => hashBlock c z fixedInfo (first + i)) count := by
  -- By induction on the blocks, for every counter that they may begin with.
  induction count generalizing first with
  | zero => rfl
  | succ count ih =>
    have counter : UInt32.ofNat (first + 1) + 1 = UInt32.ofNat (first + 1 + 1) := by
      rw [UInt32.ofNat_add (first + 1) 1]
      rfl
    have block : (kdfBlock c z fixedInfo (UInt32.ofNat (first + 1))).bytes =
        hashBlock c z fixedInfo first := by
      rw [kdfBlock, beBytes32_ofNat (by omega), hashBlock]
    rw [kdfBlocks, BlockStream.concat_succ, counter, block, ih (first + 1) (by omega)]
    simp only [Nat.add_zero, Nat.add_assoc, Nat.add_comm 1]

/-- The code's output is the definition's. -/
theorem oneStepKdfSha256_spec {outLen : Nat} (fits : outLen ≤ maxOutLen) :
    oneStepKdfSha256 c z fixedInfo outLen = some (oneStepKdf c z fixedInfo outLen) := by
  have enough : outLen ≤ 32 * (2 ^ 32 - 2) := fits
  -- The loop ends before the counter does, so that it may be given all the blocks there are.
  have blocks := kdfBlocks_eq_concat (c := c) z fixedInfo 0 (2 ^ 32 - 2) (by decide)
  simp only [Nat.zero_add] at blocks
  rw [oneStepKdfSha256_eq z fixedInfo outLen (2 ^ 32 - 2) enough (by decide), oneStepKdf,
    BlockStream.first_eq (length_hashBlock z fixedInfo) (by decide) enough, ← blocks]
  rfl

/-- The seven pieces are the output without a gap. -/
theorem DerivedKeys.concat_fromOutput {out : Bytes} {keys : DerivedKeys}
    (read : fromOutput out = some keys) : keys.concat = out.take eapnoobOutputLen := by
  rw [fromOutput, Option.dite_none_right_eq_some] at read
  obtain ⟨long, read⟩ := read
  rw [← Option.some.inj read]
  calc out.take 64 ++ (out.drop 64).take 64 ++ (out.drop 128).take 64 ++ (out.drop 192).take 32 ++
        (out.drop 224).take 32 ++ (out.drop 256).take 32 ++ (out.drop 288).take 32
      = out.take (64 + 64 + 64 + 32 + 32 + 32 + 32) := by simp only [List.take_add]
    _ = out.take eapnoobOutputLen := rfl

theorem deriveCompletion_output (np ns noob : Bytes) :
    oneStepKdfSha256 c z (eapnoobFixedInfo np ns noob) eapnoobOutputLen =
      some (deriveCompletion c z np ns noob).concat := by
  rw [DerivedKeys.concat_fromOutput (fromOutput_kdfBlocks z np ns noob), oneStepKdfSha256_output,
    List.take_of_length_le (by rw [length_kdfBlocks]; decide)]

end

/-- Up to the lengths for which the counter lasts, the code gives the first bytes
of the hashes, which a greater length only continues; the keys are its 320 bytes. -/
theorem one_step_kdf_defined (c : Crates) (z fixedInfo : Bytes) :
    (∀ outLen ≤ maxOutLen, ∃ out,
      oneStepKdfSha256 c z fixedInfo outLen = some out ∧ out.length = outLen ∧
        out = oneStepKdf c z fixedInfo outLen ∧
        ∀ shorter ≤ outLen, ∃ start,
          oneStepKdfSha256 c z fixedInfo shorter = some start ∧ start <+: out) ∧
    ∀ np ns noob,
      (deriveCompletion c z np ns noob).concat.length = eapnoobOutputLen ∧
        oneStepKdfSha256 c z (eapnoobFixedInfo np ns noob) eapnoobOutputLen =
          some (deriveCompletion c z np ns noob).concat := by
  have sized := length_hashBlock (c := c) z fixedInfo
  constructor
  · intro outLen fits
    refine ⟨_, oneStepKdfSha256_spec z fixedInfo fits, ?_, rfl, fun shorter le => ?_⟩
    · exact BlockStream.length_first sized (by decide) outLen
    · exact ⟨_, oneStepKdfSha256_spec z fixedInfo (le.trans fits),
        BlockStream.first_prefix sized (by decide) le⟩
  · intro np ns noob
    refine ⟨?_, deriveCompletion_output z np ns noob⟩
    rw [DerivedKeys.concat_fromOutput (fromOutput_kdfBlocks z np ns noob), List.length_take,
      length_kdfBlocks]
    decide

/-- Eighty bytes are two blocks and a half. -/
theorem one_step_kdf_defined_eighty :
    ∃ out, oneStepKdfSha256 Reference.crates [1] [2] 80 = some out ∧ out.length = 80 := by
  obtain ⟨out, made, length, -⟩ :=
    (one_step_kdf_defined Reference.crates [1] [2]).1 80 (by decide)
  exact ⟨out, made, length⟩

end OpenPair
