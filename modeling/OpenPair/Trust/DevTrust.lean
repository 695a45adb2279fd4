import OpenPair.Trust.Pem

/-! The PEM reader of the development trust directory (`pair-node`, `trust.rs`),
a copy of the one in `identity.rs`. Its loops are modelled with the variables
they assign, and compute the same.
-/

set_option autoImplicit false

namespace OpenPair

namespace DevTrust

-- `rev`, filled from the alphabet.
def reverseTable : List UInt8 :=
  base64Table.zipIdx.foldl (fun rev entry => rev.set entry.1.toNat (UInt8.ofNat entry.2))
    (List.replicate 256 255)

-- One character: `none` returns from the function.
def base64Step (state : Bytes × UInt32 × UInt32) (b : UInt8) : Option (Bytes × UInt32 × UInt32) :=
  let (out, buf, bits) := state
  if b == 0x3D || isAsciiWhitespace b then some (out, buf, bits)
  else
    let v := reverseTable.getD b.toNat 255
    if v = 255 then none
    else
      let buf := (buf <<< 6) ||| v.toUInt32
      let bits := bits + 6
      if 8 ≤ bits then some (out ++ [(buf >>> (bits - 8)).toUInt8], buf, bits - 8)
      else some (out, buf, bits)

def base64Decode (s : List Char) : Option Bytes :=
  ((utf8 (String.ofList s)).foldlM base64Step ([], 0, 0)).map (·.1)

-- The loop of `pem_cert_to_der`, which the closing marker breaks.
def pemLoop (b64 : List Char) (inBlock : Bool) : List (List Char) → List Char
  | [] => b64
  | line :: rest =>
    if beginCertificate.isPrefixOf line then pemLoop b64 true rest
    else if endCertificate.isPrefixOf line then b64
    else if inBlock then pemLoop (b64 ++ trim line) inBlock rest
    else pemLoop b64 inBlock rest

def pemCertToDer (pem : String) : Option Bytes :=
  let b64 := pemLoop [] false (lines pem)
  if b64.isEmpty then none else base64Decode b64

/-! ## The same results -/

theorem getD_foldl_set (b : UInt8) {digits : Bytes} (nodup : digits.Nodup) {rev : List UInt8}
    (long : rev.length = 256) (start : Nat) :
    ((digits.zipIdx start).foldl (fun rev entry => rev.set entry.1.toNat (UInt8.ofNat entry.2))
        rev).getD b.toNat 255 =
      match digits.idxOf? b with
      | some i => UInt8.ofNat (start + i)
      | none => rev.getD b.toNat 255 := by
  induction digits generalizing rev start with
  | nil => rfl
  | cons digit digits ih =>
    obtain ⟨new, nodup⟩ := List.nodup_cons.mp nodup
    have long' : (rev.set digit.toNat (UInt8.ofNat start)).length = 256 :=
      List.length_set.trans long
    rw [List.zipIdx_cons, List.foldl_cons, ih nodup long', List.idxOf?_cons]
    by_cases same : digit = b
    · subst same
      have absent : digits.idxOf? digit = none := List.idxOf?_eq_none_iff.mpr new
      simp [absent, long, digit.toNat_lt]
    · have elsewhere : digit.toNat ≠ b.toNat := fun equal => same (UInt8.toNat_inj.mp equal)
      cases found : digits.idxOf? b with
      | none => simp [same, elsewhere, List.getElem?_set_ne]
      | some i => simp [same, Nat.add_assoc, Nat.add_comm 1 i]

theorem nodup_base64Table : base64Table.Nodup := by
  rw [base64Table_eq]
  decide

theorem reverseTable_getD (b : UInt8) : reverseTable.getD b.toNat 255 = base64Value b := by
  have empty : (List.replicate 256 (255 : UInt8)).getD b.toNat 255 = 255 := by
    rw [List.getD_eq_getElem?_getD, List.getElem?_replicate_of_lt b.toNat_lt]
    rfl
  rw [reverseTable, getD_foldl_set b nodup_base64Table List.length_replicate, base64Value, empty]
  cases base64Table.idxOf? b with
  | none => rfl
  | some i => simp only [Nat.zero_add]

/-- The bytes put out so far stay in front of those still to come. -/
theorem foldlM_base64Step (text out : Bytes) (buf bits : UInt32) :
    (text.foldlM base64Step (out, buf, bits)).map (·.1) =
      (base64Loop buf bits text).map (out ++ ·) := by
  induction text generalizing out buf bits with
  | nil => simp [base64Loop]
  | cons b text ih =>
    rw [List.foldlM_cons, base64Loop, base64Step]
    dsimp only
    rw [reverseTable_getD]
    split
    · exact ih out buf bits
    · split
      · rfl
      · split
        · rw [Option.map_map]
          refine (ih _ _ _).trans ?_
          congr 1
          funext more
          exact List.append_assoc _ _ _
        · exact ih _ _ _

theorem base64Decode_eq (s : List Char) : base64Decode s = OpenPair.base64Decode s := by
  rw [base64Decode, foldlM_base64Step, OpenPair.base64Decode]
  exact Option.map_id'

theorem pemLoop_eq (b64 : List Char) (inBlock : Bool) (text : List (List Char)) :
    pemLoop b64 inBlock text = b64 ++ pemBody inBlock text := by
  induction text generalizing b64 inBlock with
  | nil => exact (List.append_nil b64).symm
  | cons line text ih =>
    rw [pemLoop, pemBody]
    split
    · exact ih b64 true
    · split
      · exact (List.append_nil b64).symm
      · split
        · rw [ih, List.append_assoc]
        · exact ih b64 inBlock

theorem pemCertToDer_eq (pem : String) : pemCertToDer pem = OpenPair.pemCertToDer pem := by
  simp only [pemCertToDer, OpenPair.pemCertToDer, pemLoop_eq, List.nil_append, base64Decode_eq]

end DevTrust

/-- A certificate is read back from every text that holds it, and the copy in
the node reads every text as the library does. -/
theorem pem_round_trip {der : Bytes} (some : der ≠ []) (file : PemText der) :
    pemCertToDer file.text = .some der ∧
      ∀ pem, DevTrust.pemCertToDer pem = pemCertToDer pem :=
  ⟨pemCertToDer_text some file, DevTrust.pemCertToDer_eq⟩

-- Three bytes, in two lines of different widths, endings and spaces.
def sampleText : PemText [1, 2, 3] where
  before := "subject\r\n".toList
  trailer := ['\r']
  body := [⟨[' '], ['A'], ['\t'], true, by simp [isWhitespace]⟩,
    ⟨[], ['Q', 'I', 'D'], [' '], false, by simp [isWhitespace]⟩]
  after := " and more".toList
  starts := by decide
  unmarked := by
    have one : lines (String.ofList "subject\r\n".toList) = ["subject".toList] := by decide
    have plain : "subject".toList.all (· ≠ '-') = true := by decide
    intro line member
    rw [one, List.mem_singleton] at member
    rw [member]
    exact not_isMarker fun ch inside => of_decide_eq_true (List.all_eq_true.mp plain ch inside)
  one := by decide
  encodes := by decide

theorem pem_round_trip_sample : pemCertToDer sampleText.text = .some [1, 2, 3] ∧
    ∀ pem, DevTrust.pemCertToDer pem = pemCertToDer pem :=
  pem_round_trip (by decide) sampleText

end OpenPair
