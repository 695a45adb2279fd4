import OpenPair.Crates
import OpenPair.Library.Fields
import OpenPair.Library.JsonCodec

/-! Signed cluster membership: the bytes signed by an endorsement and by a
tombstone (`membership.rs`).

The fields of a record are lines of the text that is signed. Nothing is escaped,
so that a record is the only one with its bytes when its texts are lines.
-/

set_option autoImplicit false

namespace OpenPair

/-! ## Payloads -/

def endorseDomainV1 : String := "nvpair-endorse:v1"
def endorseDomainV2 : String := "nvpair-endorse:v2"
def tombstoneDomainV1 : String := "nvpair-remove:v1"
def tombstoneDomainV2 : String := "nvpair-remove:v2"

def endorsePayloadV1 (introducedUuid fingerprint clusterId : String) (issuedAt : Int64) : Bytes :=
  utf8 (endorseDomainV1 ++ "\n" ++ introducedUuid ++ "\n" ++ fingerprint ++ "\n" ++ clusterId ++
    "\n" ++ toString issuedAt)

def endorsePayloadV2 (introducedUuid fingerprint clusterId : String)
    (admissionEpoch byAdmissionEpoch : UInt64) (issuedAt : Int64) : Bytes :=
  utf8 (endorseDomainV2 ++ "\n" ++ introducedUuid ++ "\n" ++ fingerprint ++ "\n" ++ clusterId ++
    "\n" ++ toString admissionEpoch ++ "\n" ++ toString byAdmissionEpoch ++ "\n" ++
    toString issuedAt)

def tombstonePayloadV1 (nodeUuid clusterId : String) (removedAt : Int64) : Bytes :=
  utf8 (tombstoneDomainV1 ++ "\n" ++ nodeUuid ++ "\n" ++ clusterId ++ "\n" ++ toString removedAt)

def tombstonePayloadV2 (nodeUuid clusterId : String) (admissionEpoch byAdmissionEpoch : UInt64)
    (removedAt : Int64) : Bytes :=
  utf8 (tombstoneDomainV2 ++ "\n" ++ nodeUuid ++ "\n" ++ clusterId ++ "\n" ++
    toString admissionEpoch ++ "\n" ++ toString byAdmissionEpoch ++ "\n" ++ toString removedAt)

-- `ed25519_dalek`.
structure Ed25519 where
  SigningKey : Type
  VerifyingKey : Type
  Signature : Type
  sign : SigningKey → Bytes → Signature
  toBytes : Signature → Bytes
  fromSlice : Bytes → Option Signature
  verifyStrict : VerifyingKey → Bytes → Signature → Bool

variable (c : Crates) (ed : Ed25519)

def sign (signing : ed.SigningKey) (payload : Bytes) : String :=
  c.stdEncode (ed.toBytes (ed.sign signing payload))

def verify (pubkey : ed.VerifyingKey) (payload : Bytes) (sigB64 : String) : Bool :=
  match c.stdDecode sigB64 with
  | none => false
  | some raw =>
    match ed.fromSlice raw with
    | none => false
    | some sig => ed.verifyStrict pubkey payload sig

/-! ## Records -/

/-- Which of the four functions made a payload. -/
inductive PayloadKind where
  | endorseV1
  | endorseV2
  | tombstoneV1
  | tombstoneV2
  deriving DecidableEq

def PayloadKind.domain : PayloadKind → String
  | .endorseV1 => endorseDomainV1
  | .endorseV2 => endorseDomainV2
  | .tombstoneV1 => tombstoneDomainV1
  | .tombstoneV2 => tombstoneDomainV2

theorem PayloadKind.newline_not_mem_domain (kind : PayloadKind) : '\n' ∉ kind.domain.toList := by
  cases kind <;> decide

theorem PayloadKind.domain_injective : Function.Injective PayloadKind.domain := by
  intro kind other same
  cases kind <;> cases other <;> first | rfl | exact absurd same (by decide)

inductive Payload where
  | endorseV1 (introducedUuid fingerprint clusterId : String) (issuedAt : Int64)
  | endorseV2 (introducedUuid fingerprint clusterId : String)
      (admissionEpoch byAdmissionEpoch : UInt64) (issuedAt : Int64)
  | tombstoneV1 (nodeUuid clusterId : String) (removedAt : Int64)
  | tombstoneV2 (nodeUuid clusterId : String) (admissionEpoch byAdmissionEpoch : UInt64)
      (removedAt : Int64)
  deriving DecidableEq

namespace Payload

def bytes : Payload → Bytes
  | .endorseV1 introducedUuid fingerprint clusterId issuedAt =>
    endorsePayloadV1 introducedUuid fingerprint clusterId issuedAt
  | .endorseV2 introducedUuid fingerprint clusterId admissionEpoch byAdmissionEpoch issuedAt =>
    endorsePayloadV2 introducedUuid fingerprint clusterId admissionEpoch byAdmissionEpoch issuedAt
  | .tombstoneV1 nodeUuid clusterId removedAt => tombstonePayloadV1 nodeUuid clusterId removedAt
  | .tombstoneV2 nodeUuid clusterId admissionEpoch byAdmissionEpoch removedAt =>
    tombstonePayloadV2 nodeUuid clusterId admissionEpoch byAdmissionEpoch removedAt

def kind : Payload → PayloadKind
  | .endorseV1 .. => .endorseV1
  | .endorseV2 .. => .endorseV2
  | .tombstoneV1 .. => .tombstoneV1
  | .tombstoneV2 .. => .tombstoneV2

def texts : Payload → List String
  | .endorseV1 introducedUuid fingerprint clusterId _ => [introducedUuid, fingerprint, clusterId]
  | .endorseV2 introducedUuid fingerprint clusterId _ _ _ =>
    [introducedUuid, fingerprint, clusterId]
  | .tombstoneV1 nodeUuid clusterId _ => [nodeUuid, clusterId]
  | .tombstoneV2 nodeUuid clusterId _ _ _ => [nodeUuid, clusterId]

def numbers : Payload → List Int
  | .endorseV1 _ _ _ issuedAt => [issuedAt.toInt]
  | .endorseV2 _ _ _ admissionEpoch byAdmissionEpoch issuedAt =>
    [admissionEpoch.toNat, byAdmissionEpoch.toNat, issuedAt.toInt]
  | .tombstoneV1 _ _ removedAt => [removedAt.toInt]
  | .tombstoneV2 _ _ admissionEpoch byAdmissionEpoch removedAt =>
    [admissionEpoch.toNat, byAdmissionEpoch.toNat, removedAt.toInt]

def fields (p : Payload) : List (List Char) :=
  p.kind.domain.toList :: (p.texts.map String.toList ++ p.numbers.map Json.intDigits)

variable {p q : Payload}

theorem intDigits_uint64 (n : UInt64) : Json.intDigits (n.toNat : Int) = (toString n).toList := rfl

theorem intDigits_int64 (n : Int64) : Json.intDigits n.toInt = (toString n).toList := rfl

theorem bytes_eq (p : Payload) :
    ∃ text : String, p.bytes = utf8 text ∧ text.toList ++ ['\n'] = Fields.ended '\n' p.fields := by
  cases p <;>
    exact ⟨_, rfl, by simp [fields, kind, PayloadKind.domain, texts, numbers, Fields.ended, intDigits_uint64,
      intDigits_int64, String.toList_append]⟩

theorem bytes_eq_iff : q.bytes = p.bytes ↔
    Fields.ended '\n' q.fields = Fields.ended '\n' p.fields := by
  obtain ⟨text, written, ended⟩ := p.bytes_eq
  obtain ⟨text', written', ended'⟩ := q.bytes_eq
  rw [written, written', ← ended, ← ended', List.append_left_inj, String.toList_inj]
  exact ⟨fun same => utf8_injective same, fun same => congrArg utf8 same⟩

theorem newline_not_mem_intDigits (n : Int) : '\n' ∉ Json.intDigits n := by
  have digits (m : Nat) : '\n' ∉ Json.natDigits m := by
    intro member
    have digit := Nat.isDigit_of_mem_toDigits (by decide : 0 < 10) (by decide) member
    cases digit
  cases n with
  | ofNat n =>
    rw [show Json.intDigits (Int.ofNat n) = Json.natDigits n from Json.intDigits_ofNat n]
    exact digits n
  | negSucc n =>
    rw [show Json.intDigits (Int.negSucc n) = '-' :: Json.natDigits (n + 1) from
      Json.intDigits_neg n, List.mem_cons, not_or]
    exact ⟨by decide, digits _⟩

theorem intDigits_injective : Function.Injective Json.intDigits := by
  intro m n same
  have read := Json.readInt_intDigits m
  rw [same, Json.readInt_intDigits] at read
  exact (Option.some.inj read).symm

theorem newline_not_mem_fields_iff :
    (∀ field ∈ p.fields, '\n' ∉ field) ↔ ∀ text ∈ p.texts, '\n' ∉ text.toList := by
  simp only [fields, List.forall_mem_cons, List.forall_mem_append, List.forall_mem_map]
  exact ⟨fun free => free.2.1, fun free =>
    ⟨p.kind.newline_not_mem_domain, free, fun n _ => newline_not_mem_intDigits n⟩⟩

/-! ## Reading a record back -/

theorem length_texts (kinds : q.kind = p.kind) : q.texts.length = p.texts.length := by
  cases p <;> cases q <;> cases kinds <;> simp only [texts, List.length_cons, List.length_nil]

theorem length_numbers (kinds : q.kind = p.kind) : q.numbers.length = p.numbers.length := by
  cases p <;> cases q <;> cases kinds <;> simp only [numbers, List.length_cons, List.length_nil]

theorem eq_of_parts (kinds : q.kind = p.kind) (sameTexts : q.texts = p.texts)
    (sameNumbers : q.numbers = p.numbers) : q = p := by
  cases p <;> cases q <;> cases kinds <;>
    simp only [texts, numbers, List.cons.injEq, and_true, Int.natCast_inj, UInt64.toNat_inj,
      Int64.toInt_inj] at sameTexts sameNumbers <;>
    simp only [sameTexts, sameNumbers]

theorem eq_of_fields (same : q.fields = p.fields) : q = p := by
  obtain ⟨domains, rest⟩ := List.cons.inj same
  have kinds := PayloadKind.domain_injective (String.toList_inj.mp domains)
  obtain ⟨sameTexts, sameNumbers⟩ := List.append_inj rest (by simp [length_texts kinds])
  refine eq_of_parts kinds ?_ ?_
  · exact List.map_injective_iff.mpr (fun _ _ => String.toList_inj.mp) sameTexts
  · exact List.map_injective_iff.mpr intDigits_injective sameNumbers

/-- Two payloads with the same bytes are of one kind. -/
theorem kind_eq_of_bytes (same : q.bytes = p.bytes) : q.kind = p.kind := by
  rw [bytes_eq_iff, fields, fields, Fields.ended_cons, Fields.ended_cons] at same
  have domains := (Fields.first_eq q.kind.newline_not_mem_domain p.kind.newline_not_mem_domain same).1
  exact PayloadKind.domain_injective (String.toList_inj.mp domains)

theorem eq_of_bytes (free : ∀ text ∈ p.texts, '\n' ∉ text.toList) (same : q.bytes = p.bytes) :
    q = p := by
  have kinds := kind_eq_of_bytes same
  have long : q.fields.length = p.fields.length := by
    simp [fields, length_texts kinds, length_numbers kinds]
  exact eq_of_fields (Fields.eq_of_free (newline_not_mem_fields_iff.mpr free) long
    (bytes_eq_iff.mp same))

/-! ## Records that cannot be told apart -/

theorem exists_texts (p : Payload) {others : List String} (long : others.length = p.texts.length) :
    ∃ q : Payload, q.kind = p.kind ∧ q.texts = others ∧ q.numbers = p.numbers := by
  cases p with
  | endorseV1 introducedUuid fingerprint clusterId issuedAt =>
    obtain ⟨a, b, d, rfl⟩ := List.length_eq_three.mp long
    exact ⟨.endorseV1 a b d issuedAt, rfl, rfl, rfl⟩
  | endorseV2 introducedUuid fingerprint clusterId admissionEpoch byAdmissionEpoch issuedAt =>
    obtain ⟨a, b, d, rfl⟩ := List.length_eq_three.mp long
    exact ⟨.endorseV2 a b d admissionEpoch byAdmissionEpoch issuedAt, rfl, rfl, rfl⟩
  | tombstoneV1 nodeUuid clusterId removedAt =>
    obtain ⟨a, b, rfl⟩ := List.length_eq_two.mp long
    exact ⟨.tombstoneV1 a b removedAt, rfl, rfl, rfl⟩
  | tombstoneV2 nodeUuid clusterId admissionEpoch byAdmissionEpoch removedAt =>
    obtain ⟨a, b, rfl⟩ := List.length_eq_two.mp long
    exact ⟨.tombstoneV2 a b admissionEpoch byAdmissionEpoch removedAt, rfl, rfl, rfl⟩

theorem exists_same_bytes (inside : ∃ text ∈ p.texts, '\n' ∈ text.toList) :
    ∃ q : Payload, q ≠ p ∧ q.bytes = p.bytes := by
  obtain ⟨text, member, newline⟩ := inside
  have two : 2 ≤ (p.texts.map String.toList).length := by
    cases p <;> simp [texts]
  obtain ⟨others, long, differs, same⟩ := Fields.exists_other two
    ⟨text.toList, List.mem_map_of_mem member, newline⟩
  have fits : (others.map String.ofList).length = p.texts.length := by simpa using long
  obtain ⟨q, kinds, sameTexts, sameNumbers⟩ := exists_texts p fits
  have lists : q.texts.map String.toList = others := by
    rw [sameTexts, List.map_map]
    simp [Function.comp_def]
  refine ⟨q, fun equal => differs ?_, bytes_eq_iff.mpr ?_⟩
  · rw [← lists, equal]
  · rw [fields, fields, Fields.ended_cons, Fields.ended_cons, Fields.ended_append,
      Fields.ended_append, lists, kinds, sameNumbers, same]

/-- A payload is the only one with its bytes exactly when none of its texts
holds a newline. -/
theorem unambiguous_iff (p : Payload) :
    (∀ q : Payload, q.bytes = p.bytes → q = p) ↔ ∀ text ∈ p.texts, '\n' ∉ text.toList := by
  constructor
  · intro only text member newline
    obtain ⟨q, differs, same⟩ := exists_same_bytes ⟨text, member, newline⟩
    exact differs (only q same)
  · intro free q same
    exact eq_of_bytes free same

/-- A line of the fingerprint is as good as a line of the node's name. -/
theorem shifted_line :
    (endorseV1 "uu\nsha256:aa" "sha256:ff" "cl" 0).bytes =
      (endorseV1 "uu" "sha256:aa\nsha256:ff" "cl" 0).bytes ∧
    endorseV1 "uu\nsha256:aa" "sha256:ff" "cl" 0 ≠
      endorseV1 "uu" "sha256:aa\nsha256:ff" "cl" 0 := by
  refine ⟨?_, by decide⟩
  rw [bytes_eq_iff]
  decide

end Payload

end OpenPair
