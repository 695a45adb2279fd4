import OpenPair.Codec
import OpenPair.Reference
import OpenPair.Trust.Membership

/-! The JSON of an endorsement and of a tombstone (`membership.rs`). An epoch of
zero and an empty signature are not written, so that what a member signed over
the fields of a record is what the reader verifies.
-/

set_option autoImplicit false

namespace OpenPair

variable {F : Type}

/-- A trusted member's signed vouching for an introduced node's certificate. -/
structure Endorsement where
  by' : String
  fingerprint : String
  clusterId : String
  admissionEpoch : UInt64
  byAdmissionEpoch : UInt64
  issuedAt : Int64
  sig : String
  sigV2 : String
  deriving DecidableEq

/-- A trusted member's signed assertion that a node was removed. -/
structure Tombstone where
  nodeUuid : String
  clusterId : String
  admissionEpoch : UInt64
  by' : String
  byAdmissionEpoch : UInt64
  removedAt : Int64
  sig : String
  sigV2 : String
  deriving DecidableEq

namespace Endorsement

def fieldNames : List String :=
  ["by", "fingerprint", "clusterId", "admissionEpoch", "byAdmissionEpoch", "issuedAt", "sig", "sigV2"]

def fields (e : Endorsement) : List (Option (Json.Tree F)) :=
  [Codec.string.required e.by', Codec.string.required e.fingerprint,
    Codec.string.required e.clusterId, Codec.u64.defaulted 0 e.admissionEpoch,
    Codec.u64.defaulted 0 e.byAdmissionEpoch, Codec.i64.required e.issuedAt,
    Codec.string.defaulted "" e.sig, Codec.string.defaulted "" e.sigV2]

def ofFields : List (Option (Json.Tree F)) → Option Endorsement
  | [by', fingerprint, clusterId, admissionEpoch, byAdmissionEpoch, issuedAt, sig, sigV2] => do
    return { by' := ← Codec.string.readRequired by'
             fingerprint := ← Codec.string.readRequired fingerprint
             clusterId := ← Codec.string.readRequired clusterId
             admissionEpoch := ← readDefault Codec.u64.ofTree 0 admissionEpoch
             byAdmissionEpoch := ← readDefault Codec.u64.ofTree 0 byAdmissionEpoch
             issuedAt := ← Codec.i64.readRequired issuedAt
             sig := ← readDefault Codec.string.ofTree "" sig
             sigV2 := ← readDefault Codec.string.ofTree "" sigV2 }
  | _ => none

theorem ofFields_fields (e : Endorsement) : ofFields (e.fields (F := F)) = some e := by
  have text (s : String) : (Codec.string (F := F)).readBack s = s := rfl
  have unsigned (n : UInt64) : (Codec.u64 (F := F)).readBack n = n := rfl
  have signed (n : Int64) : (Codec.i64 (F := F)).readBack n = n := rfl
  simp [ofFields, fields, text, unsigned, signed]

theorem integral_fields (e : Endorsement) :
    ∀ field ∈ e.fields (F := F), Codec.Integral field := by
  simp [fields]

def codec : Codec F Endorsement :=
  .struct fieldNames fields ofFields id (by decide) (fun _ => rfl) ofFields_fields integral_fields

end Endorsement

namespace Tombstone

def fieldNames : List String :=
  ["nodeUuid", "clusterId", "admissionEpoch", "by", "byAdmissionEpoch", "removedAt", "sig", "sigV2"]

def fields (t : Tombstone) : List (Option (Json.Tree F)) :=
  [Codec.string.required t.nodeUuid, Codec.string.required t.clusterId,
    Codec.u64.defaulted 0 t.admissionEpoch, Codec.string.required t.by',
    Codec.u64.defaulted 0 t.byAdmissionEpoch, Codec.i64.required t.removedAt,
    Codec.string.defaulted "" t.sig, Codec.string.defaulted "" t.sigV2]

def ofFields : List (Option (Json.Tree F)) → Option Tombstone
  | [nodeUuid, clusterId, admissionEpoch, by', byAdmissionEpoch, removedAt, sig, sigV2] => do
    return { nodeUuid := ← Codec.string.readRequired nodeUuid
             clusterId := ← Codec.string.readRequired clusterId
             admissionEpoch := ← readDefault Codec.u64.ofTree 0 admissionEpoch
             by' := ← Codec.string.readRequired by'
             byAdmissionEpoch := ← readDefault Codec.u64.ofTree 0 byAdmissionEpoch
             removedAt := ← Codec.i64.readRequired removedAt
             sig := ← readDefault Codec.string.ofTree "" sig
             sigV2 := ← readDefault Codec.string.ofTree "" sigV2 }
  | _ => none

theorem ofFields_fields (t : Tombstone) : ofFields (t.fields (F := F)) = some t := by
  have text (s : String) : (Codec.string (F := F)).readBack s = s := rfl
  have unsigned (n : UInt64) : (Codec.u64 (F := F)).readBack n = n := rfl
  have signed (n : Int64) : (Codec.i64 (F := F)).readBack n = n := rfl
  simp [ofFields, fields, text, unsigned, signed]

theorem integral_fields (t : Tombstone) :
    ∀ field ∈ t.fields (F := F), Codec.Integral field := by
  simp [fields]

def codec : Codec F Tombstone :=
  .struct fieldNames fields ofFields id (by decide) (fun _ => rfl) ofFields_fields integral_fields

end Tombstone

/-! ## Signed records -/

variable (c : Crates) (ed : Ed25519)

namespace Endorsement

def payloadV1 (introducedUuid : String) (e : Endorsement) : Payload :=
  .endorseV1 introducedUuid e.fingerprint e.clusterId e.issuedAt

def payloadV2 (introducedUuid : String) (e : Endorsement) : Payload :=
  .endorseV2 introducedUuid e.fingerprint e.clusterId e.admissionEpoch e.byAdmissionEpoch e.issuedAt

def signedBy (signing : ed.SigningKey) (introducedUuid : String) (e : Endorsement) : Endorsement :=
  { e with
    sig := sign c ed signing (e.payloadV1 introducedUuid).bytes
    sigV2 := sign c ed signing (e.payloadV2 introducedUuid).bytes }

def Verifies (pubkey : ed.VerifyingKey) (introducedUuid : String) (e : Endorsement) : Prop :=
  verify c ed pubkey (e.payloadV1 introducedUuid).bytes e.sig = true ∧
    verify c ed pubkey (e.payloadV2 introducedUuid).bytes e.sigV2 = true

end Endorsement

namespace Tombstone

def payloadV1 (t : Tombstone) : Payload := .tombstoneV1 t.nodeUuid t.clusterId t.removedAt

def payloadV2 (t : Tombstone) : Payload :=
  .tombstoneV2 t.nodeUuid t.clusterId t.admissionEpoch t.byAdmissionEpoch t.removedAt

def signedBy (signing : ed.SigningKey) (t : Tombstone) : Tombstone :=
  { t with
    sig := sign c ed signing t.payloadV1.bytes
    sigV2 := sign c ed signing t.payloadV2.bytes }

def Verifies (pubkey : ed.VerifyingKey) (t : Tombstone) : Prop :=
  verify c ed pubkey t.payloadV1.bytes t.sig = true ∧
    verify c ed pubkey t.payloadV2.bytes t.sigV2 = true

end Tombstone

/-- A verifying key for what a signing key signs. -/
structure Ed25519.KeyPair (signing : ed.SigningKey) (pubkey : ed.VerifyingKey) : Prop where
  slice (sig : ed.Signature) : ed.fromSlice (ed.toBytes sig) = some sig
  verifies (payload : Bytes) : ed.verifyStrict pubkey payload (ed.sign signing payload) = true

variable {c ed}

theorem verify_sign {signing : ed.SigningKey} {pubkey : ed.VerifyingKey}
    (std : ∀ b, c.stdDecode (c.stdEncode b) = some b) (pair : ed.KeyPair signing pubkey)
    (payload : Bytes) : verify c ed pubkey payload (sign c ed signing payload) = true := by
  simp only [verify, sign, std, pair.slice, pair.verifies]

/-- What a member signs is read as it was written and verifies for the reader, an
endorsement under the name of the node it introduces. -/
theorem signed_membership_verifies {j : JsonCrate F} (lawful : j.Lawful)
    (std : ∀ b, c.stdDecode (c.stdEncode b) = some b) {signing : ed.SigningKey}
    {pubkey : ed.VerifyingKey} (pair : ed.KeyPair signing pubkey) :
    (∀ (introducedUuid : String) (e : Endorsement), ∃ read,
      Endorsement.codec.fromSlice j
          (Endorsement.codec.toVec j (e.signedBy c ed signing introducedUuid)) = some read ∧
        read = e.signedBy c ed signing introducedUuid ∧
        read.Verifies c ed pubkey introducedUuid) ∧
    ∀ t : Tombstone, ∃ read,
      Tombstone.codec.fromSlice j (Tombstone.codec.toVec j (t.signedBy c ed signing)) = some read ∧
        read = t.signedBy c ed signing ∧ read.Verifies c ed pubkey := by
  constructor
  · intro introducedUuid e
    have written := Endorsement.codec.fromSlice_toVec lawful
      (e.signedBy c ed signing introducedUuid)
    exact ⟨_, written, rfl, verify_sign std pair _, verify_sign std pair _⟩
  · intro t
    have written := Tombstone.codec.fromSlice_toVec lawful (t.signedBy c ed signing)
    exact ⟨_, written, rfl, verify_sign std pair _, verify_sign std pair _⟩

namespace Reference

def endorsement : Endorsement where
  by' := "8d41e6b0-25c3-4f9a-8e17-60b2a9d3c5f4"
  fingerprint := "sha256:abcd"
  clusterId := "cluster-1"
  admissionEpoch := 1
  byAdmissionEpoch := 1
  issuedAt := 1788
  sig := ""
  sigV2 := ""

def signatureV1 : ByteArr 64 := ⟨[
    0xac, 0x47, 0xc9, 0xf0, 0x72, 0x35, 0x7c, 0x73, 0xc6, 0x45, 0x34, 0x94, 0x09, 0x0a, 0xea, 0xb1,
    0xf6, 0x0b, 0x8f, 0x27, 0xfd, 0xc1, 0x21, 0x5b, 0x4c, 0x93, 0xc4, 0x4d, 0x12, 0x76, 0xba, 0x34,
    0xaf, 0x49, 0xdc, 0x5f, 0x43, 0x5b, 0x9d, 0x20, 0x80, 0x7d, 0xa7, 0x75, 0x1e, 0x02, 0x58, 0x35,
    0xe8, 0xdd, 0xd7, 0xd2, 0x3e, 0x37, 0x30, 0xb0, 0xbe, 0x4d, 0x62, 0x32, 0x4e, 0xc3, 0x15, 0x09], rfl⟩

def signatureV2 : ByteArr 64 := ⟨[
    0x7d, 0xf3, 0x85, 0x9e, 0x5f, 0xf5, 0xb4, 0xa8, 0x32, 0x91, 0x94, 0xc3, 0xef, 0xb4, 0x31, 0x19,
    0x48, 0x4c, 0x5e, 0x0b, 0x2d, 0x26, 0xc8, 0x83, 0x83, 0xe6, 0xf7, 0x49, 0xc3, 0x3b, 0x0b, 0x58,
    0x35, 0xde, 0xc9, 0x0b, 0xdd, 0xbd, 0xe4, 0x08, 0x8d, 0x09, 0x52, 0xbc, 0x3b, 0xa4, 0x6c, 0xbc,
    0x0b, 0x3a, 0xce, 0x9f, 0x7f, 0x7b, 0x39, 0x5a, 0x82, 0xcf, 0xa8, 0x08, 0x96, 0xc1, 0x5a, 0x05], rfl⟩

def signature (payload : Bytes) : ByteArr 64 :=
  if payload = (endorsement.payloadV1 "peer-uuid").bytes then signatureV1
  else if payload = (endorsement.payloadV2 "peer-uuid").bytes then signatureV2
  else .zeros 64

def ed25519 : Ed25519 where
  SigningKey := Unit
  VerifyingKey := Unit
  Signature := ByteArr 64
  sign _ := signature
  toBytes sig := sig.bytes
  fromSlice bytes := if long : bytes.length = 64 then some ⟨bytes, long⟩ else none
  verifyStrict _ payload sig := signature payload == sig

theorem ed25519_pair : ed25519.KeyPair () () where
  slice sig := dif_pos sig.length_eq
  verifies payload := beq_self_eq_true (signature payload)

end Reference

theorem signed_membership_verifies_reference : ∃ read,
    Endorsement.codec.fromSlice Reference.jsonCrate (Endorsement.codec.toVec Reference.jsonCrate
      (Reference.endorsement.signedBy Reference.crates Reference.ed25519 () "peer-uuid")) = some read ∧
    read.Verifies Reference.crates Reference.ed25519 () "peer-uuid" := by
  obtain ⟨read, written, -, verified⟩ := (signed_membership_verifies Reference.jsonCrate_lawful
    Reference.std Reference.ed25519_pair).1 "peer-uuid" Reference.endorsement
  exact ⟨read, written, verified⟩

end OpenPair
