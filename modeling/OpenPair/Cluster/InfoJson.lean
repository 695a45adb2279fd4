import OpenPair.Cluster.Handshake
import OpenPair.Rpc.Messages
import OpenPair.Trust.ClusterDir

/-! The JSON of a PairingInfo, with what may be left out of it, and what an
accepted one pins. -/

set_option autoImplicit false

namespace OpenPair

variable {F : Type}

/-! ## Writing -/

def u32Tree (n : UInt32) : Json.Tree F := .num ⟨n.toNat, by omega, by have := n.toNat_lt; omega⟩

def u64Tree (n : UInt64) : Json.Tree F := .num ⟨n.toNat, by omega, by have := n.toNat_lt; omega⟩

namespace PairingInfo

def slots (info : PairingInfo) : List (String × Option (Json.Tree F)) :=
  [("v", some (u32Tree info.v)), ("nodeUuid", some (.str info.nodeUuid)),
    ("nodeId", some (.str info.nodeId)), ("name", some (.str info.name)),
    ("clusterId", some (.str info.clusterId)),
    ("admissionEpoch", if info.admissionEpoch = 0 then none else some (u64Tree info.admissionEpoch)),
    ("clusterFriendlyName", some (.str info.clusterFriendlyName)),
    ("addr", if info.addr.isEmpty then none else some (.str info.addr)),
    ("cert", some (.str info.cert))]

def toTree (info : PairingInfo) : Json.Tree F := structTree info.slots

end PairingInfo

/-! ## Reading -/

def readU32 : Json.Tree F → Option UInt32
  | .num n => if 0 ≤ n.value ∧ n.value < 2 ^ 32 then some (.ofNat n.value.toNat) else none
  | _ => none

def readU64 : Json.Tree F → Option UInt64
  | .num n => if 0 ≤ n.value then some (.ofNat n.value.toNat) else none
  | _ => none

/-- A field with a default; `null` is not read as absent. -/
def readDefault {α : Type} (read : Json.Tree F → Option α) (default : α) : Option (Json.Tree F) → Option α
  | none => some default
  | some tree => read tree

def PairingInfo.ofTree (tree : Json.Tree F) : Option PairingInfo :=
  match structFields ["v", "nodeUuid", "nodeId", "name", "clusterId", "admissionEpoch",
      "clusterFriendlyName", "addr", "cert"] tree with
  | some [some v, some nodeUuid, some nodeId, some name, some clusterId, admissionEpoch,
      some clusterFriendlyName, addr, some cert] => do
    return { v := ← readU32 v
             nodeUuid := ← readString nodeUuid
             nodeId := ← readString nodeId
             name := ← readString name
             clusterId := ← readString clusterId
             admissionEpoch := ← readDefault readU64 0 admissionEpoch
             clusterFriendlyName := ← readString clusterFriendlyName
             addr := ← readDefault readString "" addr
             cert := ← readString cert }
  | _ => none

/-- `serde_json` reads and writes a PairingInfo by the record's own rules. -/
structure PairingInfoJson (c : Crates) (j : JsonCrate F) : Prop where
  write (info : PairingInfo) : utf8 (c.jsonPairingInfo info) = j.write info.toTree
  read {raw : Bytes} {tree : Json.Tree F} {info : PairingInfo} (text : j.parse raw = some tree)
    (fields : PairingInfo.ofTree tree = some info) : c.readPairingInfo raw = .ok info

theorem readU32_u32Tree (n : UInt32) : readU32 (u32Tree n : Json.Tree F) = some n := by
  have small := n.toNat_lt
  have fits : 0 ≤ (n.toNat : Int) ∧ (n.toNat : Int) < 2 ^ 32 := by omega
  simp only [readU32, u32Tree, if_pos fits, Int.toNat_natCast, UInt32.ofNat_toNat]

theorem readU64_u64Tree (n : UInt64) : readU64 (u64Tree n : Json.Tree F) = some n := by
  have fits : 0 ≤ (n.toNat : Int) := Int.natCast_nonneg _
  simp only [readU64, u64Tree, if_pos fits, Int.toNat_natCast, UInt64.ofNat_toNat]

namespace PairingInfo

theorem fields (info : PairingInfo) (names : List String) :
    structFields names (info.toTree : Json.Tree F) =
      some (names.map fun name => (info.slots.lookup name).join) := by
  have keys : (info.slots (F := F)).map Prod.fst = ["v", "nodeUuid", "nodeId", "name", "clusterId",
    "admissionEpoch", "clusterFriendlyName", "addr", "cert"] := rfl
  exact structFields_structTree (by rw [keys]; decide) names

theorem readDefault_slot {α : Type} {read : Json.Tree F → Option α} {default value : α} {p : Prop}
    [Decidable p] {tree : Json.Tree F} (read_tree : read tree = some value) (same : p → value = default) :
    readDefault read default (if p then none else some tree) = some value := by
  by_cases left : p
  · rw [if_pos left, same left]
    rfl
  · rw [if_neg left]
    exact read_tree

theorem ofTree_toTree (info : PairingInfo) : ofTree (info.toTree : Json.Tree F) = some info := by
  have fields : structFields ["v", "nodeUuid", "nodeId", "name", "clusterId", "admissionEpoch",
      "clusterFriendlyName", "addr", "cert"] (info.toTree : Json.Tree F) =
      some [some (u32Tree info.v), some (.str info.nodeUuid), some (.str info.nodeId),
        some (.str info.name), some (.str info.clusterId),
        if info.admissionEpoch = 0 then none else some (u64Tree info.admissionEpoch),
        some (.str info.clusterFriendlyName),
        if info.addr.isEmpty then none else some (.str info.addr), some (.str info.cert)] :=
    info.fields _
  have epoch : readDefault (F := F) readU64 0
      (if info.admissionEpoch = 0 then none else some (u64Tree info.admissionEpoch)) =
        some info.admissionEpoch :=
    readDefault_slot (readU64_u64Tree info.admissionEpoch) id
  have addr : readDefault (F := F) readString ""
      (if info.addr.isEmpty then none else some (.str info.addr)) = some info.addr :=
    readDefault_slot rfl fun empty => String.isEmpty_iff.mp empty
  rw [ofTree, fields]
  dsimp only
  rw [epoch, addr, readU32_u32Tree]
  rfl

theorem integral_toTree (info : PairingInfo) : (info.toTree : Json.Tree F).Integral := by
  apply integral_structTree
  have whole {tree : Json.Tree F} {p : Prop} [Decidable p] (integral : tree.Integral) :
      ∀ present ∈ (if p then none else some tree : Option (Json.Tree F)).toList, present.Integral := by
    split
    · exact fun _ member => absurd member List.not_mem_nil
    · exact integral_some integral
  simp only [slots, List.forall_mem_cons]
  exact ⟨integral_some (Json.Tree.integral_leaf rfl nofun), integral_some (integral_str _),
    integral_some (integral_str _), integral_some (integral_str _), integral_some (integral_str _),
    whole (Json.Tree.integral_leaf rfl nofun), integral_some (integral_str _), whole (integral_str _),
    integral_some (integral_str _), forall_slot_nil⟩

end PairingInfo

/-! ## Accepted identities -/

section

variable {c : Crates} {j : JsonCrate F}

/-- What was written is read back, whatever was left out of it. -/
theorem PairingInfoJson.round_trip (json : PairingInfoJson c j) (lawful : j.Lawful)
    (info : PairingInfo) : c.readPairingInfo (utf8 (info.toJson c)) = .ok info := by
  have text : j.parse (utf8 (info.toJson c)) = some info.toTree := by
    rw [PairingInfo.toJson, json.write, lawful.parse_write info.integral_toTree]
  exact json.read text info.ofTree_toTree

theorem PairingInfo.Valid.parse {raw : Bytes} {info : PairingInfo} {der : Bytes}
    (valid : info.Valid c der) (read : c.readPairingInfo raw = .ok info) :
    parsePairingInfo c raw = .ok (info, der) := by
  simp only [parsePairingInfo, read, valid.nodeUuid, valid.cert, valid.principal,
    PairingInfo.checkEpoch_eq valid.admissionEpoch, Bool.false_eq_true, if_false, if_true]

theorem PairingInfo.checkEpoch_ok {info checked : PairingInfo}
    (passed : info.checkEpoch = .ok checked) :
    checked.nodeUuid = info.nodeUuid ∧ checked.cert = info.cert ∧ checked.admissionEpoch ≠ 0 := by
  unfold checkEpoch at passed
  split at passed
  · cases passed
  split at passed
  · cases passed
    exact ⟨rfl, rfl, (by decide : legacyAdmissionEpoch ≠ 0)⟩
  · rename_i recent legacy
    cases passed
    refine ⟨rfl, rfl, fun zero => ?_⟩
    by_cases version : pairingInfoVersion ≤ info.v
    · exact recent ⟨version, zero⟩
    · exact legacy ⟨UInt32.not_le.mp version, zero⟩

/-- Whatever is accepted could be written by a node that holds the certificate. -/
theorem valid_of_parse {raw : Bytes} {info : PairingInfo} {der : Bytes}
    (accepted : parsePairingInfo c raw = .ok (info, der)) : info.Valid c der := by
  unfold parsePairingInfo at accepted
  split at accepted
  · cases accepted
  split at accepted
  · cases accepted
  rename_i named
  split at accepted
  · cases accepted
  rename_i cert
  split at accepted
  · cases accepted
  rename_i principal
  split at accepted
  · rename_i same
    split at accepted
    · cases accepted
    · rename_i passed
      cases accepted
      obtain ⟨nodeUuid, pem, epoch⟩ := PairingInfo.checkEpoch_ok passed
      refine ⟨?_, ?_, ?_, epoch⟩
      · rw [nodeUuid]
        exact Bool.eq_false_iff.mpr named
      · rw [pem]
        exact cert
      · rw [nodeUuid, ← same]
        exact principal
  · cases accepted

theorem PeerPinStore.isPinned_of_cert {store : PeerPinStore} {nodeUuid : String} {der : Bytes}
    (pinned : store.cert nodeUuid = some der) : store.isPinned der = true := by
  obtain ⟨peer, found, same⟩ := Option.map_eq_some_iff.mp pinned
  exact List.any_eq_true.mpr ⟨_, AList.mem_lookup_iff.mp found, beq_iff_eq.mpr same⟩

theorem addTrustedPeer_pins {s : TrustState} {cwd : FileTree.Place} {dir : FileTree.Path}
    {pem : String} {der : Bytes} (cert : pemCertToDer pem = some der) :
    (addTrustedPeer c s cwd dir pem).1.pins = (s.pins.pin c der).1 := by
  unfold addTrustedPeer
  rw [cert]
  dsimp only
  split
  · rename_i refused
    rw [refused]
  · rename_i pinned
    rw [pinned]
    dsimp only
    split <;> rfl

end

/-- An accepted PairingInfo names its node and an admission epoch, its
certificate is pinned under that name along either way, and it is accepted
again as it is written. -/
theorem accepted_info_coherent {c : Crates} {j : JsonCrate F} (json : PairingInfoJson c j)
    (lawful : j.Lawful) {raw : Bytes} {info : PairingInfo} {der : Bytes}
    (accepted : parsePairingInfo c raw = .ok (info, der)) :
    info.nodeUuid ≠ "" ∧ 1 ≤ info.admissionEpoch ∧
      (∀ store : PeerPinStore, (store.pin c der).2 = .ok info.nodeUuid ∧
        (store.pin c der).1.byUuid.lookup info.nodeUuid = some (.of c info.nodeUuid der) ∧
        (store.pin c der).1.cert info.nodeUuid = some der ∧
        (store.pin c der).1.isPinned der = true) ∧
      (∀ (s : TrustState) (cwd : FileTree.Place) (dir : FileTree.Path),
        (addTrustedPeer c s cwd dir info.cert).1.pins = (s.pins.pin c der).1) ∧
      parsePairingInfo c (utf8 (info.toJson c)) = .ok (info, der) := by
  have valid := valid_of_parse accepted
  refine ⟨?_, ?_, fun store => ?_, fun s cwd dir => addTrustedPeer_pins valid.cert,
    valid.parse (json.round_trip lawful info)⟩
  · intro empty
    have named := valid.nodeUuid
    rw [empty] at named
    cases named
  · have positive : info.admissionEpoch.toNat ≠ 0 := fun zero =>
      valid.admissionEpoch (UInt64.toNat_inj.mp zero)
    exact UInt64.le_iff_toNat_le.mpr (Nat.one_le_iff_ne_zero.mpr positive)
  · rw [PeerPinStore.pin_ok valid.principal]
    have pinned : (PeerPinStore.mk (store.byUuid.insert info.nodeUuid
        (.of c info.nodeUuid der))).cert info.nodeUuid = some der := by
      rw [PeerPinStore.cert_insert, if_pos rfl]
    exact ⟨rfl, AList.lookup_insert _, pinned, PeerPinStore.isPinned_of_cert pinned⟩

namespace Reference

-- Crates with `serde_json` on trees for a PairingInfo.
def withTrees (c : Crates) : Crates :=
  { c with
    jsonPairingInfo := fun info => String.ofList info.toTree.write
    readPairingInfo := fun raw =>
      match (jsonCrate.parse raw).bind PairingInfo.ofTree with
      | some info => .ok info
      | none => .error "invalid PairingInfo" }

section

variable {c : Crates}

theorem withTrees_write (info : PairingInfo) :
    (withTrees c).jsonPairingInfo info = String.ofList info.toTree.write := rfl

theorem withTrees_read {raw : Bytes} {tree : Json.Tree Empty} {info : PairingInfo}
    (text : jsonCrate.parse raw = some tree) (fields : PairingInfo.ofTree tree = some info) :
    (withTrees c).readPairingInfo raw = .ok info := by
  rw [withTrees]
  dsimp only
  rw [text, Option.bind_some, fields]

theorem jsonCrate_write (tree : Json.Tree Empty) : jsonCrate.write tree = utf8 (String.ofList tree.write) :=
  rfl

theorem withTrees_json : PairingInfoJson (withTrees c) jsonCrate where
  write info := by rw [withTrees_write, jsonCrate_write]
  read := withTrees_read

theorem withTrees_principal (der : Bytes) :
    nodeUuidFromCert (withTrees c) der = nodeUuidFromCert c der := by
  unfold nodeUuidFromCert
  rfl

/-- A node of the first version, which gives no epoch and no address. -/
def legacy (info : PairingInfo) : PairingInfo :=
  { info with v := 1, admissionEpoch := 0, addr := "" }

def admitted (info : PairingInfo) : PairingInfo := { legacy info with admissionEpoch := 1 }

theorem legacy_accepted {info : PairingInfo} {der : Bytes} (valid : info.Valid c der) :
    parsePairingInfo (withTrees c) (utf8 ((legacy info).toJson (withTrees c))) =
      .ok (admitted info, der) := by
  have read := withTrees_json.round_trip jsonCrate_lawful (c := withTrees c) (legacy info)
  have cert : pemCertToDer (legacy info).cert = some der := valid.cert
  have principal : nodeUuidFromCert (withTrees c) der = some (legacy info).nodeUuid :=
    (withTrees_principal der).trans valid.principal
  have named : (legacy info).nodeUuid.isEmpty = false := valid.nodeUuid
  have checked : (legacy info).checkEpoch = .ok (admitted info) := rfl
  simp only [parsePairingInfo, read, named, cert, principal, checked, Bool.false_eq_true, if_false,
    if_true]

end

theorem inviter_valid : inviterInfo.Valid crates inviterCertificate.der :=
  valid (by simp [certificates]) _ _ _

end Reference

/-- An identity of the first version is accepted again with the epoch it was given. -/
theorem accepted_info_coherent_legacy :
    parsePairingInfo (Reference.withTrees Reference.crates)
        (utf8 ((Reference.admitted Reference.inviterInfo).toJson
          (Reference.withTrees Reference.crates))) =
      .ok (Reference.admitted Reference.inviterInfo, Reference.inviterCertificate.der) :=
  (accepted_info_coherent Reference.withTrees_json Reference.jsonCrate_lawful
    (Reference.legacy_accepted Reference.inviter_valid)).2.2.2.2

end OpenPair
