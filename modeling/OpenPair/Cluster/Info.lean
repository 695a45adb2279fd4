import OpenPair.Lawful
import OpenPair.Trust.Identity

/-! What a node says about itself in an exchange, and what it accepts from the
other side (`info.rs`). -/

set_option autoImplicit false

namespace OpenPair

def pairingInfoVersion : UInt32 := 2

def legacyAdmissionEpoch : UInt64 := 1

variable (c : Crates)

def PairingInfo.toJson (info : PairingInfo) : String := c.jsonPairingInfo info

-- The last check of `parse_pairing_info`: the admission epoch of the version.
def PairingInfo.checkEpoch (info : PairingInfo) : Except String PairingInfo :=
  if pairingInfoVersion ≤ info.v ∧ info.admissionEpoch = 0 then
    .error s!"PairingInfo v{info.v} missing admissionEpoch"
  else if info.v < pairingInfoVersion ∧ info.admissionEpoch = 0 then
    .ok { info with admissionEpoch := legacyAdmissionEpoch }
  else .ok info

def parsePairingInfo (raw : Bytes) : Except String (PairingInfo × Bytes) :=
  match c.readPairingInfo raw with
  | .error e => .error s!"decode PairingInfo: {e}"
  | .ok info =>
    if info.nodeUuid.isEmpty then .error "PairingInfo missing nodeUuid"
    else
      match pemCertToDer info.cert with
      | none => .error "PairingInfo has no CERTIFICATE block"
      | some der =>
        match nodeUuidFromCert c der with
        | none => .error "PairingInfo cert has no node UUID"
        | some principal =>
          if principal = info.nodeUuid then
            match info.checkEpoch with
            | .error e => .error e
            | .ok info => .ok (info, der)
          else
            .error ("PairingInfo cert principal " ++ c.debugStr principal ++ " != nodeUuid " ++
              c.debugStr info.nodeUuid)

/-- An identity that can be accepted: its certificate, of the principal it
names, and an admission epoch. -/
structure PairingInfo.Valid (info : PairingInfo) (der : Bytes) : Prop where
  nodeUuid : info.nodeUuid.isEmpty = false
  cert : pemCertToDer info.cert = some der
  principal : nodeUuidFromCert c der = some info.nodeUuid
  admissionEpoch : info.admissionEpoch ≠ 0

variable {c}

theorem PairingInfo.checkEpoch_eq {info : PairingInfo} (epoch : info.admissionEpoch ≠ 0) :
    info.checkEpoch = .ok info := by
  simp [checkEpoch, epoch]

/-- A valid identity is read back as it was written, with its certificate. -/
theorem parsePairingInfo_toJson (lawful : c.Lawful) {info : PairingInfo} {der : Bytes}
    (valid : info.Valid c der) : parsePairingInfo c (utf8 (info.toJson c)) = .ok (info, der) := by
  have read : c.readPairingInfo (utf8 (info.toJson c)) = .ok info := lawful.info info
  simp only [parsePairingInfo, read, valid.nodeUuid, valid.cert, valid.principal,
    PairingInfo.checkEpoch_eq valid.admissionEpoch, Bool.false_eq_true, if_false, if_true]

/-- This node's identity and cluster, from which each exchange takes its PairingInfo. -/
structure NodeProfile where
  identity : Identity
  name : String
  clusterId : String
  clusterFriendlyName : String
  admissionEpoch : UInt64
  advertisedAddr : String

variable (c) in
def NodeProfile.pairingInfo (profile : NodeProfile) (addr : Option String) : PairingInfo :=
  { v := pairingInfoVersion
    nodeUuid := profile.identity.nodeUuid
    nodeId := profile.identity.fingerprint c
    name := profile.name
    clusterId := profile.clusterId
    admissionEpoch := max profile.admissionEpoch 1
    clusterFriendlyName := profile.clusterFriendlyName
    addr := addr.getD profile.advertisedAddr
    cert := profile.identity.certPem }

end OpenPair
