import OpenPair.Lawful
import OpenPair.Library.JsonCodec
import OpenPair.Library.Sha256
import OpenPair.Pairing.Suite
import OpenPair.Trust.Pem

/-! A concrete instance of the crates, for results about fixed inputs.

Hashes, base64 and compact JSON are computed. Key agreement and certificates
are tables of real values: one key pair of each curve for either side, and the
certificates of three nodes.
-/

set_option autoImplicit false

namespace OpenPair

namespace Reference

/-! ## Compact JSON -/

def charsOf (bytes : Bytes) : Option (List Char) :=
  (String.fromUTF8? ⟨bytes.toArray⟩).map String.toList

theorem charsOf_utf8 (s : String) : charsOf (utf8 s) = some s.toList := by
  have bytes : (⟨(utf8 s).toArray⟩ : ByteArray) = s.toUTF8 := by simp [utf8]
  rw [charsOf, bytes, String.fromUTF8?,
    dif_pos (show s.toUTF8.IsValidUTF8 from s.isValidUTF8)]
  rfl

def rawFromString (s : String) : Option String :=
  if s ≠ "" ∧ Json.Closed s.toList then some s else none

def jsonStr (s : String) : String := String.ofList (Json.quote s.toList)

def readStr (s : String) : Option String := (Json.unquote s.toList).map String.ofList

def toInt64 (n : Int) : Option Int64 :=
  if (Int64.ofInt n).toInt = n then some (Int64.ofInt n) else none

def readInt (s : String) : Option Int64 := (Json.readInt s.toList).bind toInt64

def jsonInts (is : List Int64) : String := String.ofList (Json.writeInts (is.map Int64.toInt))

def readInts (s : String) : Option (List Int64) :=
  (Json.readInts s.toList).bind fun ns => ns.mapM toInt64

/-- A field of a record: its key and, unless it is skipped, the text of its value. -/
abbrev Slot := List Char × Option (List Char)

def text (s : String) : List Char := Json.quote s.toList

def writeRecord (slots : List Slot) : List Char := Json.writeObject (Json.present slots)

-- The value under a key, `null` counting as absent.
def fieldText (members : List Json.Member) (key : String) : Option (Option String) :=
  (Json.member? members key.toList).map fun value =>
    value.bind fun t => if t = "null".toList then none else some (String.ofList t)

def field {α : Type} (members : List Json.Member) (key : String) (read : String → Option α) :
    Option (Option α) :=
  match fieldText members key with
  | none => none
  | some none => some none
  | some (some t) => (read t).map some

def required {α : Type} (members : List Json.Member) (key : String) (read : String → Option α) :
    Option α := (field members key read).join

/-! ### The records -/

def jwkSlots (jwk : Jwk) : List Slot :=
  [("kty".toList, some (text jwk.kty)), ("crv".toList, some (text jwk.crv)),
    ("x".toList, some (text jwk.x)), ("y".toList, jwk.y.map text)]

def jsonJwk (jwk : Jwk) : String := String.ofList (writeRecord (jwkSlots jwk))

def jwkOf (members : List Json.Member) : Option Jwk := do
  return {
    kty := ← required members "kty" readStr
    crv := ← required members "crv" readStr
    x := ← required members "x" readStr
    y := ← field members "y" readStr }

def readJwk (s : String) : Option Jwk := (Json.readObject s.toList).bind jwkOf

def natText (n : Nat) : List Char := Json.natDigits n

def readU32 (s : String) : Option UInt32 := do
  let n ← Json.readNat s.toList
  if (UInt32.ofNat n).toNat = n then some (UInt32.ofNat n) else none

def readU64 (s : String) : Option UInt64 := do
  let n ← Json.readNat s.toList
  if (UInt64.ofNat n).toNat = n then some (UInt64.ofNat n) else none

def infoSlots (info : PairingInfo) : List Slot :=
  [("v".toList, some (natText info.v.toNat)), ("nodeUuid".toList, some (text info.nodeUuid)),
    ("nodeId".toList, some (text info.nodeId)), ("name".toList, some (text info.name)),
    ("clusterId".toList, some (text info.clusterId)),
    ("admissionEpoch".toList,
      if info.admissionEpoch = 0 then none else some (natText info.admissionEpoch.toNat)),
    ("clusterFriendlyName".toList, some (text info.clusterFriendlyName)),
    ("addr".toList, if info.addr = "" then none else some (text info.addr)),
    ("cert".toList, some (text info.cert))]

def jsonPairingInfo (info : PairingInfo) : String := String.ofList (writeRecord (infoSlots info))

def infoOf (members : List Json.Member) : Option PairingInfo := do
  return {
    v := ← required members "v" readU32
    nodeUuid := ← required members "nodeUuid" readStr
    nodeId := ← required members "nodeId" readStr
    name := ← required members "name" readStr
    clusterId := ← required members "clusterId" readStr
    admissionEpoch := (← field members "admissionEpoch" readU64).getD 0
    clusterFriendlyName := ← required members "clusterFriendlyName" readStr
    addr := (← field members "addr" readStr).getD ""
    cert := ← required members "cert" readStr }

def membersOf (bytes : Bytes) : Option (List Json.Member) := (charsOf bytes).bind Json.readObject

def readPairingInfo (bytes : Bytes) : Except String PairingInfo :=
  match (membersOf bytes).bind infoOf with
  | some info => .ok info
  | none => .error "invalid PairingInfo"

def int64Text (i : Int64) : List Char := (toString i).toList

def wireSlots (w : Wire) : List Slot :=
  [("Type".toList, w.type.map int64Text), ("PeerState".toList, w.peerState.map int64Text),
    ("PeerId".toList, w.peerId.map String.toList), ("NAI".toList, w.nai.map String.toList),
    ("NewNAI".toList, w.newNai.map String.toList), ("Vers".toList, w.vers.map String.toList),
    ("Verp".toList, w.verp.map String.toList),
    ("Cryptosuites".toList, w.cryptosuites.map String.toList),
    ("Cryptosuitep".toList, w.cryptosuitep.map String.toList),
    ("Dirs".toList, w.dirs.map String.toList), ("Dirp".toList, w.dirp.map String.toList),
    ("ServerInfo".toList, w.serverInfo.map String.toList),
    ("PeerInfo".toList, w.peerInfo.map String.toList), ("PKs".toList, w.pks.map String.toList),
    ("PKp".toList, w.pkp.map String.toList), ("Ns".toList, w.ns.map String.toList),
    ("Np".toList, w.np.map String.toList), ("SleepTime".toList, w.sleepTime.map int64Text),
    ("NoobId".toList, w.noobId.map String.toList), ("MACs".toList, w.macs.map String.toList),
    ("MACp".toList, w.macp.map String.toList), ("ErrorCode".toList, w.errorCode.map int64Text),
    ("ErrorInfo".toList, w.errorInfo.map text), ("eap".toList, w.eap.map text)]

def encodeWire (w : Wire) : Bytes := utf8 (String.ofList (writeRecord (wireSlots w)))

def wireOf (members : List Json.Member) : Option Wire := do
  return {
    type := ← field members "Type" readInt
    peerState := ← field members "PeerState" readInt
    peerId := ← field members "PeerId" some
    nai := ← field members "NAI" some
    newNai := ← field members "NewNAI" some
    vers := ← field members "Vers" some
    verp := ← field members "Verp" some
    cryptosuites := ← field members "Cryptosuites" some
    cryptosuitep := ← field members "Cryptosuitep" some
    dirs := ← field members "Dirs" some
    dirp := ← field members "Dirp" some
    serverInfo := ← field members "ServerInfo" some
    peerInfo := ← field members "PeerInfo" some
    pks := ← field members "PKs" some
    pkp := ← field members "PKp" some
    ns := ← field members "Ns" some
    np := ← field members "Np" some
    sleepTime := ← field members "SleepTime" readInt
    noobId := ← field members "NoobId" some
    macs := ← field members "MACs" some
    macp := ← field members "MACp" some
    errorCode := ← field members "ErrorCode" readInt
    errorInfo := ← field members "ErrorInfo" readStr
    eap := ← field members "eap" readStr }

def isRaw (t : String) : Bool := t ≠ "" && Json.Closed t.toList && t ≠ "null"

def decodeWire (bytes : Bytes) : Option Wire :=
  ((membersOf bytes).bind wireOf).filter fun w => w.raws.all fun r => r.all isRaw

-- The record with `Type` alone, other members ignored.
def decodeType (bytes : Bytes) : Option (Option Int64) :=
  (membersOf bytes).bind fun members => field members "Type" readInt

/-! ## Key agreement -/

inductive Party where
  | server
  | peer
  deriving DecidableEq

def p256ServerX : ByteArr 32 := ⟨[
    0x75, 0x24, 0x3e, 0xd0, 0x50, 0xa1, 0xf8, 0x71, 0x37, 0xf2, 0x79, 0xac, 0x2c, 0x2c, 0xed, 0xc9,
    0xdf, 0x82, 0xd5, 0x15, 0x92, 0x36, 0x3a, 0xfd, 0x0e, 0xd6, 0x1b, 0xd6, 0x87, 0x8d, 0x69, 0x05], rfl⟩

def p256ServerY : ByteArr 32 := ⟨[
    0x9d, 0xd7, 0x10, 0xf9, 0xa3, 0x7a, 0x57, 0xbc, 0x08, 0x7e, 0xfc, 0xf1, 0x10, 0x84, 0x45, 0x1b,
    0xbf, 0xed, 0x56, 0x28, 0x41, 0xb6, 0x5e, 0xe9, 0x9e, 0xb1, 0x26, 0xc9, 0x67, 0x2f, 0x74, 0xf1], rfl⟩

def p256PeerX : ByteArr 32 := ⟨[
    0x92, 0x0d, 0x58, 0x05, 0xe0, 0x82, 0xc9, 0x2e, 0x55, 0x09, 0xa1, 0x85, 0xc7, 0xe2, 0x7c, 0x40,
    0xbd, 0x1f, 0xe3, 0x87, 0xd4, 0x8a, 0xc2, 0x5e, 0x33, 0xa3, 0xb7, 0x92, 0x2e, 0xc8, 0x10, 0xaf], rfl⟩

def p256PeerY : ByteArr 32 := ⟨[
    0x2a, 0x6a, 0x1d, 0xf2, 0x28, 0xf0, 0xf3, 0x35, 0xbc, 0xd4, 0x4c, 0xcf, 0x33, 0xac, 0x54, 0x9f,
    0xa1, 0xb1, 0xc3, 0x8e, 0x2a, 0xed, 0x35, 0xd8, 0xe9, 0x4f, 0x22, 0x5d, 0xe2, 0x0d, 0x5d, 0xda], rfl⟩

def p256Shared : ByteArr 32 := ⟨[
    0xfe, 0x85, 0x86, 0x6c, 0x95, 0xd1, 0x98, 0xf1, 0x02, 0x15, 0x78, 0x8b, 0x77, 0xea, 0xdc, 0x57,
    0xea, 0x80, 0x44, 0xcf, 0x7b, 0xe0, 0x94, 0x8b, 0x8f, 0x06, 0xc1, 0xb4, 0xf0, 0xb3, 0x23, 0x1b], rfl⟩

def p256ServerOwn : ByteArr 32 := ⟨[
    0xa1, 0x6e, 0x8f, 0x6b, 0x92, 0x97, 0x66, 0xe3, 0xeb, 0x96, 0x47, 0x87, 0xec, 0x4f, 0x91, 0xc1,
    0xf2, 0x3a, 0xc6, 0x82, 0x64, 0x30, 0xc4, 0x3b, 0x34, 0xfc, 0xca, 0x07, 0xbc, 0x77, 0x3d, 0x89], rfl⟩

def p256PeerOwn : ByteArr 32 := ⟨[
    0x5a, 0x7c, 0x25, 0x33, 0x8f, 0x33, 0x25, 0x2f, 0xc3, 0x56, 0x80, 0x39, 0xad, 0x88, 0x98, 0xd1,
    0x91, 0x93, 0x63, 0xbd, 0x5a, 0xcc, 0x5e, 0xc1, 0xcf, 0x7c, 0x5a, 0x71, 0xac, 0x0a, 0xf5, 0x98], rfl⟩

def x25519Server : ByteArr 32 := ⟨[
    0xb7, 0xce, 0x3e, 0x9e, 0xab, 0xd2, 0x35, 0xc6, 0x2f, 0x65, 0x60, 0x97, 0xc0, 0xc1, 0xb2, 0xb1,
    0xe1, 0x55, 0xd0, 0x3d, 0x30, 0x48, 0xf6, 0x2c, 0x54, 0x6d, 0xe9, 0xa0, 0xe7, 0xaf, 0x1b, 0x6b], rfl⟩

def x25519Peer : ByteArr 32 := ⟨[
    0xd9, 0x2f, 0x98, 0x88, 0x5c, 0x5d, 0xf2, 0x70, 0x44, 0x52, 0x96, 0x96, 0x16, 0xda, 0xbe, 0xa6,
    0x71, 0xaf, 0xd0, 0x0b, 0x44, 0x12, 0x38, 0xd9, 0x8c, 0xa3, 0x02, 0xdf, 0xfa, 0x91, 0x25, 0x60], rfl⟩

def x25519Shared : ByteArr 32 := ⟨[
    0x6f, 0xa7, 0x69, 0x9b, 0xb0, 0x35, 0x12, 0x57, 0xfe, 0x2c, 0x3b, 0xdb, 0x6b, 0x54, 0x9f, 0x38,
    0xe6, 0xa3, 0xab, 0xd8, 0x57, 0x75, 0x1f, 0x11, 0x7c, 0x3f, 0x7c, 0x3e, 0xaf, 0x87, 0x24, 0x23], rfl⟩

def p256Public : Party → ByteArr 32 × ByteArr 32
  | .server => (p256ServerX, p256ServerY)
  | .peer => (p256PeerX, p256PeerY)

def p256Point (party : Party) : Bytes :=
  0x04 :: (p256Public party).1.bytes ++ (p256Public party).2.bytes

def p256Secret : Party → Party → ByteArr 32
  | .server, .server => p256ServerOwn
  | .peer, .peer => p256PeerOwn
  | _, _ => p256Shared

def p256Agree (secret : Party) (point : Bytes) : Option Bytes :=
  if point = p256Point .server then some (p256Secret secret .server).bytes
  else if point = p256Point .peer then some (p256Secret secret .peer).bytes
  else none

def x25519Public : Party → ByteArr 32
  | .server => x25519Server
  | .peer => x25519Peer

def x25519Agree (secret : Party) (point : ByteArr 32) : ByteArr 32 :=
  let other := match secret with
    | .server => x25519Peer
    | .peer => x25519Server
  if point = other then x25519Shared else .zeros 32

/-! ## Certificates -/

structure Certificate where
  nodeUuid : String
  der : Bytes
  fingerprint : String

def wrap : Nat → List Char → List (List Char)
  | 0, _ => []
  | lines + 1, text => if text.isEmpty then [] else text.take 64 :: wrap lines (text.drop 64)

theorem flatten_wrap {lines : Nat} {text : List Char} (enough : text.length ≤ lines) :
    (wrap lines text).flatten = text := by
  induction lines generalizing text with
  | zero => exact (List.length_eq_zero_iff.mp (Nat.le_zero.mp enough)).symm
  | succ lines ih =>
    rw [wrap]
    split
    · next empty => exact (List.isEmpty_iff.mp empty).symm
    · next some =>
      have some : 0 < text.length := List.length_pos_iff.mpr (by simpa using some)
      rw [List.flatten_cons, ih (by rw [List.length_drop]; omega), List.take_append_drop]

def pem (der : Bytes) : String :=
  let text := Base64.encode Base64.standard true der
  String.ofList (beginCertificate ++ '\n' :: ((wrap text.length text).flatMap (· ++ ['\n']) ++
    (endCertificate ++ ['\n'])))

theorem pemCertToDer_pem {der : Bytes} (some : der ≠ []) : pemCertToDer (pem der) = .some der :=
  pemCertToDer_block some (flatten_wrap le_rfl)

def inviterDer : Bytes :=
  [
    0x30, 0x82, 0x01, 0x6f, 0x30, 0x82, 0x01, 0x21, 0xa0, 0x03, 0x02, 0x01, 0x02, 0x02, 0x01, 0x07,
    0x30, 0x05, 0x06, 0x03, 0x2b, 0x65, 0x70, 0x30, 0x2f, 0x31, 0x2d, 0x30, 0x2b, 0x06, 0x03, 0x55,
    0x04, 0x03, 0x0c, 0x24, 0x33, 0x66, 0x32, 0x62, 0x39, 0x63, 0x31, 0x65, 0x2d, 0x37, 0x61, 0x35,
    0x34, 0x2d, 0x34, 0x64, 0x30, 0x65, 0x2d, 0x39, 0x62, 0x36, 0x61, 0x2d, 0x31, 0x63, 0x35, 0x64,
    0x38, 0x65, 0x32, 0x66, 0x34, 0x61, 0x37, 0x31, 0x30, 0x1e, 0x17, 0x0d, 0x32, 0x36, 0x31, 0x31,
    0x31, 0x38, 0x32, 0x32, 0x35, 0x31, 0x32, 0x31, 0x5a, 0x17, 0x0d, 0x32, 0x38, 0x31, 0x31, 0x31,
    0x37, 0x32, 0x32, 0x35, 0x31, 0x32, 0x31, 0x5a, 0x30, 0x2f, 0x31, 0x2d, 0x30, 0x2b, 0x06, 0x03,
    0x55, 0x04, 0x03, 0x0c, 0x24, 0x33, 0x66, 0x32, 0x62, 0x39, 0x63, 0x31, 0x65, 0x2d, 0x37, 0x61,
    0x35, 0x34, 0x2d, 0x34, 0x64, 0x30, 0x65, 0x2d, 0x39, 0x62, 0x36, 0x61, 0x2d, 0x31, 0x63, 0x35,
    0x64, 0x38, 0x65, 0x32, 0x66, 0x34, 0x61, 0x37, 0x31, 0x30, 0x2a, 0x30, 0x05, 0x06, 0x03, 0x2b,
    0x65, 0x70, 0x03, 0x21, 0x00, 0xcc, 0xaa, 0x06, 0x5e, 0x60, 0x76, 0x4b, 0x20, 0x58, 0x2b, 0xe2,
    0x96, 0x89, 0x26, 0x68, 0x65, 0x07, 0x9c, 0x67, 0xcb, 0x4b, 0xb8, 0xdc, 0x05, 0x11, 0x7a, 0xe8,
    0x51, 0xb6, 0x2f, 0xb2, 0xa2, 0xa3, 0x62, 0x30, 0x60, 0x30, 0x3f, 0x06, 0x03, 0x55, 0x1d, 0x11,
    0x04, 0x38, 0x30, 0x36, 0x86, 0x34, 0x75, 0x72, 0x6e, 0x3a, 0x6e, 0x76, 0x70, 0x61, 0x69, 0x72,
    0x3a, 0x6e, 0x6f, 0x64, 0x65, 0x3a, 0x33, 0x66, 0x32, 0x62, 0x39, 0x63, 0x31, 0x65, 0x2d, 0x37,
    0x61, 0x35, 0x34, 0x2d, 0x34, 0x64, 0x30, 0x65, 0x2d, 0x39, 0x62, 0x36, 0x61, 0x2d, 0x31, 0x63,
    0x35, 0x64, 0x38, 0x65, 0x32, 0x66, 0x34, 0x61, 0x37, 0x31, 0x30, 0x1d, 0x06, 0x03, 0x55, 0x1d,
    0x0e, 0x04, 0x16, 0x04, 0x14, 0x0b, 0x22, 0x0d, 0xc8, 0x84, 0xa7, 0xe1, 0x06, 0xd1, 0x61, 0x4d,
    0x10, 0xdf, 0xb9, 0xd9, 0xcb, 0xa3, 0x15, 0x8c, 0xb6, 0x30, 0x05, 0x06, 0x03, 0x2b, 0x65, 0x70,
    0x03, 0x41, 0x00, 0x07, 0x3f, 0xe4, 0x1f, 0xb4, 0x39, 0x3e, 0x45, 0x95, 0xdd, 0xf9, 0xc9, 0x20,
    0x51, 0xc4, 0x79, 0xf8, 0x55, 0xb5, 0xd2, 0x89, 0x5c, 0xf2, 0x70, 0x51, 0x61, 0x9c, 0x82, 0xa8,
    0xa8, 0x93, 0xc9, 0x9d, 0xae, 0xce, 0x32, 0x83, 0xe2, 0xb3, 0x99, 0xed, 0xd8, 0xbb, 0xcc, 0x3c,
    0xcd, 0xfc, 0xb6, 0x9e, 0x4d, 0x92, 0x39, 0x38, 0x28, 0x54, 0xdd, 0x06, 0x90, 0x82, 0x96, 0x6c,
    0xaf, 0x90, 0x02]

def joinerDer : Bytes :=
  [
    0x30, 0x82, 0x01, 0x6f, 0x30, 0x82, 0x01, 0x21, 0xa0, 0x03, 0x02, 0x01, 0x02, 0x02, 0x01, 0x07,
    0x30, 0x05, 0x06, 0x03, 0x2b, 0x65, 0x70, 0x30, 0x2f, 0x31, 0x2d, 0x30, 0x2b, 0x06, 0x03, 0x55,
    0x04, 0x03, 0x0c, 0x24, 0x38, 0x64, 0x34, 0x31, 0x65, 0x36, 0x62, 0x30, 0x2d, 0x32, 0x35, 0x63,
    0x33, 0x2d, 0x34, 0x66, 0x39, 0x61, 0x2d, 0x38, 0x65, 0x31, 0x37, 0x2d, 0x36, 0x30, 0x62, 0x32,
    0x61, 0x39, 0x64, 0x33, 0x63, 0x35, 0x66, 0x34, 0x30, 0x1e, 0x17, 0x0d, 0x32, 0x36, 0x31, 0x31,
    0x31, 0x38, 0x32, 0x32, 0x35, 0x31, 0x32, 0x31, 0x5a, 0x17, 0x0d, 0x32, 0x38, 0x31, 0x31, 0x31,
    0x37, 0x32, 0x32, 0x35, 0x31, 0x32, 0x31, 0x5a, 0x30, 0x2f, 0x31, 0x2d, 0x30, 0x2b, 0x06, 0x03,
    0x55, 0x04, 0x03, 0x0c, 0x24, 0x38, 0x64, 0x34, 0x31, 0x65, 0x36, 0x62, 0x30, 0x2d, 0x32, 0x35,
    0x63, 0x33, 0x2d, 0x34, 0x66, 0x39, 0x61, 0x2d, 0x38, 0x65, 0x31, 0x37, 0x2d, 0x36, 0x30, 0x62,
    0x32, 0x61, 0x39, 0x64, 0x33, 0x63, 0x35, 0x66, 0x34, 0x30, 0x2a, 0x30, 0x05, 0x06, 0x03, 0x2b,
    0x65, 0x70, 0x03, 0x21, 0x00, 0xa4, 0xa1, 0xa5, 0x40, 0x66, 0x27, 0x3a, 0xc2, 0xd0, 0x8c, 0xc3,
    0xec, 0xfe, 0x45, 0xa8, 0x2c, 0x99, 0xc3, 0x49, 0x3c, 0x9b, 0x27, 0x9e, 0xfe, 0xa6, 0x59, 0x84,
    0x81, 0x30, 0xfd, 0x20, 0x67, 0xa3, 0x62, 0x30, 0x60, 0x30, 0x3f, 0x06, 0x03, 0x55, 0x1d, 0x11,
    0x04, 0x38, 0x30, 0x36, 0x86, 0x34, 0x75, 0x72, 0x6e, 0x3a, 0x6e, 0x76, 0x70, 0x61, 0x69, 0x72,
    0x3a, 0x6e, 0x6f, 0x64, 0x65, 0x3a, 0x38, 0x64, 0x34, 0x31, 0x65, 0x36, 0x62, 0x30, 0x2d, 0x32,
    0x35, 0x63, 0x33, 0x2d, 0x34, 0x66, 0x39, 0x61, 0x2d, 0x38, 0x65, 0x31, 0x37, 0x2d, 0x36, 0x30,
    0x62, 0x32, 0x61, 0x39, 0x64, 0x33, 0x63, 0x35, 0x66, 0x34, 0x30, 0x1d, 0x06, 0x03, 0x55, 0x1d,
    0x0e, 0x04, 0x16, 0x04, 0x14, 0xf9, 0x0e, 0xdb, 0xf9, 0x7a, 0xd6, 0xb2, 0xe2, 0x77, 0x8c, 0xf4,
    0x86, 0x95, 0x70, 0x68, 0x86, 0x1d, 0x3a, 0x0e, 0xf9, 0x30, 0x05, 0x06, 0x03, 0x2b, 0x65, 0x70,
    0x03, 0x41, 0x00, 0xaf, 0x4a, 0xaf, 0x38, 0x8b, 0x5e, 0xf4, 0x94, 0xf9, 0x91, 0xc9, 0x7b, 0xb0,
    0xc6, 0xa4, 0xc1, 0x46, 0x51, 0xcf, 0xbd, 0x2b, 0xb3, 0x10, 0xb5, 0xc8, 0xca, 0xdf, 0x0d, 0x48,
    0x80, 0xbb, 0x25, 0x93, 0x51, 0x13, 0xce, 0x53, 0x07, 0x94, 0x15, 0x92, 0x46, 0x42, 0xcf, 0x5f,
    0x7c, 0xab, 0x0a, 0x48, 0xa8, 0x68, 0x99, 0xdf, 0xf8, 0xaf, 0xd9, 0xa8, 0xe0, 0xe1, 0xa1, 0xeb,
    0x76, 0xa8, 0x0f]

def strangerDer : Bytes :=
  [
    0x30, 0x82, 0x01, 0x6f, 0x30, 0x82, 0x01, 0x21, 0xa0, 0x03, 0x02, 0x01, 0x02, 0x02, 0x01, 0x07,
    0x30, 0x05, 0x06, 0x03, 0x2b, 0x65, 0x70, 0x30, 0x2f, 0x31, 0x2d, 0x30, 0x2b, 0x06, 0x03, 0x55,
    0x04, 0x03, 0x0c, 0x24, 0x63, 0x30, 0x37, 0x61, 0x35, 0x65, 0x39, 0x33, 0x2d, 0x31, 0x38, 0x62,
    0x64, 0x2d, 0x34, 0x63, 0x36, 0x32, 0x2d, 0x61, 0x33, 0x66, 0x35, 0x2d, 0x39, 0x37, 0x64, 0x34,
    0x65, 0x31, 0x62, 0x38, 0x30, 0x66, 0x32, 0x36, 0x30, 0x1e, 0x17, 0x0d, 0x32, 0x36, 0x31, 0x31,
    0x31, 0x38, 0x32, 0x32, 0x35, 0x31, 0x32, 0x31, 0x5a, 0x17, 0x0d, 0x32, 0x38, 0x31, 0x31, 0x31,
    0x37, 0x32, 0x32, 0x35, 0x31, 0x32, 0x31, 0x5a, 0x30, 0x2f, 0x31, 0x2d, 0x30, 0x2b, 0x06, 0x03,
    0x55, 0x04, 0x03, 0x0c, 0x24, 0x63, 0x30, 0x37, 0x61, 0x35, 0x65, 0x39, 0x33, 0x2d, 0x31, 0x38,
    0x62, 0x64, 0x2d, 0x34, 0x63, 0x36, 0x32, 0x2d, 0x61, 0x33, 0x66, 0x35, 0x2d, 0x39, 0x37, 0x64,
    0x34, 0x65, 0x31, 0x62, 0x38, 0x30, 0x66, 0x32, 0x36, 0x30, 0x2a, 0x30, 0x05, 0x06, 0x03, 0x2b,
    0x65, 0x70, 0x03, 0x21, 0x00, 0xf9, 0xb2, 0xa0, 0xef, 0x4b, 0xfc, 0x0b, 0x4c, 0x67, 0x87, 0x9d,
    0x53, 0x2f, 0x88, 0xef, 0x43, 0x06, 0x04, 0xbd, 0xe0, 0x62, 0x84, 0xc1, 0x93, 0xc9, 0x1a, 0xdb,
    0x5d, 0x41, 0x29, 0xb2, 0x04, 0xa3, 0x62, 0x30, 0x60, 0x30, 0x3f, 0x06, 0x03, 0x55, 0x1d, 0x11,
    0x04, 0x38, 0x30, 0x36, 0x86, 0x34, 0x75, 0x72, 0x6e, 0x3a, 0x6e, 0x76, 0x70, 0x61, 0x69, 0x72,
    0x3a, 0x6e, 0x6f, 0x64, 0x65, 0x3a, 0x63, 0x30, 0x37, 0x61, 0x35, 0x65, 0x39, 0x33, 0x2d, 0x31,
    0x38, 0x62, 0x64, 0x2d, 0x34, 0x63, 0x36, 0x32, 0x2d, 0x61, 0x33, 0x66, 0x35, 0x2d, 0x39, 0x37,
    0x64, 0x34, 0x65, 0x31, 0x62, 0x38, 0x30, 0x66, 0x32, 0x36, 0x30, 0x1d, 0x06, 0x03, 0x55, 0x1d,
    0x0e, 0x04, 0x16, 0x04, 0x14, 0xa9, 0x41, 0x16, 0x3e, 0xa3, 0x75, 0xc1, 0x33, 0x72, 0x46, 0xc1,
    0x05, 0x08, 0x73, 0xc6, 0xd6, 0x3f, 0x55, 0xf3, 0xd6, 0x30, 0x05, 0x06, 0x03, 0x2b, 0x65, 0x70,
    0x03, 0x41, 0x00, 0x8a, 0x94, 0x97, 0x4a, 0x34, 0x37, 0x9a, 0x57, 0x1c, 0xd5, 0xae, 0x59, 0xa4,
    0x5b, 0x79, 0x2b, 0x9e, 0x6d, 0x49, 0xd1, 0xc2, 0x6f, 0x28, 0xe8, 0x67, 0x27, 0xcd, 0xf7, 0xd9,
    0x5a, 0x06, 0x49, 0xae, 0x71, 0xe1, 0xd7, 0xa8, 0x55, 0x63, 0x81, 0xf6, 0x81, 0x8f, 0x69, 0x41,
    0x0a, 0x6c, 0x06, 0x16, 0xf7, 0xa0, 0x21, 0xc0, 0x36, 0x69, 0xf9, 0x19, 0x25, 0x04, 0xec, 0x50,
    0x5f, 0xde, 0x02]

def inviterCertificate : Certificate :=
  ⟨"3f2b9c1e-7a54-4d0e-9b6a-1c5d8e2f4a71", inviterDer,
    "sha256:0607729ffdee0ae3e9a05affc09eb471f8f6effbd0d714827c15fb50148ab388"⟩

def joinerCertificate : Certificate :=
  ⟨"8d41e6b0-25c3-4f9a-8e17-60b2a9d3c5f4", joinerDer,
    "sha256:30ac3fa89f07da3419cd12a987fc9bef757501f57c2d4ed311e2476298a0a5fd"⟩

def strangerCertificate : Certificate :=
  ⟨"c07a5e93-18bd-4c62-a3f5-97d4e1b80f26", strangerDer,
    "sha256:39819ab7eee702b1c345bb7651605ee590355d6f74939d3e7c4a3d0bfa558119"⟩

def certificates : List Certificate :=
  [inviterCertificate, joinerCertificate, strangerCertificate]

def stdEncode (b : Bytes) : String := String.ofList (Base64.encode Base64.standard true b)

def sanUris (der : Bytes) : Option (List String) :=
  (certificates.find? fun certificate => certificate.der == der).map fun certificate =>
    ["urn:nvpair:node:" ++ certificate.nodeUuid]

def crates : Crates where
  sha256 b := ⟨Sha256.hash b, Sha256.length_hash b⟩
  hmacSha256 key data := ⟨Sha256.hmac key data, Sha256.length_hmac key data⟩
  b64Encode b := String.ofList (Base64.encode Base64.urlSafe false b)
  b64Decode s := Base64.decode Base64.urlSafe false s.toList
  stdEncode := stdEncode
  stdDecode s := Base64.decode Base64.standard true s.toList
  X25519Secret := Party
  x25519Public := x25519Public
  x25519Agree := x25519Agree
  P256Secret := Party
  p256Public := p256Public
  p256Agree := p256Agree
  decodeWire := decodeWire
  encodeWire := encodeWire
  decodeType := decodeType
  rawFromString := rawFromString
  jsonStr := jsonStr
  jsonInts := jsonInts
  jsonJwk := jsonJwk
  jsonPairingInfo := jsonPairingInfo
  readStr := readStr
  readInt := readInt
  readInts := readInts
  readJwk := readJwk
  readPairingInfo := readPairingInfo
  debugStr := jsonStr
  sanUris := sanUris

/-! ## The laws -/

theorem principal {certificate : Certificate} (found : sanUris certificate.der =
    some [nodeUrn certificate.nodeUuid]) :
    nodeUuidFromCert crates certificate.der = some certificate.nodeUuid :=
  nodeUuidFromCert_urn found

theorem found {certificate : Certificate} (known : certificate ∈ certificates) :
    sanUris certificate.der = some [nodeUrn certificate.nodeUuid] := by
  simp only [certificates, List.mem_cons, List.not_mem_nil, or_false] at known
  rcases known with rfl | rfl | rfl <;> decide +kernel

theorem der_ne {certificate : Certificate} (known : certificate ∈ certificates) :
    certificate.der ≠ [] := by
  simp only [certificates, List.mem_cons, List.not_mem_nil, or_false] at known
  rcases known with rfl | rfl | rfl <;> exact List.cons_ne_nil _ _

theorem inviter_known : inviterCertificate ∈ certificates := by simp [certificates]

theorem joiner_known : joinerCertificate ∈ certificates := by simp [certificates]

variable {certificate : Certificate}

theorem certificate_decoded (known : certificate ∈ certificates) :
    pemCertToDer (pem certificate.der) = some certificate.der :=
  pemCertToDer_pem (der_ne known)

theorem certificate_named (known : certificate ∈ certificates) :
    nodeUuidFromCert crates certificate.der = some certificate.nodeUuid :=
  nodeUuidFromCert_urn (found known)

theorem readStr_jsonStr (s : String) : readStr (jsonStr s) = some s := by
  simp [readStr, jsonStr, Json.unquote_quote]

theorem toInt64_toInt (i : Int64) : toInt64 i.toInt = some i := by
  simp [toInt64]

theorem int64Text_eq (i : Int64) : int64Text i = Json.intDigits i.toInt := rfl

theorem readInt_toString (i : Int64) : readInt (toString i) = some i := by
  rw [readInt, show (toString i).toList = Json.intDigits i.toInt from rfl,
    Json.readInt_intDigits, Option.bind_some, toInt64_toInt]

theorem readInts_jsonInts (is : List Int64) : readInts (jsonInts is) = some is := by
  rw [readInts, jsonInts, String.toList_ofList, Json.readInts_writeInts, Option.bind_some]
  exact Json.mapM_written fun i _ => toInt64_toInt i

theorem readU32_natText (n : UInt32) : readU32 (String.ofList (natText n.toNat)) = some n := by
  simp [readU32, natText, Json.readNat_natDigits, n.toNat_lt]

theorem readU64_natText (n : UInt64) : readU64 (String.ofList (natText n.toNat)) = some n := by
  simp [readU64, natText, Json.readNat_natDigits, n.toNat_lt]

theorem rawFromString_eq {s t : String} :
    rawFromString s = some t ↔ s = t ∧ s ≠ "" ∧ Json.Closed s.toList := by
  unfold rawFromString
  split
  · next holds => simp [holds]
  · next fails => simp [fails]

theorem text_iff (t : String) : crates.Text t ↔ isRaw t = true := by
  rw [Crates.Text, show crates.rawFromString t = rawFromString t from rfl, rawFromString_eq]
  simp [isRaw]

theorem ne_null {α : Type} {read : String → Option α} {t : List Char} {a : α}
    (null : read "null" = none) (same : read (String.ofList t) = some a) : t ≠ "null".toList := by
  rintro rfl
  rw [String.ofList_toList, null] at same
  cases same

theorem field_present {α : Type} {slots : List Slot} (distinct : (slots.map Prod.fst).Nodup)
    {key : String} {v : Option α} {w : α → List Char} {read : String → Option α}
    (found : (key.toList, v.map w) ∈ slots)
    (same : ∀ a, v = some a → w a ≠ "null".toList ∧ read (String.ofList (w a)) = some a) :
    field (Json.present slots) key read = some v := by
  rw [field, fieldText, Json.member?_present distinct found]
  cases v with
  | none => rfl
  | some a =>
    obtain ⟨null, back⟩ := same a rfl
    simp only [Option.map_some, Option.bind_some, if_neg null, back]

theorem str_field {slots : List Slot} (distinct : (slots.map Prod.fst).Nodup) {key : String}
    {v : Option String} (found : (key.toList, v.map text) ∈ slots) :
    field (Json.present slots) key readStr = some v := by
  refine field_present distinct found fun s _ => ?_
  have back : readStr (String.ofList (text s)) = some s := readStr_jsonStr s
  exact ⟨ne_null (by decide) back, back⟩

theorem str_required {slots : List Slot} (distinct : (slots.map Prod.fst).Nodup) {key : String}
    {value : String} (found : (key.toList, some (text value)) ∈ slots) :
    required (Json.present slots) key readStr = some value := by
  have read : field (Json.present slots) key readStr = some (some value) :=
    str_field distinct (v := some value) found
  rw [required, read]
  rfl

theorem int_field {slots : List Slot} (distinct : (slots.map Prod.fst).Nodup) {key : String}
    {value : Option Int64} (found : (key.toList, value.map int64Text) ∈ slots) :
    field (Json.present slots) key readInt = some value := by
  refine field_present distinct found fun i _ => ?_
  have back : readInt (String.ofList (int64Text i)) = some i := by
    rw [int64Text, String.ofList_toList]
    exact readInt_toString i
  exact ⟨ne_null (by decide) back, back⟩

theorem closed_of_text {t : String} (text : crates.Text t) : Json.Closed t.toList :=
  (rawFromString_eq.mp text.1).2.2

theorem raw_field {slots : List Slot} (distinct : (slots.map Prod.fst).Nodup) {key : String}
    {value : Option String} (found : (key.toList, value.map String.toList) ∈ slots)
    (texts : ∀ t, value = some t → crates.Text t) :
    field (Json.present slots) key some = some value := by
  refine field_present distinct found fun t same => ?_
  rw [String.ofList_toList]
  exact ⟨fun null => (texts t same).2 (String.toList_inj.mp null), rfl⟩

theorem distinct_wire (w : Wire) : ((wireSlots w).map Prod.fst).Nodup := by
  show (["Type".toList, "PeerState".toList, "PeerId".toList, "NAI".toList, "NewNAI".toList,
    "Vers".toList, "Verp".toList, "Cryptosuites".toList, "Cryptosuitep".toList, "Dirs".toList,
    "Dirp".toList, "ServerInfo".toList, "PeerInfo".toList, "PKs".toList, "PKp".toList, "Ns".toList,
    "Np".toList, "SleepTime".toList, "NoobId".toList, "MACs".toList, "MACp".toList,
    "ErrorCode".toList, "ErrorInfo".toList, "eap".toList] : List (List Char)).Nodup
  decide

theorem readable_present {slots : List Slot}
    (simple : ∀ slot ∈ slots, Json.SimpleKey slot.1)
    (closed : ∀ slot ∈ slots, ∀ t, slot.2 = some t → Json.Closed t) :
    Json.Readable (Json.present slots) := by
  intro member found
  obtain ⟨slot, inside, same⟩ := List.mem_filterMap.mp found
  obtain ⟨t, value, rfl⟩ := Option.map_eq_some_iff.mp same
  exact ⟨simple slot inside, closed slot inside t value⟩

theorem membersOf_writeRecord {slots : List Slot} (readable : Json.Readable (Json.present slots)) :
    membersOf (utf8 (String.ofList (writeRecord slots))) = some (Json.present slots) := by
  rw [membersOf, charsOf_utf8, Option.bind_some, String.toList_ofList, writeRecord,
    Json.readObject_writeObject readable]

theorem closed_text (s : String) : Json.Closed (text s) := Json.closed_quote s.toList

theorem closed_int64Text (i : Int64) : Json.Closed (int64Text i) :=
  int64Text_eq i ▸ Json.closed_intDigits i.toInt

/-! ### Messages -/

theorem readable_wire {w : Wire} (texts : ∀ t, some t ∈ w.raws → crates.Text t) :
    Json.Readable (Json.present (wireSlots w)) := by
  have raw {value : Option String} (member : value ∈ w.raws) (t : List Char)
      (same : value.map String.toList = some t) : Json.Closed t := by
    obtain ⟨s, value, rfl⟩ := Option.map_eq_some_iff.mp same
    exact closed_of_text (texts s (value ▸ member))
  have int {value : Option Int64} (t : List Char) (same : value.map int64Text = some t) :
      Json.Closed t := by
    obtain ⟨i, -, rfl⟩ := Option.map_eq_some_iff.mp same
    exact closed_int64Text i
  have str {v : Option String} (t : List Char) (same : v.map text = some t) :
      Json.Closed t := by
    obtain ⟨s, -, rfl⟩ := Option.map_eq_some_iff.mp same
    exact closed_text s
  apply readable_present
  · simp only [wireSlots, List.forall_mem_cons]
    decide
  · simp only [wireSlots, List.forall_mem_cons]
    have m (index : Nat) {value : Option String} (found : w.raws[index]? = some value) :
        value ∈ w.raws := List.mem_of_getElem? found
    exact ⟨int, int, raw (m 0 rfl), raw (m 1 rfl), raw (m 2 rfl), raw (m 3 rfl), raw (m 4 rfl),
      raw (m 5 rfl), raw (m 6 rfl), raw (m 7 rfl), raw (m 8 rfl), raw (m 9 rfl), raw (m 10 rfl),
      raw (m 11 rfl), raw (m 12 rfl), raw (m 13 rfl), raw (m 14 rfl), int, raw (m 15 rfl),
      raw (m 16 rfl), raw (m 17 rfl), int, str, str, fun _ wrong => (List.not_mem_nil wrong).elim⟩

theorem wireOf_wireSlots {w : Wire} (texts : ∀ t, some t ∈ w.raws → crates.Text t) :
    wireOf (Json.present (wireSlots w)) = some w := by
  have distinct := distinct_wire w
  have raws {key : String} {value : Option String} (index : Nat)
      (found : (wireSlots w)[index]? = some (key.toList, value.map String.toList))
      (member : value ∈ w.raws) :
      field (Json.present (wireSlots w)) key some = some value :=
    raw_field distinct (List.mem_of_getElem? found) fun t same => texts t (same ▸ member)
  have ints {key : String} {value : Option Int64} (index : Nat)
      (found : (wireSlots w)[index]? = some (key.toList, value.map int64Text)) :
      field (Json.present (wireSlots w)) key readInt = some value :=
    int_field distinct (List.mem_of_getElem? found)
  have strs {key : String} {value : Option String} (index : Nat)
      (found : (wireSlots w)[index]? = some (key.toList, value.map text)) :
      field (Json.present (wireSlots w)) key readStr = some value :=
    str_field distinct (List.mem_of_getElem? found)
  have m (index : Nat) {value : Option String} (found : w.raws[index]? = some value) :
      value ∈ w.raws := List.mem_of_getElem? found
  rw [wireOf, ints 0 rfl, ints 1 rfl, raws 2 rfl (m 0 rfl), raws 3 rfl (m 1 rfl),
    raws 4 rfl (m 2 rfl), raws 5 rfl (m 3 rfl), raws 6 rfl (m 4 rfl), raws 7 rfl (m 5 rfl),
    raws 8 rfl (m 6 rfl), raws 9 rfl (m 7 rfl), raws 10 rfl (m 8 rfl), raws 11 rfl (m 9 rfl),
    raws 12 rfl (m 10 rfl), raws 13 rfl (m 11 rfl), raws 14 rfl (m 12 rfl), raws 15 rfl (m 13 rfl),
    raws 16 rfl (m 14 rfl), ints 17 rfl, raws 18 rfl (m 15 rfl), raws 19 rfl (m 16 rfl),
    raws 20 rfl (m 17 rfl), ints 21 rfl, strs 22 rfl, strs 23 rfl]
  rfl

theorem decodeWire_encodeWire {w : Wire} (texts : ∀ t, some t ∈ w.raws → crates.Text t) :
    decodeWire (encodeWire w) = some w := by
  have raws : (w.raws.all fun r => r.all isRaw) = true := by
    rw [List.all_eq_true]
    intro r member
    cases r with
    | none => rfl
    | some t => exact (text_iff t).mp (texts t member)
  rw [decodeWire, encodeWire, membersOf_writeRecord (readable_wire texts), Option.bind_some,
    wireOf_wireSlots texts, Option.filter_some, if_pos raws]

theorem decodeType_encodeWire {w : Wire} (texts : ∀ t, some t ∈ w.raws → crates.Text t) :
    decodeType (encodeWire w) = some w.type := by
  rw [decodeType, encodeWire, membersOf_writeRecord (readable_wire texts), Option.bind_some]
  exact int_field (distinct_wire w) (List.mem_of_getElem? (i := 0) rfl)

theorem decodeWire_member {bytes : Bytes} {w : Wire} {t : String}
    (decoded : decodeWire bytes = some w) (found : some t ∈ w.raws) : crates.Text t := by
  have raws := (Option.filter_eq_some_iff.mp decoded).2
  rw [List.all_eq_true] at raws
  exact (text_iff t).mpr (raws _ found)

/-! ### Keys and identities -/

theorem distinct_jwk (jwk : Jwk) : ((jwkSlots jwk).map Prod.fst).Nodup := by
  show (["kty".toList, "crv".toList, "x".toList, "y".toList] : List (List Char)).Nodup
  decide

theorem readable_jwk (jwk : Jwk) : Json.Readable (Json.present (jwkSlots jwk)) := by
  have str {v : Option String} (t : List Char) (same : v.map text = some t) :
      Json.Closed t := by
    obtain ⟨s, -, rfl⟩ := Option.map_eq_some_iff.mp same
    exact closed_text s
  apply readable_present
  · simp only [jwkSlots, List.forall_mem_cons]
    decide
  · simp only [jwkSlots, List.forall_mem_cons]
    exact ⟨str (v := some _), str (v := some _), str (v := some _), str,
      fun _ wrong => (List.not_mem_nil wrong).elim⟩

theorem readJwk_jsonJwk (jwk : Jwk) : readJwk (jsonJwk jwk) = some jwk := by
  have distinct := distinct_jwk jwk
  have str {key value : String} (index : Nat)
      (found : (jwkSlots jwk)[index]? = some (key.toList, some (text value))) :
      required (Json.present (jwkSlots jwk)) key readStr = some value :=
    str_required distinct (List.mem_of_getElem? found)
  rw [readJwk, jsonJwk, String.toList_ofList, writeRecord,
    Json.readObject_writeObject (readable_jwk jwk), Option.bind_some, jwkOf, str 0 rfl, str 1 rfl,
    str 2 rfl, str_field distinct (v := jwk.y) (List.mem_of_getElem? (i := 3) rfl)]
  rfl

theorem distinct_info (info : PairingInfo) : ((infoSlots info).map Prod.fst).Nodup := by
  show (["v".toList, "nodeUuid".toList, "nodeId".toList, "name".toList, "clusterId".toList,
    "admissionEpoch".toList, "clusterFriendlyName".toList, "addr".toList,
    "cert".toList] : List (List Char)).Nodup
  decide

theorem readable_info (info : PairingInfo) : Json.Readable (Json.present (infoSlots info)) := by
  have str {s : String} (t : List Char) (same : some (text s) = some t) : Json.Closed t :=
    Option.some.inj same ▸ closed_text s
  have nat {n : Nat} (t : List Char) (same : some (natText n) = some t) : Json.Closed t :=
    Option.some.inj same ▸ Json.closed_natDigits n
  apply readable_present
  · simp only [infoSlots, List.forall_mem_cons]
    decide
  · simp only [infoSlots, List.forall_mem_cons]
    refine ⟨nat, str, str, str, str, fun t same => ?_, str, fun t same => ?_, str,
      fun _ wrong => (List.not_mem_nil wrong).elim⟩
    · split at same
      · cases same
      · exact nat t same
    · split at same
      · cases same
      · exact str t same

theorem epoch_field {slots : List Slot} (distinct : (slots.map Prod.fst).Nodup) {key : String}
    {n : UInt64}
    (found : (key.toList, if n = 0 then none else some (natText n.toNat)) ∈ slots) :
    (field (Json.present slots) key readU64).map (Option.getD · 0) = some n := by
  have write : (if n = 0 then none else some (natText n.toNat)) =
      (if n = 0 then none else some n).map fun n => natText n.toNat := by
    split <;> rfl
  rw [write] at found
  rw [field_present distinct found fun m same => ?_]
  · split
    · next zero => rw [zero]; rfl
    · rfl
  · have back := readU64_natText m
    exact ⟨ne_null (by decide) back, back⟩

theorem addr_field {slots : List Slot} (distinct : (slots.map Prod.fst).Nodup) {key s : String}
    (found : (key.toList, if s = "" then none else some (text s)) ∈ slots) :
    (field (Json.present slots) key readStr).map (Option.getD · "") = some s := by
  have write : (if s = "" then none else some (text s)) =
      (if s = "" then none else some s).map text := by
    split <;> rfl
  rw [write] at found
  rw [str_field distinct found]
  split
  · next empty => rw [empty]; rfl
  · rfl

theorem u32_required {slots : List Slot} (distinct : (slots.map Prod.fst).Nodup) {key : String}
    {n : UInt32} (found : (key.toList, some (natText n.toNat)) ∈ slots) :
    required (Json.present slots) key readU32 = some n := by
  have read : field (Json.present slots) key readU32 = some (some n) := by
    refine field_present (v := some n) (w := fun n => natText n.toNat) distinct found
      fun m _ => ?_
    have back := readU32_natText m
    exact ⟨ne_null (by decide) back, back⟩
  rw [required, read]
  rfl

theorem infoOf_infoSlots (info : PairingInfo) :
    infoOf (Json.present (infoSlots info)) = some info := by
  have distinct := distinct_info info
  have str {key value : String} (index : Nat)
      (found : (infoSlots info)[index]? = some (key.toList, some (text value))) :
      required (Json.present (infoSlots info)) key readStr = some value :=
    str_required distinct (List.mem_of_getElem? found)
  obtain ⟨epoch, readEpoch, sameEpoch⟩ := Option.map_eq_some_iff.mp
    (epoch_field distinct (n := info.admissionEpoch) (List.mem_of_getElem? (i := 5) rfl))
  obtain ⟨addr, readAddr, sameAddr⟩ := Option.map_eq_some_iff.mp
    (addr_field distinct (s := info.addr) (List.mem_of_getElem? (i := 7) rfl))
  rw [infoOf, u32_required distinct (n := info.v) (List.mem_of_getElem? (i := 0) rfl), str 1 rfl,
    str 2 rfl, str 3 rfl, str 4 rfl, readEpoch, str 6 rfl, readAddr, str 8 rfl]
  simp only [Option.bind_eq_bind, Option.bind_some, sameEpoch, sameAddr]
  rfl

theorem readPairingInfo_jsonPairingInfo (info : PairingInfo) :
    readPairingInfo (utf8 (jsonPairingInfo info)) = .ok info := by
  rw [readPairingInfo, jsonPairingInfo, membersOf_writeRecord (readable_info info),
    Option.bind_some, infoOf_infoSlots]

/-! ### The instance is lawful -/

theorem text_of {t : List Char} (some : t ≠ []) (closed : Json.Closed t)
    (null : t ≠ "null".toList) : crates.Text (String.ofList t) := by
  rw [text_iff, isRaw, String.toList_ofList]
  have full : String.ofList t ≠ "" := fun empty => some (by
    rw [← String.toList_ofList (l := t), empty]
    rfl)
  have other : String.ofList t ≠ "null" := fun same => null (by
    rw [← String.toList_ofList (l := t), same])
  simp [full, closed, other]

theorem head_ne_null {ch : Char} {t : List Char} (other : ch ≠ 'n') : ch :: t ≠ "null".toList := by
  intro same
  exact other (List.cons.inj same).1

theorem b64 (b : Bytes) : crates.b64Decode (crates.b64Encode b) = some b := by
  show Base64.decode _ _ (String.ofList _).toList = _
  rw [String.toList_ofList, Base64.decode_encode]

theorem std (b : Bytes) : crates.stdDecode (crates.stdEncode b) = some b := by
  show Base64.decode _ _ (String.ofList _).toList = _
  rw [String.toList_ofList, Base64.decode_encode]

theorem text_str (s : String) : crates.Text (jsonStr s) :=
  text_of (by simp [Json.quote]) (Json.closed_quote _) (head_ne_null (by decide))

theorem text_int (i : Int64) : crates.Text (toString i) := by
  have read : readInt (String.ofList (int64Text i)) = some i := by
    rw [int64Text, String.ofList_toList]
    exact readInt_toString i
  have text := text_of (Json.intDigits_ne_nil i.toInt) (Json.closed_intDigits i.toInt)
    (ne_null (by decide) read)
  rwa [← int64Text_eq, int64Text, String.ofList_toList] at text

theorem text_ints (is : List Int64) : crates.Text (jsonInts is) :=
  text_of (by simp [Json.writeInts]) (Json.closed_writeInts _) (head_ne_null (by decide))

theorem text_jwk (jwk : Jwk) : crates.Text (jsonJwk jwk) :=
  text_of (by simp [writeRecord, Json.writeObject]) (Json.closed_writeObject (readable_jwk jwk))
    (head_ne_null (by decide))

theorem text_info (info : PairingInfo) : crates.Text (jsonPairingInfo info) :=
  text_of (by simp [writeRecord, Json.writeObject]) (Json.closed_writeObject (readable_info info))
    (head_ne_null (by decide))

theorem quotes : jsonStr "" = "\"\"" := by decide

theorem int_quotes : readInt "\"\"" = none := by decide

theorem ints_quotes : readInts "\"\"" = none := by decide

theorem closed_of_raw {s t : String} (held : rawFromString s = some t) :
    Json.Closed t.toList := by
  obtain ⟨rfl, -, closed⟩ := rawFromString_eq.mp held
  exact closed

theorem agreement (a b : Party) : ∃ z, p256Agree a (p256Point b) = some z ∧
    p256Agree b (p256Point a) = some z := by
  refine ⟨(p256Secret a b).bytes, ?_⟩
  cases a <;> cases b <;> decide

theorem lawful : crates.Lawful where
  b64 := b64
  std := std
  std_empty := rfl
  text_obj := (text_iff _).mpr (by decide)
  text_str := text_str
  text_int := text_int
  text_ints := text_ints
  text_jwk := text_jwk
  text_info := text_info
  str s := by
    dsimp only [crates]
    exact readStr_jsonStr s
  int i := by
    dsimp only [crates]
    exact readInt_toString i
  ints is := by
    dsimp only [crates]
    exact readInts_jsonInts is
  jwk jwk := by
    dsimp only [crates]
    exact readJwk_jsonJwk jwk
  info info := by
    dsimp only [crates]
    exact readPairingInfo_jsonPairingInfo info
  quotes := quotes
  int_quotes := int_quotes
  ints_quotes := ints_quotes
  wire w texts := by
    dsimp only [crates]
    exact decodeWire_encodeWire texts
  type w texts := by
    dsimp only [crates]
    exact decodeType_encodeWire texts
  wire_empty := rfl
  member := decodeWire_member
  empty := rfl
  closed := closed_of_raw
  agreement := agreement

/-! ### What a party draws -/

/-- The draws of a party: bytes that name it, and its keys. -/
def draws (party : Party) : Draws crates :=
  let byte := match party with
    | .server => 0x53
    | .peer => 0x50
  { peerId := ⟨List.replicate 16 byte, List.length_replicate⟩
    nonce := ⟨List.replicate 32 byte, List.length_replicate⟩
    x25519 := party
    p256 := party }

/-! ### Two nodes and a third -/

def info (certificate : Certificate) (name clusterId addr : String) : PairingInfo :=
  { v := 2
    nodeUuid := certificate.nodeUuid
    nodeId := certificate.fingerprint
    name := name
    clusterId := clusterId
    admissionEpoch := 1
    clusterFriendlyName := ""
    addr := addr
    cert := pem certificate.der }

def inviterInfo : PairingInfo := info inviterCertificate "inviter" "cluster-xyz" "10.0.0.5:14321"

def joinerInfo : PairingInfo := info joinerCertificate "joiner" "" "10.0.0.6:14321"

def strangerInfo : PairingInfo := info strangerCertificate "stranger" "" "10.0.0.66:14321"

end Reference

end OpenPair
