import OpenPair.Crates

/-! Node identities: PEM text, the node UUID of a certificate and its
fingerprint (`identity.rs`, `uuid_scheme.rs`). -/

set_option autoImplicit false

namespace OpenPair

/-! ## PEM -/

-- Unicode `White_Space`, what `str::trim` removes.
def isWhitespace (ch : Char) : Bool :=
  (0x09 ≤ ch.toNat && ch.toNat ≤ 0x0D) || ch.toNat == 0x20 || ch.toNat == 0x85 ||
    ch.toNat == 0xA0 || ch.toNat == 0x1680 || (0x2000 ≤ ch.toNat && ch.toNat ≤ 0x200A) ||
    ch.toNat == 0x2028 || ch.toNat == 0x2029 || ch.toNat == 0x202F || ch.toNat == 0x205F ||
    ch.toNat == 0x3000

def trim (line : List Char) : List Char :=
  ((line.dropWhile isWhitespace).reverse.dropWhile isWhitespace).reverse

/-- `str::lines`: a line ends at a newline, with the carriage return before it.
`line` is the current line, last character first. -/
def linesFrom (line : List Char) : List Char → List (List Char)
  | [] => if line.isEmpty then [] else [line.reverse]
  | ch :: rest =>
    if ch = '\n' then
      (if line.head? = some '\r' then line.tail else line).reverse :: linesFrom [] rest
    else linesFrom (ch :: line) rest

def lines (text : String) : List (List Char) := linesFrom [] text.toList

def beginCertificate : List Char := "-----BEGIN CERTIFICATE-----".toList

def endCertificate : List Char := "-----END CERTIFICATE-----".toList

-- The loop of `pem_to_der`: the trimmed lines of the first block.
def pemBody (inBlock : Bool) : List (List Char) → List Char
  | [] => []
  | line :: rest =>
    if beginCertificate.isPrefixOf line then pemBody true rest
    else if endCertificate.isPrefixOf line then []
    else if inBlock then trim line ++ pemBody inBlock rest
    else pemBody inBlock rest

def base64Table : Bytes :=
  utf8 "ABCDEFGHIJKLMNOPQRSTUVWXYZabcdefghijklmnopqrstuvwxyz0123456789+/"

-- The reverse table of `base64_decode`, 255 where a byte is no digit.
def base64Value (b : UInt8) : UInt8 :=
  match base64Table.idxOf? b with
  | some i => UInt8.ofNat i
  | none => 255

def isAsciiWhitespace (b : UInt8) : Bool :=
  b == 0x20 || b == 0x09 || b == 0x0A || b == 0x0C || b == 0x0D

/-- The loop of `base64_decode`; the buffer shifts bits out on the left. -/
def base64Loop (buf bits : UInt32) : Bytes → Option Bytes
  | [] => some []
  | b :: rest =>
    if b == 0x3D || isAsciiWhitespace b then base64Loop buf bits rest
    else if base64Value b = 255 then none
    else
      let buf := (buf <<< 6) ||| (base64Value b).toUInt32
      let bits := bits + 6
      if 8 ≤ bits then
        (base64Loop buf (bits - 8) rest).map ((buf >>> (bits - 8)).toUInt8 :: ·)
      else base64Loop buf bits rest

def base64Decode (s : List Char) : Option Bytes := base64Loop 0 0 (utf8 (String.ofList s))

def pemCertToDer (pem : String) : Option Bytes :=
  let b64 := pemBody false (lines pem)
  if b64.isEmpty then none else base64Decode b64

/-! ## The principal of a certificate -/

def nodeUrnPrefix : String := "urn:nvpair:node:"

def nodeUrn (uuid : String) : String := nodeUrnPrefix ++ uuid

/-- `str::strip_prefix`. -/
def uuidFromUrn (uri : String) : Option String :=
  if nodeUrnPrefix.toList.isPrefixOf uri.toList then
    some (String.ofList (uri.toList.drop nodeUrnPrefix.toList.length))
  else none

theorem uuidFromUrn_nodeUrn (uuid : String) : uuidFromUrn (nodeUrn uuid) = some uuid := by
  have starts : nodeUrnPrefix.toList.isPrefixOf (nodeUrn uuid).toList = true := by
    rw [nodeUrn, String.toList_append, List.isPrefixOf_iff_prefix]
    exact List.prefix_append _ _
  rw [uuidFromUrn, if_pos starts, nodeUrn, String.toList_append, List.drop_left,
    String.ofList_toList]

variable (c : Crates)

-- The first URI of the subject alternative name that names a node.
def nodeUuidFromCert (der : Bytes) : Option String :=
  (c.sanUris der).bind fun uris => uris.findSome? uuidFromUrn

variable {c} in
theorem nodeUuidFromCert_urn {der : Bytes} {uuid : String}
    (uris : c.sanUris der = some [nodeUrn uuid]) : nodeUuidFromCert c der = some uuid := by
  rw [nodeUuidFromCert, uris]
  simp [uuidFromUrn_nodeUrn]

-- `hex::encode`.
def hexEncode (b : Bytes) : String :=
  String.ofList (b.flatMap fun byte =>
    [Nat.digitChar (byte.toNat / 16), Nat.digitChar (byte.toNat % 16)])

def certFingerprint (der : Bytes) : String := "sha256:" ++ hexEncode (c.sha256 der).bytes

structure Identity where
  nodeUuid : String
  certDer : Bytes
  certPem : String

def Identity.fingerprint (identity : Identity) : String := certFingerprint c identity.certDer

end OpenPair
