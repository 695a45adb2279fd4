import OpenPair.Records

/-! The functions of the crates outside the repository, as one parameter.

Nothing is assumed about them here: results that rely on documented behaviour
of a crate take it as a hypothesis. Lengths fixed by a crate's types are part of
the types below.
-/

set_option autoImplicit false

namespace OpenPair

structure Crates where
  /-- `sha2::Sha256` over the whole input. -/
  sha256 : Bytes → ByteArr 32
  /-- `hmac::Hmac<Sha256>`, key and data. -/
  hmacSha256 : Bytes → Bytes → ByteArr 32
  /-- `base64` with `URL_SAFE_NO_PAD`. -/
  b64Encode : Bytes → String
  b64Decode : String → Option Bytes
  /-- `base64` with `STANDARD`. -/
  stdEncode : Bytes → String
  stdDecode : String → Option Bytes
  /-- `x25519_dalek::StaticSecret`, its public key and the agreed secret. -/
  X25519Secret : Type
  x25519Public : X25519Secret → ByteArr 32
  x25519Agree : X25519Secret → ByteArr 32 → ByteArr 32
  /-- `p256::ecdh::EphemeralSecret`, the coordinates of its public key, and the agreed
  secret for an uncompressed point; `none` where the bytes are no point of the curve. -/
  P256Secret : Type
  p256Public : P256Secret → ByteArr 32 × ByteArr 32
  p256Agree : P256Secret → Bytes → Option Bytes
  /-- `serde_json` on the message record. -/
  decodeWire : Bytes → Option Wire
  encodeWire : Wire → Bytes
  /-- `serde_json` on the one-member record of `first_type`. -/
  decodeType : Bytes → Option (Option Int64)
  /-- `RawValue::from_string`, the text held on success. -/
  rawFromString : String → Option String
  /-- `serde_json::to_string` at `&str`, `Vec<i64>`, `Jwk` and `PairingInfo`. -/
  jsonStr : String → String
  jsonInts : List Int64 → String
  jsonJwk : Jwk → String
  jsonPairingInfo : PairingInfo → String
  /-- `serde_json::from_str` at `String`, `i64`, `Vec<i64>` and `Jwk`. -/
  readStr : String → Option String
  readInt : String → Option Int64
  readInts : String → Option (List Int64)
  readJwk : String → Option Jwk
  /-- `serde_json::from_slice` at `PairingInfo`, with the text of its error. -/
  readPairingInfo : Bytes → Except String PairingInfo
  /-- `{:?}` of a `str`. -/
  debugStr : String → String
  /-- `x509_parser`: the URI entries of a certificate's subject alternative name. -/
  sanUris : Bytes → Option (List String)

end OpenPair
