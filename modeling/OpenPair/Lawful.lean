import OpenPair.Crates
import OpenPair.Library.JsonScan

/-! What the crates document about their functions, as laws on the parameter. -/

set_option autoImplicit false

namespace OpenPair

/-- JSON that a `RawValue` holds as it stands; a member `null` is read as absent. -/
def Crates.Text (c : Crates) (t : String) : Prop := c.rawFromString t = some t ∧ t ≠ "null"

structure Crates.Lawful (c : Crates) : Prop where
  b64 (b : Bytes) : c.b64Decode (c.b64Encode b) = some b
  std (b : Bytes) : c.stdDecode (c.stdEncode b) = some b
  std_empty : c.stdEncode [] = ""
  /-- What the serialiser writes is JSON. -/
  text_obj : c.Text "{}"
  text_str (s : String) : c.Text (c.jsonStr s)
  text_int (i : Int64) : c.Text (toString i)
  text_ints (is : List Int64) : c.Text (c.jsonInts is)
  text_jwk (jwk : Jwk) : c.Text (c.jsonJwk jwk)
  text_info (info : PairingInfo) : c.Text (c.jsonPairingInfo info)
  /-- What it writes is read back. -/
  str (s : String) : c.readStr (c.jsonStr s) = some s
  int (i : Int64) : c.readInt (toString i) = some i
  ints (is : List Int64) : c.readInts (c.jsonInts is) = some is
  jwk (jwk : Jwk) : c.readJwk (c.jsonJwk jwk) = some jwk
  info (info : PairingInfo) : c.readPairingInfo (utf8 (c.jsonPairingInfo info)) = .ok info
  /-- The empty string is two quotes, which are no integer and no array. -/
  quotes : c.jsonStr "" = "\"\""
  int_quotes : c.readInt "\"\"" = none
  ints_quotes : c.readInts "\"\"" = none
  /-- Raw members travel verbatim. -/
  wire (w : Wire) (texts : ∀ t, some t ∈ w.raws → c.Text t) : c.decodeWire (c.encodeWire w) = some w
  type (w : Wire) (texts : ∀ t, some t ∈ w.raws → c.Text t) :
    c.decodeType (c.encodeWire w) = some w.type
  /-- No bytes are no message. -/
  wire_empty : c.decodeWire [] = none
  /-- A raw member is JSON, whose brackets and strings close. -/
  member {b : Bytes} {w : Wire} {t : String} (decoded : c.decodeWire b = some w)
    (found : some t ∈ w.raws) : c.Text t
  empty : c.rawFromString "" = none
  closed {s t : String} (held : c.rawFromString s = some t) : Json.Closed t.toList
  /-- Two P-256 secrets agree over each other's public point. -/
  agreement (a b : c.P256Secret) :
    ∃ z, c.p256Agree a (0x04 :: (c.p256Public b).1.bytes ++ (c.p256Public b).2.bytes) = some z ∧
      c.p256Agree b (0x04 :: (c.p256Public a).1.bytes ++ (c.p256Public a).2.bytes) = some z

end OpenPair
