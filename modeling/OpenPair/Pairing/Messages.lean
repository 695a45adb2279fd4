import OpenPair.Lawful
import OpenPair.Pairing.Machine

/-! What lawful crates make of the texts that the machines write. -/

set_option autoImplicit false

namespace OpenPair

variable {c : Crates}

theorem Crates.Text.raw_eq {t : String} (text : c.Text t) : raw c t = some t := text.1

theorem Crates.Text.ne_empty {t : String} (lawful : c.Lawful) (text : c.Text t) : t ≠ "" := by
  rintro rfl
  have none := lawful.empty.symm.trans text.1
  cases none

theorem Crates.Text.closed {t : String} (lawful : c.Lawful) (text : c.Text t) :
    Json.Closed t.toList := lawful.closed text.1

namespace Crates.Lawful

variable (lawful : c.Lawful)
include lawful

theorem text_jstr (s : String) : c.Text (jstr c s) := lawful.text_str s

theorem raw_jstr (s : String) : raw c (jstr c s) = some (jstr c s) := (lawful.text_str s).raw_eq

theorem raw_int (i : Int64) : raw c (toString i) = some (toString i) := (lawful.text_int i).raw_eq

theorem raw_ints (is : List Int64) : raw c (c.jsonInts is) = some (c.jsonInts is) :=
  (lawful.text_ints is).raw_eq

theorem raw_jwk (jwk : Jwk) : raw c (c.jsonJwk jwk) = some (c.jsonJwk jwk) :=
  (lawful.text_jwk jwk).raw_eq

theorem jstr_ne (s : String) : jstr c s ≠ "" := (lawful.text_str s).ne_empty lawful

theorem jstr_injective {s t : String} (same : jstr c s = jstr c t) : s = t := by
  have read := lawful.str s
  rw [show c.jsonStr s = c.jsonStr t from same, lawful.str t] at read
  exact (Option.some.inj read).symm

theorem parseStr_jstr (s : String) : parseStr c (some (jstr c s)) = some s := lawful.str s

theorem parseInt_toString (i : Int64) : parseInt c (some (toString i)) = some i := lawful.int i

theorem parseInts_jsonInts (is : List Int64) : parseInts c (some (c.jsonInts is)) = some is :=
  lawful.ints is

theorem parseB64_jstr (b : Bytes) : parseB64 c (some (jstr c (c.b64Encode b))) = some b := by
  rw [parseB64, lawful.parseStr_jstr, Option.bind_some, lawful.b64]

end Crates.Lawful

end OpenPair
