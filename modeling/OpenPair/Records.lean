import Mathlib.Algebra.Ring.Nat
import Mathlib.Data.List.Basic

/-! Bytes, texts and the records that cross the wire.

A Rust `String` is a Lean `String`, a byte slice a list, `i64` an `Int64` and
`[u8; n]` a list with its length. A `RawValue` is represented by its JSON text.
-/

set_option autoImplicit false

namespace OpenPair

abbrev Bytes := List UInt8

-- `[u8; n]`.
structure ByteArr (n : Nat) where
  bytes : Bytes
  length_eq : bytes.length = n
  deriving DecidableEq

theorem ByteArr.ext {n : Nat} {first second : ByteArr n} (same : first.bytes = second.bytes) :
    first = second := by
  cases first
  cases second
  cases same
  rfl

/-- `[0u8; n]`. -/
def ByteArr.zeros (n : Nat) : ByteArr n := ⟨List.replicate n 0, List.length_replicate⟩

-- `b[from..from + n]` of a slice long enough for it.
def ByteArr.slice (b : Bytes) (offset n : Nat) (bound : offset + n ≤ b.length) : ByteArr n :=
  ⟨(b.drop offset).take n, by rw [List.length_take, List.length_drop]; omega⟩

/-- `str::as_bytes`. -/
def utf8 (s : String) : Bytes := s.toUTF8.data.toList

theorem utf8_injective {s t : String} (same : utf8 s = utf8 t) : s = t := by
  apply String.toByteArray_inj.mp
  exact ByteArray.ext (Array.toList_inj.mp same)

theorem utf8_append (s t : String) : utf8 (s ++ t) = utf8 s ++ utf8 t := by
  simp [utf8]

/-- A JWK public key as it appears on the wire (`suite.rs`). -/
structure Jwk where
  kty : String
  crv : String
  x : String
  y : Option String := none
  deriving DecidableEq, Repr

/-- The EAP-NOOB message of `machine.rs`. Fields of type `Option<Box<RawValue>>`
hold the JSON text of the member. -/
structure Wire where
  type : Option Int64 := none
  peerState : Option Int64 := none
  peerId : Option String := none
  nai : Option String := none
  newNai : Option String := none
  vers : Option String := none
  verp : Option String := none
  cryptosuites : Option String := none
  cryptosuitep : Option String := none
  dirs : Option String := none
  dirp : Option String := none
  serverInfo : Option String := none
  peerInfo : Option String := none
  pks : Option String := none
  pkp : Option String := none
  ns : Option String := none
  np : Option String := none
  sleepTime : Option Int64 := none
  noobId : Option String := none
  macs : Option String := none
  macp : Option String := none
  errorCode : Option Int64 := none
  errorInfo : Option String := none
  eap : Option String := none
  deriving DecidableEq, Repr

def Wire.raws (w : Wire) : List (Option String) :=
  [w.peerId, w.nai, w.newNai, w.vers, w.verp, w.cryptosuites, w.cryptosuitep, w.dirs, w.dirp,
    w.serverInfo, w.peerInfo, w.pks, w.pkp, w.ns, w.np, w.noobId, w.macs, w.macp]

/-- The identity object embedded in ServerInfo and PeerInfo (`info.rs`). -/
structure PairingInfo where
  v : UInt32
  nodeUuid : String
  nodeId : String
  name : String
  clusterId : String
  admissionEpoch : UInt64
  clusterFriendlyName : String
  addr : String
  cert : String
  deriving DecidableEq, Repr

end OpenPair
