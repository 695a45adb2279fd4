import OpenPair.Crates

/-! The two cryptosuites of `suite.rs`: ephemeral key pairs and the agreed secret. -/

set_option autoImplicit false

namespace OpenPair

inductive Suite where
  | x25519
  | p256
  deriving DecidableEq, Repr

def Suite.fromId (id : UInt8) : Option Suite :=
  if id = 1 then some .x25519 else if id = 2 then some .p256 else none

def Suite.id : Suite → UInt8
  | .x25519 => 1
  | .p256 => 2

variable (c : Crates)

inductive SecretKey where
  | x25519 (secret : c.X25519Secret)
  | p256 (secret : c.P256Secret)

structure KeyPair where
  secret : SecretKey c
  publicJwk : Jwk

/-- What one call can draw from `rand`: a PeerId, a nonce and an ephemeral key of either suite. -/
structure Draws where
  peerId : ByteArr 16
  nonce : ByteArr 32
  x25519 : c.X25519Secret
  p256 : c.P256Secret

variable {c}

def SecretKey.publicJwk : SecretKey c → Jwk
  | .x25519 secret =>
    { kty := "OKP", crv := "X25519", x := c.b64Encode (c.x25519Public secret).bytes, y := none }
  | .p256 secret =>
    { kty := "EC", crv := "P-256", x := c.b64Encode (c.p256Public secret).1.bytes
      y := some (c.b64Encode (c.p256Public secret).2.bytes) }

def Suite.secretKey (suite : Suite) (draws : Draws c) : SecretKey c :=
  match suite with
  | .x25519 => .x25519 draws.x25519
  | .p256 => .p256 draws.p256

def Suite.generate (suite : Suite) (draws : Draws c) : KeyPair c :=
  { secret := suite.secretKey draws, publicJwk := (suite.secretKey draws).publicJwk }

-- `none` where `compute_z` returns an error.
def SecretKey.computeZ (secret : SecretKey c) (peer : Jwk) : Option Bytes :=
  match secret with
  | .x25519 sk =>
    if peer.kty = "OKP" ∧ peer.crv = "X25519" then do
      let xb ← c.b64Decode peer.x
      if long : xb.length = 32 then return (c.x25519Agree sk ⟨xb, long⟩).bytes else none
    else none
  | .p256 sk =>
    if peer.kty = "EC" ∧ peer.crv = "P-256" then do
      let x ← c.b64Decode peer.x
      let y ← c.b64Decode (← peer.y)
      c.p256Agree sk (0x04 :: x ++ y)
    else none

def KeyPair.computeZ (pair : KeyPair c) (peer : Jwk) : Option Bytes :=
  pair.secret.computeZ peer

end OpenPair
