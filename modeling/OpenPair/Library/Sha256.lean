import Mathlib.Algebra.Ring.Nat
import Mathlib.Data.List.Basic

/-! SHA-256 and HMAC over it. -/

set_option autoImplicit false

namespace Sha256

def rotr (x n : UInt32) : UInt32 := (x >>> n) ||| (x <<< (32 - n))

/-- The eight words of a hash state. -/
structure Digest where
  a : UInt32
  b : UInt32
  c : UInt32
  d : UInt32
  e : UInt32
  f : UInt32
  g : UInt32
  h : UInt32
  deriving DecidableEq

def initial : Digest :=
  { a := 0x6a09e667, b := 0xbb67ae85, c := 0x3c6ef372, d := 0xa54ff53a
    e := 0x510e527f, f := 0x9b05688c, g := 0x1f83d9ab, h := 0x5be0cd19 }

def roundConstants : List UInt32 :=
  [0x428a2f98, 0x71374491, 0xb5c0fbcf, 0xe9b5dba5, 0x3956c25b, 0x59f111f1, 0x923f82a4, 0xab1c5ed5,
    0xd807aa98, 0x12835b01, 0x243185be, 0x550c7dc3, 0x72be5d74, 0x80deb1fe, 0x9bdc06a7, 0xc19bf174,
    0xe49b69c1, 0xefbe4786, 0x0fc19dc6, 0x240ca1cc, 0x2de92c6f, 0x4a7484aa, 0x5cb0a9dc, 0x76f988da,
    0x983e5152, 0xa831c66d, 0xb00327c8, 0xbf597fc7, 0xc6e00bf3, 0xd5a79147, 0x06ca6351, 0x14292967,
    0x27b70a85, 0x2e1b2138, 0x4d2c6dfc, 0x53380d13, 0x650a7354, 0x766a0abb, 0x81c2c92e, 0x92722c85,
    0xa2bfe8a1, 0xa81a664b, 0xc24b8b70, 0xc76c51a3, 0xd192e819, 0xd6990624, 0xf40e3585, 0x106aa070,
    0x19a4c116, 0x1e376c08, 0x2748774c, 0x34b0bcb5, 0x391c0cb3, 0x4ed8aa4a, 0x5b9cca4f, 0x682e6ff3,
    0x748f82ee, 0x78a5636f, 0x84c87814, 0x8cc70208, 0x90befffa, 0xa4506ceb, 0xbef9a3f7, 0xc67178f2]

def choose (x y z : UInt32) : UInt32 := (x &&& y) ^^^ (~~~x &&& z)

def majority (x y z : UInt32) : UInt32 := (x &&& y) ^^^ (x &&& z) ^^^ (y &&& z)

def round (s : Digest) (word : UInt32) : Digest :=
  let t1 := s.h + (rotr s.e 6 ^^^ rotr s.e 11 ^^^ rotr s.e 25) + choose s.e s.f s.g + word
  let t2 := (rotr s.a 2 ^^^ rotr s.a 13 ^^^ rotr s.a 22) + majority s.a s.b s.c
  { a := t1 + t2, b := s.a, c := s.b, d := s.c, e := s.d + t1, f := s.e, g := s.f, h := s.g }

-- The word that follows a window of sixteen in the message schedule.
def nextWord (window : List UInt32) : UInt32 :=
  let x := window.getD 1 0
  let y := window.getD 14 0
  window.headD 0 + (rotr x 7 ^^^ rotr x 18 ^^^ (x >>> 3)) + window.getD 9 0 +
    (rotr y 17 ^^^ rotr y 19 ^^^ (y >>> 10))

def rounds (s : Digest) (window : List UInt32) : List UInt32 → Digest
  | [] => s
  | k :: ks => rounds (round s (k + window.headD 0)) (window.tail ++ [nextWord window]) ks

def words : List UInt8 → List UInt32
  | p :: q :: r :: s :: rest =>
    ((p.toUInt32 <<< 24) ||| (q.toUInt32 <<< 16) ||| (r.toUInt32 <<< 8) ||| s.toUInt32) ::
      words rest
  | _ => []

def compress (s : Digest) (block : List UInt8) : Digest :=
  let t := rounds s (words block) roundConstants
  { a := s.a + t.a, b := s.b + t.b, c := s.c + t.c, d := s.d + t.d
    e := s.e + t.e, f := s.f + t.f, g := s.g + t.g, h := s.h + t.h }

def compressBlocks (s : Digest) (input : List UInt8) : Nat → Digest
  | 0 => s
  | count + 1 => compressBlocks (compress s (input.take 64)) (input.drop 64) count

def wordBytes (x : UInt32) : List UInt8 :=
  [(x >>> 24).toUInt8, (x >>> 16).toUInt8, (x >>> 8).toUInt8, x.toUInt8]

/-- A one bit, zeros, and the length in bits, up to a whole number of blocks. -/
def pad (input : List UInt8) : List UInt8 :=
  let zeros := (119 - input.length % 64) % 64
  let bits := 8 * input.length
  input ++ 0x80 :: List.replicate zeros 0 ++
    wordBytes (UInt32.ofNat (bits / 2 ^ 32)) ++ wordBytes (UInt32.ofNat bits)

def Digest.bytes (s : Digest) : List UInt8 :=
  wordBytes s.a ++ wordBytes s.b ++ wordBytes s.c ++ wordBytes s.d ++ wordBytes s.e ++
    wordBytes s.f ++ wordBytes s.g ++ wordBytes s.h

def hash (input : List UInt8) : List UInt8 :=
  (compressBlocks initial (pad input) ((pad input).length / 64)).bytes

theorem length_hash (input : List UInt8) : (hash input).length = 32 := rfl

def blockKey (key : List UInt8) : List UInt8 :=
  let short := if 64 < key.length then hash key else key
  short ++ List.replicate (64 - short.length) 0

def hmac (key data : List UInt8) : List UInt8 :=
  hash ((blockKey key).map (· ^^^ 0x5c) ++ hash ((blockKey key).map (· ^^^ 0x36) ++ data))

theorem length_hmac (key data : List UInt8) : (hmac key data).length = 32 := rfl

example : (hash [0x61, 0x62, 0x63]).take 4 = [0xba, 0x78, 0x16, 0xbf] := by decide +kernel

end Sha256
