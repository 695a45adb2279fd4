import OpenPair.Pairing.Kdf
import OpenPair.Pairing.Mac
import OpenPair.Pairing.Suite

/-! What the two EAP-NOOB machines of `machine.rs` share: states, outcomes, the
accumulated method fields and the message helpers.

A call that panics has no outcome; the fields written before the panic stay.
-/

set_option autoImplicit false

namespace OpenPair

namespace ErrorCode

def invalidData : Int64 := 1003
def unexpectedPeerId : Int64 := 2001
def stateMismatch : Int64 := 2002
def unrecognizedOobMsgId : Int64 := 2003
def unsupportedVersion : Int64 := 3001
def unsupportedCryptosuite : Int64 := 3002
def noMutualOob : Int64 := 3003
def hmacVerificationFailed : Int64 := 4001

end ErrorCode

def isWrongPinCode (code : Int64) : Bool :=
  code == ErrorCode.unrecognizedOobMsgId || code == ErrorCode.hmacVerificationFailed

inductive State where
  | unregistered
  | waiting
  | oobReceived
  | reconnecting
  | registered
  deriving DecidableEq, Repr

/-- `state as i64`. -/
def State.code : State → Int64
  | .unregistered => 0
  | .waiting => 1
  | .oobReceived => 2
  | .reconnecting => 3
  | .registered => 4

structure Outcome where
  send : Option Bytes := none
  done : Bool := false
  success : Bool := false
  error : Option String := none
  errorCode : Option Int64 := none
  deriving DecidableEq, Repr

structure Association where
  peerId : String
  nai : String
  cryptosuitep : UInt8
  kz : ByteArr 32
  deriving DecidableEq

def defaultNai : String := "noob@eap-noob.arpa"

variable (c : Crates)

/-- Accumulated verbatim fields feeding the MAC and Hoob arrays. -/
structure Method where
  suite : Option Suite := none
  keypair : Option (KeyPair c) := none
  peerId : String := ""
  nai : String := ""
  z : Bytes := []
  ns : Bytes := []
  np : Bytes := []
  noob : Bytes := []
  noobB64Json : String := ""
  noobId : ByteArr 16 := .zeros 16
  keym : Option DerivedKeys := none
  inp : MacInputs := {}

variable {c}

def Method.setNoob (m : Method c) (noob : Bytes) : Method c :=
  let json := c.jsonStr (c.b64Encode noob)
  { m with
    noob := noob
    noobB64Json := json
    inp := { m.inp with noob := json }
    noobId := computeNoobId c json }

def Method.keys (m : Method c) : DerivedKeys :=
  deriveCompletion c m.z m.np m.ns m.noob

def Method.derive (m : Method c) : Method c :=
  { m with keym := some m.keys }

variable (c)

/-! ## Message helpers -/

-- `raw`, a panic where the text is no JSON.
def raw (s : String) : Option String := c.rawFromString s

def jstr (s : String) : String := c.jsonStr s

def get (r : Option String) : String := r.getD ""

def parseStr (r : Option String) : Option String := r.bind c.readStr

def parseInt (r : Option String) : Option Int64 := r.bind c.readInt

def parseInts (r : Option String) : Option (List Int64) := r.bind c.readInts

-- A base64url member: `parse_str` and `unb64`, empty where either fails.
def parseB64 (r : Option String) : Option Bytes := (parseStr c r).bind c.b64Decode

def errBytes (code : Int64) (info : String) : Bytes :=
  c.encodeWire { type := some 0, errorCode := some code, errorInfo := some info }

def resultBytes (kind : String) : Bytes :=
  c.encodeWire { eap := some kind }

def sendWire (w : Wire) : Outcome := { send := some (c.encodeWire w) }

def failCode (code : Int64) (info : String) : Outcome :=
  { send := some (errBytes c code info), done := true, error := some info, errorCode := some code }

def fail (info : String) : Outcome := failCode c ErrorCode.invalidData info

def peerErrorMsg (code : Int64) (info : Option String) : String :=
  match info with
  | some s => if s.isEmpty then s!"peer error {code}" else s!"peer error {code}: {s}"
  | none => s!"peer error {code}"

def peerError (code : Int64) (info : Option String) : Outcome :=
  { done := true, error := some (peerErrorMsg code info), errorCode := some code }

def newPeerId (draws : Draws c) : String := c.b64Encode draws.peerId.bytes

-- The error of `oob_output_with` and `oob_input_noob`, `none` where they accept.
def oobRefusal (state : State) (dirp : Int64) (noob : Bytes) : Option String :=
  if state ≠ .waiting then some "OOB requires Waiting state"
  else if ¬ (dirp = 2 ∨ dirp = 3) then some "server-to-peer OOB not negotiated"
  else if noob.length ≠ 16 then some "Noob must be 16 bytes"
  else none

theorem oobRefusal_eq_none (state : State) (dirp : Int64) (noob : Bytes) :
    oobRefusal state dirp noob = none ↔
      state = .waiting ∧ (dirp = 2 ∨ dirp = 3) ∧ noob.length = 16 := by
  unfold oobRefusal
  split
  · next other => exact iff_of_false (by simp) fun holds => other holds.1
  · next waits =>
    split
    · next other => exact iff_of_false (by simp) fun holds => other holds.2.1
    · next direction =>
      split
      · next short => exact iff_of_false (by simp) fun holds => short holds.2.2
      · next long =>
        exact iff_of_true rfl ⟨not_not.mp waits, not_not.mp direction, not_not.mp long⟩

def ensureObj (s : String) : String :=
  if s.isEmpty then "{}" else s

/-! ## Negotiation choices -/

/-- `c as u8`. -/
def asU8 (id : Int64) : UInt8 := id.toUInt64.toUInt8

def bestVersion (server peer : List Int64) : Option Int64 :=
  server.foldl (fun best v =>
    if peer.contains v && (best.map fun b => decide (b ≤ v)).getD true then some v else best) none

def firstSupported (server peer : List Int64) : Option Int64 :=
  server.find? fun id => peer.contains id && (Suite.fromId (asU8 id)).isSome

def chooseDir (serverDirs prefer : Int64) : Option Int64 :=
  if serverDirs = 1 then some 1
  else if serverDirs = 2 then some 2
  else if serverDirs = 3 then some (if prefer = 1 ∨ prefer = 2 then prefer else 2)
  else none

/-! ## Outcomes that grant nothing -/

/-- No outcome, or one that does not report success. -/
def Quiet (out : Option Outcome) : Prop := ∀ o, out = some o → o.success = false

@[simp] theorem quiet_none : Quiet none := by simp [Quiet]

@[simp] theorem quiet_some (o : Outcome) : Quiet (some o) ↔ o.success = false := by
  simp [Quiet]

@[simp] theorem fail_success (info : String) : (fail c info).success = false := rfl

@[simp] theorem failCode_success (code : Int64) (info : String) :
    (failCode c code info).success = false := rfl

@[simp] theorem sendWire_success (w : Wire) : (sendWire c w).success = false := rfl

@[simp] theorem peerError_success (code : Int64) (info : Option String) :
    (peerError code info).success = false := rfl

theorem quiet_sendWire (built : Option Wire) : Quiet (built.map (sendWire c)) := by
  cases built <;> simp

end OpenPair
