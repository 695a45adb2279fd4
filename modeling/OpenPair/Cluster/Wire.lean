import OpenPair.Lawful

/-! The envelope of the pairing channel (`wire.rs`). -/

set_option autoImplicit false

namespace OpenPair

namespace Phase

def initial : String := "initial"
def completion : String := "completion"
def cancel : String := "cancel"
def decline : String := "decline"
def fail : String := "fail"
def ack : String := "ack"
def expired : String := "expired"

end Phase

namespace Reason

def incorrectPin : String := "incorrect-pin"
def alreadyClustered : String := "already-clustered"

end Reason

structure PairingEnvelope where
  inviteId : String := ""
  phase : String := ""
  msg : String := ""
  rejected : Bool := false
  reason : String := ""
  deriving DecidableEq, Repr

variable (c : Crates)

def encodeMsg (blob : Bytes) : String := c.stdEncode blob

def decodeMsg (s : String) : Option Bytes := c.stdDecode s

namespace PairingEnvelope

def withMsg (inviteId phase : String) (blob : Bytes) : PairingEnvelope :=
  { inviteId := inviteId, phase := phase, msg := encodeMsg c blob }

def signal (inviteId phase reason : String) : PairingEnvelope :=
  { inviteId := inviteId, phase := phase, reason := reason }

-- `rejected`, a refusal with its reason.
def refusal (reason : String) : PairingEnvelope := { rejected := true, reason := reason }

-- The carried blob, empty where `msg` is empty or no base64.
def blob (env : PairingEnvelope) : Bytes :=
  if env.msg.isEmpty then [] else (decodeMsg c env.msg).getD []

variable {c}

theorem blob_withMsg (lawful : c.Lawful) (inviteId phase : String) (b : Bytes) :
    (withMsg c inviteId phase b).blob c = b := by
  have decoded : decodeMsg c (withMsg c inviteId phase b).msg = some b := lawful.std b
  unfold blob
  split
  · next empty =>
    -- The empty text is what no bytes are encoded as.
    have none := lawful.std []
    rw [lawful.std_empty] at none
    rw [String.isEmpty_iff.mp empty, decodeMsg, none] at decoded
    exact Option.some.inj decoded
  · rw [decoded, Option.getD_some]

end PairingEnvelope

end OpenPair
