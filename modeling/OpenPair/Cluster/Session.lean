import OpenPair.Cluster.Info
import OpenPair.Pairing.Peer
import OpenPair.Pairing.Pin
import OpenPair.Pairing.Server

/-! The two sides of a pairing: a machine and the identity captured from it (`session.rs`).

A method that panics has no result; what it had written stays.
-/

set_option autoImplicit false

namespace OpenPair

variable {c : Crates}

/-- The other side's identity with its certificate. -/
structure PeerIdentity where
  info : PairingInfo
  certDer : Bytes
  deriving DecidableEq

structure Step where
  send : Option Bytes := none
  done : Bool := false
  success : Bool := false
  authFailed : Bool := false
  errorCode : Option Int64 := none
  error : Option String := none
  deriving DecidableEq, Repr

def Step.fromOutcome (o : Outcome) : Step :=
  { send := o.send
    done := o.done
    success := o.success
    authFailed := (o.errorCode.map isWrongPinCode).getD false
    errorCode := o.errorCode
    error := o.error }

-- `parse_pairing_info` of a text, as the identity it gives.
variable (c) in
def parseIdentity (raw : String) : Except String PeerIdentity :=
  (parsePairingInfo c (utf8 raw)).map fun parsed => ⟨parsed.1, parsed.2⟩

/-! ## The joiner -/

variable (c) in
structure JoinerSession where
  peer : Peer c
  inviter : Option PeerIdentity := none

namespace JoinerSession

variable (c) in
def new (peerInfo : PairingInfo) : JoinerSession c :=
  { peer := (Peer.new c).withPeerInfo (peerInfo.toJson c) }

def state (s : JoinerSession c) : State := s.peer.state

def inviterAddr (s : JoinerSession c) : Option String := s.inviter.map fun i => i.info.addr

def capture (s : JoinerSession c) : Except String (JoinerSession c) :=
  if s.state = .waiting ∧ s.inviter = none then
    if s.peer.serverInfo.isEmpty then .error "inviter sent no ServerInfo"
    else (parseIdentity c s.peer.serverInfo).map fun i => { s with inviter := some i }
  else .ok s

def onInitial (s : JoinerSession c) (draws : Draws c) (blob : Bytes) :
    JoinerSession c × Option (Except String Bytes) :=
  let received := s.peer.receive draws blob
  let s := { s with peer := received.1 }
  match received.2 with
  | none => (s, none)
  | some out =>
    match out.error with
    | some e => (s, some (.error s!"eap-noob: {e}"))
    | none =>
      match s.capture with
      | .error e => (s, some (.error e))
      | .ok s => (s, some (.ok (out.send.getD [])))

section

variable {s t : JoinerSession c} {p : Peer c} {out : Outcome} {draws : Draws c} {blob : Bytes}

theorem onInitial_eq (received : s.peer.receive draws blob = (p, some out))
    (silent : out.error = none) (captured : ({ s with peer := p } : JoinerSession c).capture = .ok t) :
    s.onInitial draws blob = (t, some (.ok (out.send.getD []))) := by
  simp only [onInitial, received, silent, captured]

theorem capture_keeps (keeps : s.state ≠ .waiting ∨ s.inviter ≠ none) : s.capture = .ok s := by
  refine if_neg fun both => ?_
  exact keeps.elim (fun other => other both.1) (fun some => some both.2)

theorem capture_takes {i : PeerIdentity} (waits : s.state = .waiting) (absent : s.inviter = none)
    (present : s.peer.serverInfo.isEmpty = false)
    (parsed : parseIdentity c s.peer.serverInfo = .ok i) :
    s.capture = .ok { s with inviter := some i } := by
  simp only [capture, waits, absent, present, parsed, and_self, if_true, Bool.false_eq_true,
    if_false, Except.map]

end

def feedPin (s : JoinerSession c) (pin : String) : JoinerSession c × Except String Unit :=
  match oobRefusal s.peer.state s.peer.dirp (noobFromPin pin).bytes with
  | some e => (s, .error e)
  | none => ({ s with peer := (s.peer.oobInputNoob (noobFromPin pin).bytes).1 }, .ok ())

def onCompletion (s : JoinerSession c) (draws : Draws c) (resp : Bytes) :
    JoinerSession c × Option Step :=
  let received := s.peer.receive draws resp
  ({ s with peer := received.1 }, received.2.map Step.fromOutcome)

def association (s : JoinerSession c) : Option Association := s.peer.assoc

end JoinerSession

/-! ## The inviter -/

variable (c) in
structure InviterSession where
  server : Server c
  joiner : Option PeerIdentity := none

namespace InviterSession

variable (c) in
def new (serverInfo : PairingInfo) : InviterSession c :=
  { server := (Server.new c).withServerInfo (serverInfo.toJson c) }

def state (s : InviterSession c) : State := s.server.state

def start (s : InviterSession c) : Bytes := s.server.start

def onInitial (s : InviterSession c) (draws : Draws c) (resp : Bytes) :
    InviterSession c × Option Step :=
  let received := s.server.receive draws resp
  ({ s with server := received.1 }, received.2.map Step.fromOutcome)

def setPin (s : InviterSession c) (pin : String) : InviterSession c × Except String Unit :=
  match oobRefusal s.server.state s.server.dirp (noobFromPin pin).bytes with
  | some e => (s, .error e)
  | none => ({ s with server := (s.server.oobOutputWith (noobFromPin pin).bytes).1 }, .ok ())

def capture (s : InviterSession c) : Except String (InviterSession c) :=
  if s.state = .registered ∧ s.joiner = none then
    if s.server.peerInfo.isEmpty then .error "joiner sent no PeerInfo"
    else (parseIdentity c s.server.peerInfo).map fun j => { s with joiner := some j }
  else .ok s

def onCompletion (s : InviterSession c) (draws : Draws c) (blob : Bytes) :
    InviterSession c × Option (Except String Step) :=
  let received := s.server.receive draws blob
  let s := { s with server := received.1 }
  match received.2 with
  | none => (s, none)
  | some out =>
    match s.capture with
    | .error e => (s, some (.error e))
    | .ok s => (s, some (.ok (Step.fromOutcome out)))

section

variable {s t : InviterSession c} {server : Server c} {out : Outcome} {draws : Draws c}
  {blob : Bytes}

theorem onCompletion_eq (received : s.server.receive draws blob = (server, some out))
    (captured : ({ s with server := server } : InviterSession c).capture = .ok t) :
    s.onCompletion draws blob = (t, some (.ok (Step.fromOutcome out))) := by
  simp only [onCompletion, received, captured]

theorem capture_keeps (keeps : s.state ≠ .registered ∨ s.joiner ≠ none) : s.capture = .ok s := by
  refine if_neg fun both => ?_
  exact keeps.elim (fun other => other both.1) (fun some => some both.2)

theorem capture_takes {j : PeerIdentity} (registered : s.state = .registered)
    (absent : s.joiner = none) (present : s.server.peerInfo.isEmpty = false)
    (parsed : parseIdentity c s.server.peerInfo = .ok j) :
    s.capture = .ok { s with joiner := some j } := by
  simp only [capture, registered, absent, present, parsed, and_self, if_true, Bool.false_eq_true,
    if_false, Except.map]

end

def association (s : InviterSession c) : Option Association := s.server.assoc

end InviterSession

end OpenPair
