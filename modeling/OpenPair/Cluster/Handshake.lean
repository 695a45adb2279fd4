import OpenPair.Cluster.Session
import OpenPair.Pairing.Exchange

/-! An exchange of two sessions whose nodes have valid identities.

Each call of a session is the step of its machine in the exchange; the
identities are taken at the end of the Initial Exchange by the joiner and with
the verified MACp by the inviter.
-/

set_option autoImplicit false

namespace OpenPair

variable {c : Crates}

variable (c) in
structure Handshake extends Exchange c where
  inviter : PeerIdentity
  joiner : PeerIdentity
  serverInfo_eq : serverInfo = inviter.info.toJson c
  peerInfo_eq : peerInfo = joiner.info.toJson c
  inviterValid : inviter.info.Valid c inviter.certDer
  joinerValid : joiner.info.Valid c joiner.certDer

namespace Handshake

variable (x : Handshake c)

def freshInviter : InviterSession c := .new c x.inviter.info

def freshJoiner : JoinerSession c := .new c x.joiner.info

def inviting (server : Server c) : InviterSession c := { server := server }

def answering (peer : Peer c) : JoinerSession c := { peer := peer }

def joining (peer : Peer c) : JoinerSession c := { peer := peer, inviter := some x.inviter }

def joined (server : Server c) : InviterSession c := { server := server, joiner := some x.joiner }

theorem answering_onInitial {p q : Peer c} {out : Outcome} {draws : Draws c} {blob : Bytes}
    (received : p.receive draws blob = (q, some out)) (silent : out.error = none)
    (early : q.state ≠ .waiting) :
    (answering p).onInitial draws blob = (answering q, some (.ok (out.send.getD []))) :=
  JoinerSession.onInitial_eq (s := answering p) (t := answering q) received silent
    (JoinerSession.capture_keeps (.inl early))

theorem inviting_onCompletion {s t : Server c} {out : Outcome} {draws : Draws c} {blob : Bytes}
    (received : s.receive draws blob = (t, some out)) (early : t.state ≠ .registered) :
    (inviting s).onCompletion draws blob = (inviting t, some (.ok (Step.fromOutcome out))) :=
  InviterSession.onCompletion_eq (s := inviting s) (t := inviting t) received
    (InviterSession.capture_keeps (.inl early))

theorem freshInviter_eq : x.freshInviter = inviting x.serverFresh := by
  rw [freshInviter, InviterSession.new, ← x.serverInfo_eq]
  rfl

theorem freshJoiner_eq : x.freshJoiner = answering x.peerFresh := by
  rw [freshJoiner, JoinerSession.new, ← x.peerInfo_eq]
  rfl

section

variable (lawful : c.Lawful)
include lawful

theorem parse_inviter : parseIdentity c x.serverInfo = .ok x.inviter := by
  rw [parseIdentity, x.serverInfo_eq, parsePairingInfo_toJson lawful x.inviterValid]
  rfl

theorem parse_joiner : parseIdentity c x.peerInfo = .ok x.joiner := by
  rw [parseIdentity, x.peerInfo_eq, parsePairingInfo_toJson lawful x.joinerValid]
  rfl

theorem isEmpty_text {t : String} (text : c.Text t) : t.isEmpty = false := by
  simpa using text.ne_empty lawful

/-! ### The Initial Exchange -/

theorem joiner_discovers (draws : Draws c) :
    (answering x.peerFresh).onInitial draws (c.encodeWire discoveryRequest) =
      (answering x.peerFresh, some (.ok (c.encodeWire x.peerFresh.discoveryResponse))) :=
  answering_onInitial (x.peer_discovers lawful draws) rfl nofun

theorem inviter_offers :
    (inviting x.serverFresh).onInitial x.naming (c.encodeWire x.peerFresh.discoveryResponse) =
      (inviting x.serverOffering,
        some { send := some (c.encodeWire x.serverOffering.negotiationRequest) }) := by
  simp only [InviterSession.onInitial, inviting, x.server_offers lawful]
  rfl

theorem joiner_negotiates (draws : Draws c) :
    (answering x.peerFresh).onInitial draws (c.encodeWire x.serverOffering.negotiationRequest) =
      (answering x.peerNegotiated, some (.ok (c.encodeWire x.negotiationResponse))) :=
  answering_onInitial (x.peer_negotiates lawful draws) rfl nofun

theorem inviter_keys :
    (inviting x.serverOffering).onInitial x.serverDraws (c.encodeWire x.negotiationResponse) =
      (inviting x.serverKeyed,
        some { send := some (c.encodeWire x.serverKeyed.keyExchangeRequest) }) := by
  simp only [InviterSession.onInitial, inviting, x.server_keys lawful]
  rfl

theorem joiner_waits :
    (answering x.peerNegotiated).onInitial x.peerDraws
        (c.encodeWire x.serverKeyed.keyExchangeRequest) =
      (x.joining x.peerWaiting, some (.ok (c.encodeWire x.peerKeyed.keyExchangeResponse))) := by
  refine JoinerSession.onInitial_eq (s := answering x.peerNegotiated) (x.peer_keys lawful) rfl
    (JoinerSession.capture_takes (s := answering x.peerWaiting) rfl rfl ?_ ?_)
  · change x.peerWaiting.serverInfo.isEmpty = false
    rw [x.peerWaiting_serverInfo lawful]
    exact isEmpty_text lawful x.serverText
  · change parseIdentity c x.peerWaiting.serverInfo = .ok x.inviter
    rw [x.peerWaiting_serverInfo lawful]
    exact x.parse_inviter lawful

theorem inviter_waits (draws : Draws c) :
    (inviting x.serverKeyed).onInitial draws (c.encodeWire x.peerKeyed.keyExchangeResponse) =
      (inviting x.serverWaiting,
        some { send := some (resultBytes c "failure"), done := true }) := by
  simp only [InviterSession.onInitial, inviting, x.server_waits lawful]
  rfl

/-! ### The PINs -/

omit lawful in
theorem inviter_arms (pin : String) : (inviting x.serverWaiting).setPin pin =
    (inviting (x.serverArmed (noobFromPin pin).bytes), .ok ()) := by
  have accepts : oobRefusal x.serverWaiting.state x.serverWaiting.dirp (noobFromPin pin).bytes =
      none := (oobRefusal_eq_none _ _ _).mpr ⟨rfl, .inl rfl, (noobFromPin pin).length_eq⟩
  simp only [InviterSession.setPin, inviting, accepts, x.server_arms (noobFromPin pin).length_eq]

omit lawful in
theorem joiner_arms (pin : String) : (x.joining x.peerWaiting).feedPin pin =
    (x.joining (x.peerArmed (noobFromPin pin).bytes), .ok ()) := by
  have accepts : oobRefusal x.peerWaiting.state x.peerWaiting.dirp (noobFromPin pin).bytes =
      none := (oobRefusal_eq_none _ _ _).mpr ⟨rfl, .inl rfl, (noobFromPin pin).length_eq⟩
  simp only [JoinerSession.feedPin, joining, accepts, x.peer_arms (noobFromPin pin).length_eq]

/-! ### The Completion Exchange -/

theorem joiner_resumes (draws : Draws c) (noob : Bytes) :
    (x.joining (x.peerArmed noob)).onCompletion draws (c.encodeWire discoveryRequest) =
      (x.joining (x.peerArmed noob),
        some { send := some (c.encodeWire (x.peerArmed noob).discoveryResponse) }) := by
  simp only [JoinerSession.onCompletion, joining, x.peer_resumes lawful]
  rfl

theorem inviter_resumes (draws : Draws c) {noob bytes : Bytes} {w : Wire}
    (decoded : c.decodeWire bytes = some w) (notice : w.errorCode = none) (type : w.type = some 1)
    (peerState : w.peerState = some 2) (held : noob ≠ []) :
    (inviting (x.serverArmed noob)).onCompletion draws bytes =
      (inviting (x.serverResumed noob w),
        some (.ok { send := some (c.encodeWire (x.serverResumed noob w).noobIdRequest) })) :=
  inviting_onCompletion (x.server_resumes lawful draws decoded notice type peerState held) nofun

theorem joiner_answers (draws : Draws c) (noob : Bytes) (w : Wire) {noob' : Bytes}
    (held : noob' ≠ []) :
    (x.joining (x.peerArmed noob')).onCompletion draws
        (c.encodeWire (x.serverResumed noob w).noobIdRequest) =
      (x.joining (x.peerArmed noob'),
        some { send := some (c.encodeWire (x.peerArmed noob').noobIdResponse) }) := by
  simp only [JoinerSession.onCompletion, joining, x.peer_answers lawful _ _ w held]
  rfl

theorem inviter_matches (draws : Draws c) (noob : Bytes) (w : Wire) :
    (inviting (x.serverResumed noob w)).onCompletion draws
        (c.encodeWire (x.peerArmed noob).noobIdResponse) =
      (inviting (x.serverResumed noob w).derived,
        some (.ok { send := some (c.encodeWire (x.serverResumed noob w).completionRequest) })) :=
  inviting_onCompletion (x.server_matches lawful draws noob w) nofun

/-- A NoobId that does not match is answered with an error notification. -/
theorem inviter_mismatches (draws : Draws c) {noob noob' : Bytes} (w : Wire)
    (differ : computeNoobId c (c.jsonStr (c.b64Encode noob')) ≠
      computeNoobId c (c.jsonStr (c.b64Encode noob))) :
    (inviting (x.serverResumed noob w)).onCompletion draws
        (c.encodeWire (x.peerArmed noob').noobIdResponse) =
      (inviting (x.serverResumed noob w),
        some (.ok (.fromOutcome
          (failCode c ErrorCode.unrecognizedOobMsgId "unrecognized NoobId")))) :=
  inviting_onCompletion (x.server_mismatches lawful draws w differ) nofun

theorem joiner_refused (draws : Draws c) (noob : Bytes) :
    (x.joining (x.peerArmed noob)).onCompletion draws
        (errBytes c ErrorCode.unrecognizedOobMsgId "unrecognized NoobId") =
      (x.joining (x.peerArmed noob), some (.fromOutcome
        (peerError ErrorCode.unrecognizedOobMsgId (some "unrecognized NoobId")))) := by
  simp only [JoinerSession.onCompletion, joining, x.peer_refused lawful]
  rfl

theorem joiner_verifies (draws : Draws c) {noob : Bytes} (w : Wire) (held : noob ≠ []) :
    (x.joining (x.peerArmed noob)).onCompletion draws
        (c.encodeWire (x.serverResumed noob w).completionRequest) =
      (x.joining (x.peerArmed noob).derived,
        some { send := some (c.encodeWire (x.peerArmed noob).completionResponse) }) := by
  simp only [JoinerSession.onCompletion, joining, x.peer_verifies lawful _ w held]
  rfl

theorem inviter_registers (draws : Draws c) (noob : Bytes) (w : Wire) :
    (inviting (x.serverResumed noob w).derived).onCompletion draws
        (c.encodeWire (x.peerArmed noob).completionResponse) =
      (x.joined (x.serverRegistered noob w),
        some (.ok { send := some (resultBytes c "success"), done := true, success := true })) := by
  refine InviterSession.onCompletion_eq (s := inviting (x.serverResumed noob w).derived)
    (x.server_registers lawful draws noob w)
    (InviterSession.capture_takes (s := inviting (x.serverRegistered noob w)) rfl rfl ?_ ?_)
  · change (x.serverRegistered noob w).peerInfo.isEmpty = false
    rw [x.registered_peerInfo lawful]
    exact isEmpty_text lawful x.peerText
  · change parseIdentity c (x.serverRegistered noob w).peerInfo = .ok x.joiner
    rw [x.registered_peerInfo lawful]
    exact x.parse_joiner lawful

theorem inviter_registers_again (draws : Draws c) (noob : Bytes) (w : Wire) :
    (x.joined (x.serverRegistered noob w)).onCompletion draws
        (c.encodeWire (x.peerArmed noob).completionResponse) =
      (x.joined (x.serverRegistered noob w),
        some (.ok { send := some (resultBytes c "success"), done := true, success := true })) :=
  InviterSession.onCompletion_eq (s := x.joined _) (x.server_registers_again lawful draws noob w)
    (InviterSession.capture_keeps (.inr (Option.some_ne_none x.joiner)))

theorem joiner_registers (draws : Draws c) (noob : Bytes) :
    (x.joining (x.peerArmed noob).derived).onCompletion draws (resultBytes c "success") =
      (x.joining (x.peerRegistered noob), some { done := true, success := true }) := by
  simp only [JoinerSession.onCompletion, joining, x.peer_registers lawful]
  rfl

/-! ### Another inviter -/

-- The same handshake with another inviter in the place of the first.
def withInviter (i : PeerIdentity) (valid : i.info.Valid c i.certDer) : Handshake c :=
  { x with
    serverInfo := i.info.toJson c
    serverText := lawful.text_info i.info
    inviter := i
    serverInfo_eq := rfl
    inviterValid := valid }

/-- A joiner that holds one inviter's identity renegotiates with another and keeps the first. -/
theorem joiner_renegotiates (draws : Draws c) (i : PeerIdentity) (valid : i.info.Valid c i.certDer) :
    (x.joining x.peerWaiting).onInitial draws
        (c.encodeWire (x.withInviter lawful i valid).serverOffering.negotiationRequest) =
      (x.joining (x.peerWaiting.negotiated
          (x.withInviter lawful i valid).serverOffering.negotiationRequest
          (newPeerId c x.naming) 1 2 2),
        some (.ok (c.encodeWire (x.withInviter lawful i valid).negotiationResponse))) := by
  have negotiates := (x.withInviter lawful i valid).negotiates_offer lawful
    (p := x.peerWaiting) rfl rfl rfl
  exact JoinerSession.onInitial_eq (s := x.joining x.peerWaiting)
    (Peer.receive_negotiates lawful ((x.withInviter lawful i valid).decode_offer lawful) rfl rfl rfl
      negotiates x.peerText) rfl (JoinerSession.capture_keeps (.inr nofun))

theorem joiner_rekeys (i : PeerIdentity) (valid : i.info.Valid c i.certDer) :
    (x.joining (x.peerWaiting.negotiated
          (x.withInviter lawful i valid).serverOffering.negotiationRequest
          (newPeerId c x.naming) 1 2 2)).onInitial x.peerDraws
        (c.encodeWire (x.withInviter lawful i valid).serverKeyed.keyExchangeRequest) =
      (x.joining (x.withInviter lawful i valid).peerWaiting,
        some (.ok (c.encodeWire (x.withInviter lawful i valid).peerKeyed.keyExchangeResponse))) := by
  refine JoinerSession.onInitial_eq (s := x.joining _)
    (t := x.joining (x.withInviter lawful i valid).peerWaiting)
    (Peer.receive_exchanges lawful ((x.withInviter lawful i valid).decode_serverKey lawful)
      rfl rfl rfl ((x.withInviter lawful i valid).exchanges_key lawful rfl)) rfl
    (JoinerSession.capture_keeps (.inr nofun))

end

end Handshake

/-! ## The handshake of the reference parties -/

namespace Reference

theorem valid {certificate : Certificate} (known : certificate ∈ certificates)
    (name clusterId addr : String) :
    (info certificate name clusterId addr).Valid crates certificate.der where
  nodeUuid := by
    change certificate.nodeUuid.isEmpty = false
    simp only [certificates, List.mem_cons, List.not_mem_nil, or_false] at known
    rcases known with rfl | rfl | rfl <;> decide
  cert := by
    simp only [certificates, List.mem_cons, List.not_mem_nil, or_false] at known
    rcases known with rfl | rfl | rfl <;> exact pemCertToDer_pem (List.cons_ne_nil _ _)
  principal := principal (found known)
  admissionEpoch := (by decide : (1 : UInt64) ≠ 0)

def inviter : PeerIdentity := ⟨inviterInfo, inviterCertificate.der⟩

def joiner : PeerIdentity := ⟨joinerInfo, joinerCertificate.der⟩

def stranger : PeerIdentity := ⟨strangerInfo, strangerCertificate.der⟩

theorem stranger_valid : stranger.info.Valid crates stranger.certDer :=
  valid (by simp [certificates]) _ _ _

def handshake : Handshake crates :=
  { exchange with
    inviter := inviter
    joiner := joiner
    serverInfo_eq := rfl
    peerInfo_eq := rfl
    inviterValid := valid (by simp [certificates]) _ _ _
    joinerValid := valid (by simp [certificates]) _ _ _ }

end Reference

end OpenPair
