import OpenPair.Pairing.Completion
import OpenPair.Pairing.Pin
import OpenPair.Reference

/-! An exchange of two machines that follow the protocol over a faithful relay.

The states along it are the update functions of the machines applied in order.
The discovery of the Completion Exchange is kept open: nothing authenticates it.
-/

set_option autoImplicit false

namespace OpenPair

open Transition

variable {c : Crates}

variable (c) in
/-- What the two sides bring to an exchange: their texts, what they draw, and
the secret on which their P-256 keys agree. -/
structure Exchange where
  serverInfo : String
  serverText : c.Text serverInfo
  peerInfo : String
  peerText : c.Text peerInfo
  naming : Draws c
  serverDraws : Draws c
  peerDraws : Draws c
  z : Bytes
  serverAgrees : (Suite.p256.generate serverDraws).computeZ
    (Suite.p256.generate peerDraws).publicJwk = some z
  peerAgrees : (Suite.p256.generate peerDraws).computeZ
    (Suite.p256.generate serverDraws).publicJwk = some z

namespace Exchange

variable (x : Exchange c)

def serverFresh : Server c := (Server.new c).withServerInfo x.serverInfo

def peerFresh : Peer c := (Peer.new c).withPeerInfo x.peerInfo

def serverOffering : Server c :=
  (x.serverFresh.heard x.peerFresh.discoveryResponse).offered x.naming

def peerNegotiated : Peer c :=
  x.peerFresh.negotiated x.serverOffering.negotiationRequest (newPeerId c x.naming) 1 2 2

def negotiationResponse : Wire :=
  x.peerFresh.negotiationResponse (newPeerId c x.naming) 1 2 2

def serverKeyed : Server c :=
  (x.serverOffering.negotiated x.negotiationResponse 2 2).keyed .p256 x.serverDraws

def peerKeyed : Peer c :=
  x.peerNegotiated.exchanged x.serverKeyed.keyExchangeRequest .p256 x.peerDraws x.z
    x.serverDraws.nonce.bytes

def peerWaiting : Peer c := { x.peerKeyed with state := .waiting }

def serverWaiting : Server c :=
  x.serverKeyed.exchanged x.peerKeyed.keyExchangeResponse x.z x.peerDraws.nonce.bytes

def serverArmed (noob : Bytes) : Server c :=
  { x.serverWaiting with m := x.serverWaiting.m.setNoob noob }

def peerArmed (noob : Bytes) : Peer c :=
  { x.peerWaiting with m := x.peerWaiting.m.setNoob noob, state := .oobReceived }

/-- The Server after it heard this message at the start of the Completion Exchange. -/
def serverResumed (noob : Bytes) (w : Wire) : Server c := (x.serverArmed noob).heard w

def serverRegistered (noob : Bytes) (w : Wire) : Server c :=
  (x.serverResumed noob w).derived.registered (x.serverArmed noob).m.keys

def peerRegistered (noob : Bytes) : Peer c := (x.peerArmed noob).derived.registered

/-! ### The Initial Exchange -/

/-- A fresh Server answers a fresh Peer with a negotiation, not a completion. -/
theorem fresh_restarts :
    (x.serverFresh.heard x.peerFresh.discoveryResponse).RestartsNegotiation := by
  refine ⟨?_, ?_, ?_⟩ <;>
    simp [Server.ResumesCompletion, Server.heard, serverFresh, Server.withServerInfo, Server.new,
      State.code, Peer.discoveryResponse, peerFresh, Peer.withPeerInfo, Peer.new]

section

variable (lawful : c.Lawful)
include lawful

theorem decode_fresh : c.decodeWire (c.encodeWire x.peerFresh.discoveryResponse) =
    some x.peerFresh.discoveryResponse := by
  refine lawful.wire _ ?_
  have nai := lawful.text_jstr x.peerFresh.m.nai
  simpa [Peer.discoveryResponse, Wire.raws, peerFresh, Peer.withPeerInfo, Peer.new] using nai

theorem offer_texts (t : String) (member : some t ∈ x.serverOffering.negotiationRequest.raws) :
    c.Text t := by
  revert t
  simp only [Server.negotiationRequest, serverOffering, Server.offered, Server.heard, serverFresh,
    Server.withServerInfo, Wire.raws]
  simp [lawful.text_ints, lawful.text_int, lawful.text_jstr, x.serverText]

theorem decode_offer : c.decodeWire (c.encodeWire x.serverOffering.negotiationRequest) =
    some x.serverOffering.negotiationRequest :=
  lawful.wire _ (x.offer_texts lawful)

theorem decode_negotiation : c.decodeWire (c.encodeWire x.negotiationResponse) =
    some x.negotiationResponse := by
  refine lawful.wire _ ?_
  simp only [negotiationResponse, Peer.negotiationResponse, peerFresh, Peer.withPeerInfo, Wire.raws]
  simp [lawful.text_int, lawful.text_jstr, x.peerText]

theorem serverKey_texts (t : String) (member : some t ∈ x.serverKeyed.keyExchangeRequest.raws) :
    c.Text t := by
  revert t
  simp only [Server.keyExchangeRequest, serverKeyed, Server.keyed, Wire.raws]
  simp [lawful.text_jwk, lawful.text_jstr]

theorem decode_serverKey : c.decodeWire (c.encodeWire x.serverKeyed.keyExchangeRequest) =
    some x.serverKeyed.keyExchangeRequest :=
  lawful.wire _ (x.serverKey_texts lawful)

theorem decode_peerKey : c.decodeWire (c.encodeWire x.peerKeyed.keyExchangeResponse) =
    some x.peerKeyed.keyExchangeResponse := by
  refine lawful.wire _ ?_
  simp only [Peer.keyExchangeResponse, peerKeyed, Peer.exchanged, Wire.raws]
  simp [lawful.text_jwk, lawful.text_jstr]

theorem server_offers : x.serverFresh.receive x.naming
      (c.encodeWire x.peerFresh.discoveryResponse) =
    (x.serverOffering, some (sendWire c x.serverOffering.negotiationRequest)) := by
  exact Server.receive_restarts lawful (x.decode_fresh lawful) rfl rfl x.fresh_restarts x.serverText

theorem negotiates_offer {p : Peer c} (versions : p.versions = [1])
    (suites : p.cryptosuites = [1, 2]) (preferDir : p.preferDir = 2) :
    p.Negotiates x.serverOffering.negotiationRequest (newPeerId c x.naming) 1 2 2 := by
  refine ⟨lawful.parseStr_jstr _, ?_, ?_, ?_⟩
  · rw [show x.serverOffering.negotiationRequest.vers = some (c.jsonInts [1]) from rfl,
      lawful.parseInts_jsonInts, versions]
    rfl
  · rw [show x.serverOffering.negotiationRequest.cryptosuites = some (c.jsonInts [2, 1]) from rfl,
      lawful.parseInts_jsonInts, suites]
    rfl
  · rw [show x.serverOffering.negotiationRequest.dirs = some (toString (2 : Int64)) from rfl,
      lawful.parseInt_toString, preferDir]
    rfl

theorem peer_negotiates (draws : Draws c) :
    x.peerFresh.receive draws (c.encodeWire x.serverOffering.negotiationRequest) =
      (x.peerNegotiated, some (sendWire c x.negotiationResponse)) :=
  Peer.receive_negotiates lawful (x.decode_offer lawful) rfl rfl rfl
    (x.negotiates_offer lawful rfl rfl rfl) x.peerText

theorem negotiates_answer {s : Server c} (versions : s.versions = [1])
    (suites : s.cryptosuites = [2, 1]) (dirs : s.dirs = 2)
    (named : s.m.peerId = newPeerId c x.naming) : s.Negotiates x.negotiationResponse 2 2 := by
  have verp : parseInt c x.negotiationResponse.verp = some 1 := lawful.parseInt_toString 1
  have csp : parseInt c x.negotiationResponse.cryptosuitep = some 2 := lawful.parseInt_toString 2
  have dirp : parseInt c x.negotiationResponse.dirp = some 2 := lawful.parseInt_toString 2
  refine ⟨Server.checkPeerId_named lawful (congrArg (fun name => some (jstr c name)) named.symm), ?_, ?_,
    ?_, ?_, ?_, by decide⟩
  · rw [verp, versions]
    rfl
  · rw [csp]
    rfl
  · rw [suites]
    rfl
  · rw [dirp]
    rfl
  · rw [dirs]
    decide

theorem server_keys : x.serverOffering.receive x.serverDraws (c.encodeWire x.negotiationResponse) =
    (x.serverKeyed, some (sendWire c x.serverKeyed.keyExchangeRequest)) :=
  Server.receive_negotiates lawful (x.decode_negotiation lawful) rfl rfl
    (x.negotiates_answer lawful rfl rfl rfl rfl) (by decide)

theorem exchanges_key {p : Peer c} (chosen : p.m.suite = some .p256) :
    p.Exchanges x.peerDraws x.serverKeyed.keyExchangeRequest .p256 x.z
      x.serverDraws.nonce.bytes := by
  refine ⟨chosen, lawful.parseB64_jstr _, ?_⟩
  rw [show get x.serverKeyed.keyExchangeRequest.pks =
    c.jsonJwk (Suite.p256.generate x.serverDraws).publicJwk from rfl, lawful.jwk]
  exact x.peerAgrees

theorem peer_keys : x.peerNegotiated.receive x.peerDraws
      (c.encodeWire x.serverKeyed.keyExchangeRequest) =
    (x.peerWaiting, some (sendWire c x.peerKeyed.keyExchangeResponse)) :=
  Peer.receive_exchanges lawful (x.decode_serverKey lawful) rfl rfl rfl
    (x.exchanges_key lawful rfl)

theorem exchanges_peerKey {s : Server c} (named : s.m.peerId = x.serverKeyed.m.peerId)
    (held : s.m.keypair = some (Suite.p256.generate x.serverDraws)) :
    s.Exchanges x.peerKeyed.keyExchangeResponse (Suite.p256.generate x.serverDraws) x.z
      x.peerDraws.nonce.bytes := by
  refine ⟨Server.checkPeerId_named lawful (congrArg (fun name => some (jstr c name)) named.symm), held, ?_,
    lawful.parseB64_jstr _⟩
  rw [show get x.peerKeyed.keyExchangeResponse.pkp =
    c.jsonJwk (Suite.p256.generate x.peerDraws).publicJwk from rfl, lawful.jwk]
  exact x.serverAgrees

theorem server_waits (draws : Draws c) :
    x.serverKeyed.receive draws (c.encodeWire x.peerKeyed.keyExchangeResponse) =
      (x.serverWaiting, some { send := some (resultBytes c "failure"), done := true }) :=
  Server.receive_exchanges (x.decode_peerKey lawful) rfl rfl
    (x.exchanges_peerKey lawful rfl rfl)

theorem serverWaiting_nai : x.serverWaiting.m.nai = defaultNai := by
  have read : parseStr c x.peerFresh.discoveryResponse.nai = some defaultNai :=
    lawful.parseStr_jstr _
  change (x.serverFresh.heard x.peerFresh.discoveryResponse).m.nai = defaultNai
  simp only [Server.heard, read, Option.getD_some]
  decide

/-- Each side builds the transcript by its own route; the two are one. -/
theorem transcripts_equal : x.serverWaiting.m.inp = x.peerWaiting.m.inp := by
  have serverInfo : ensureObj x.serverInfo = x.serverInfo := by
    simp [ensureObj, x.serverText.ne_empty lawful]
  have peerInfo : ensureObj x.peerInfo = x.peerInfo := by
    simp [ensureObj, x.peerText.ne_empty lawful]
  have nai : x.serverWaiting.m.inp.nai = jstr c defaultNai :=
    congrArg (jstr c) (x.serverWaiting_nai lawful)
  have left : x.serverWaiting.m.inp.peerInfo = ensureObj x.peerInfo := rfl
  have right : x.peerWaiting.m.inp.serverInfo = ensureObj x.serverInfo := rfl
  rw [peerInfo] at left
  rw [serverInfo] at right
  -- The other members are copied from the message that carried them.
  exact MacInputs.ext rfl rfl rfl rfl rfl right.symm rfl rfl nai left rfl rfl rfl rfl rfl

/-! ### The Completion Exchange -/

theorem peer_resumes (draws : Draws c) (noob : Bytes) :
    (x.peerArmed noob).receive draws (c.encodeWire discoveryRequest) =
      (x.peerArmed noob, some (sendWire c (x.peerArmed noob).discoveryResponse)) :=
  Peer.receive_discovery lawful (decode_discoveryRequest lawful) rfl rfl rfl

theorem decode_resumed (noob : Bytes) :
    c.decodeWire (c.encodeWire (x.peerArmed noob).discoveryResponse) =
      some (x.peerArmed noob).discoveryResponse :=
  (x.peerArmed noob).decode_discoveryResponse lawful

theorem server_resumes (draws : Draws c) {noob bytes : Bytes} {w : Wire}
    (decoded : c.decodeWire bytes = some w) (notice : w.errorCode = none) (type : w.type = some 1)
    (peerState : w.peerState = some 2) (held : noob ≠ []) :
    (x.serverArmed noob).receive draws bytes =
      (x.serverResumed noob w, some (sendWire c (x.serverResumed noob w).noobIdRequest)) := by
  refine Server.receive_resumes lawful decoded notice type (.inr ⟨?_, .inl rfl⟩) held peerState
  rw [Server.heard, peerState]
  rfl

theorem peer_answers (draws : Draws c) (noob : Bytes) (w : Wire) {noob' : Bytes} (held : noob' ≠ []) :
    (x.peerArmed noob').receive draws (c.encodeWire (x.serverResumed noob w).noobIdRequest) =
      (x.peerArmed noob', some (sendWire c (x.peerArmed noob').noobIdResponse)) :=
  Peer.receive_noobId lawful ((x.serverResumed noob w).decode_noobIdRequest lawful) rfl rfl rfl held

theorem decode_noobId (noob : Bytes) :
    c.decodeWire (c.encodeWire (x.peerArmed noob).noobIdResponse) =
      some (x.peerArmed noob).noobIdResponse :=
  (x.peerArmed noob).decode_noobIdResponse lawful

theorem matchesNoobId_iff (noob noob' : Bytes) (w : Wire) :
    (x.serverResumed noob w).MatchesNoobId (x.peerArmed noob').noobIdResponse ↔
      computeNoobId c (c.jsonStr (c.b64Encode noob')) =
        computeNoobId c (c.jsonStr (c.b64Encode noob)) := by
  have sent : parseB64 c (x.peerArmed noob').noobIdResponse.noobId =
      some (computeNoobId c (c.jsonStr (c.b64Encode noob'))).bytes := lawful.parseB64_jstr _
  rw [Server.MatchesNoobId, sent, Option.getD_some]
  exact ⟨fun same => ByteArr.ext same, fun same => congrArg ByteArr.bytes same⟩

theorem server_mismatches (draws : Draws c) {noob noob' : Bytes} (w : Wire)
    (differ : computeNoobId c (c.jsonStr (c.b64Encode noob')) ≠
      computeNoobId c (c.jsonStr (c.b64Encode noob))) :
    (x.serverResumed noob w).receive draws (c.encodeWire (x.peerArmed noob').noobIdResponse) =
      (x.serverResumed noob w,
        some (failCode c ErrorCode.unrecognizedOobMsgId "unrecognized NoobId")) :=
  Server.receive_mismatches (x.decode_noobId lawful noob') rfl rfl (Server.checkPeerId_named lawful rfl)
    (fun same => differ ((x.matchesNoobId_iff lawful noob noob' w).mp same))

theorem peer_refused (draws : Draws c) (noob : Bytes) :
    (x.peerArmed noob).receive draws
        (errBytes c ErrorCode.unrecognizedOobMsgId "unrecognized NoobId") =
      (x.peerArmed noob,
        some (peerError ErrorCode.unrecognizedOobMsgId (some "unrecognized NoobId"))) :=
  Peer.receive_notice (lawful.wire _ (by simp [Wire.raws])) rfl rfl

theorem armed_inp (noob : Bytes) : (x.serverArmed noob).m.inp = (x.peerArmed noob).m.inp := by
  simp only [serverArmed, peerArmed, Method.setNoob, x.transcripts_equal lawful]

theorem concordant (noob : Bytes) (w : Wire) :
    Concordant (x.serverResumed noob w) (x.peerArmed noob) :=
  ⟨rfl, rfl, rfl, x.armed_inp lawful noob⟩

theorem server_matches (draws : Draws c) (noob : Bytes) (w : Wire) :
    (x.serverResumed noob w).receive draws (c.encodeWire (x.peerArmed noob).noobIdResponse) =
      ((x.serverResumed noob w).derived,
        some (sendWire c (x.serverResumed noob w).completionRequest)) :=
  (x.concordant lawful noob w).server_matches lawful draws

theorem macs_verify {noob : Bytes} (w : Wire) (held : noob ≠ []) :
    (x.peerArmed noob).Verifies (x.serverResumed noob w).completionRequest :=
  (x.concordant lawful noob w).macs_verify lawful held

theorem peer_verifies (draws : Draws c) {noob : Bytes} (w : Wire) (held : noob ≠ []) :
    (x.peerArmed noob).receive draws (c.encodeWire (x.serverResumed noob w).completionRequest) =
      ((x.peerArmed noob).derived, some (sendWire c (x.peerArmed noob).completionResponse)) :=
  (x.concordant lawful noob w).peer_verifies lawful draws held

theorem decode_macp (noob : Bytes) :
    c.decodeWire (c.encodeWire (x.peerArmed noob).completionResponse) =
      some (x.peerArmed noob).completionResponse :=
  (x.peerArmed noob).decode_completionResponse lawful

theorem macp_verifies (noob : Bytes) (w : Wire) :
    (x.serverResumed noob w).derived.Verifies (x.peerArmed noob).completionResponse
      (x.serverArmed noob).m.keys :=
  (x.concordant lawful noob w).macp_verifies lawful

theorem server_registers (draws : Draws c) (noob : Bytes) (w : Wire) :
    (x.serverResumed noob w).derived.receive draws
        (c.encodeWire (x.peerArmed noob).completionResponse) =
      (x.serverRegistered noob w,
        some { send := some (resultBytes c "success"), done := true, success := true }) :=
  (x.concordant lawful noob w).server_registers lawful draws

/-- A Registered Server takes the same MACp once more. -/
theorem server_registers_again (draws : Draws c) (noob : Bytes) (w : Wire) :
    (x.serverRegistered noob w).receive draws
        (c.encodeWire (x.peerArmed noob).completionResponse) =
      (x.serverRegistered noob w,
        some { send := some (resultBytes c "success"), done := true, success := true }) :=
  Server.receive_verifies (x.decode_macp lawful noob) rfl rfl
    { peerId := (x.macp_verifies lawful noob w).peerId
      cached := rfl
      macp := (x.macp_verifies lawful noob w).macp }

theorem peer_registers (draws : Draws c) (noob : Bytes) :
    (x.peerArmed noob).derived.receive draws (resultBytes c "success") =
      (x.peerRegistered noob, some { done := true, success := true }) :=
  Peer.receive_success (lawful.wire _ (by simp [Wire.raws])) rfl

end

/-! ### Where it ends -/

theorem registered_kz (noob : Bytes) (w : Wire) :
    (x.serverRegistered noob w).assoc.map Association.kz =
      (x.peerRegistered noob).assoc.map Association.kz := rfl

theorem registered_peerInfo (lawful : c.Lawful) (noob : Bytes) (w : Wire) :
    (x.serverRegistered noob w).peerInfo = x.peerInfo := by
  change ensureObj x.peerInfo = x.peerInfo
  simp [ensureObj, x.peerText.ne_empty lawful]

theorem peerWaiting_serverInfo (lawful : c.Lawful) : x.peerWaiting.serverInfo = x.serverInfo := by
  change ensureObj x.serverInfo = x.serverInfo
  simp [ensureObj, x.serverText.ne_empty lawful]

/-! ### The runs -/

def serverInputs (noob discovery : Bytes) : List (Server.Input c) :=
  [.receive x.naming (c.encodeWire x.peerFresh.discoveryResponse),
    .receive x.serverDraws (c.encodeWire x.negotiationResponse),
    .receive x.serverDraws (c.encodeWire x.peerKeyed.keyExchangeResponse),
    .oobOutputWith noob,
    .receive x.serverDraws discovery,
    .receive x.serverDraws (c.encodeWire (x.peerArmed noob).noobIdResponse),
    .receive x.serverDraws (c.encodeWire (x.peerArmed noob).completionResponse)]

def serverStates (noob : Bytes) (w : Wire) : List (Server c) :=
  [x.serverFresh, x.serverOffering, x.serverKeyed, x.serverWaiting, x.serverArmed noob,
    x.serverResumed noob w, (x.serverResumed noob w).derived]

def peerInputs (noob : Bytes) (w : Wire) : List (Peer.Input c) :=
  [.receive x.peerDraws (c.encodeWire discoveryRequest),
    .receive x.peerDraws (c.encodeWire x.serverOffering.negotiationRequest),
    .receive x.peerDraws (c.encodeWire x.serverKeyed.keyExchangeRequest),
    .oobInputNoob noob,
    .receive x.peerDraws (c.encodeWire discoveryRequest),
    .receive x.peerDraws (c.encodeWire (x.serverResumed noob w).noobIdRequest),
    .receive x.peerDraws (c.encodeWire (x.serverResumed noob w).completionRequest)]

def peerStates (noob : Bytes) : List (Peer c) :=
  [x.peerFresh, x.peerFresh, x.peerNegotiated, x.peerWaiting, x.peerArmed noob, x.peerArmed noob,
    x.peerArmed noob]

def peerResult : Peer.Input c := .receive x.peerDraws (resultBytes c "success")

theorem peer_discovers (lawful : c.Lawful) (draws : Draws c) :
    x.peerFresh.receive draws (c.encodeWire discoveryRequest) =
      (x.peerFresh, some (sendWire c x.peerFresh.discoveryResponse)) :=
  Peer.receive_discovery lawful (decode_discoveryRequest lawful) rfl rfl rfl

theorem server_arms {noob : Bytes} (long : noob.length = 16) :
    x.serverWaiting.oobOutputWith noob = (x.serverArmed noob, true) :=
  if_pos ⟨rfl, .inl rfl, long⟩

theorem peer_arms {noob : Bytes} (long : noob.length = 16) :
    x.peerWaiting.oobInputNoob noob = (x.peerArmed noob, true) :=
  if_pos ⟨rfl, .inl rfl, long⟩

theorem ne_nil_of_length {noob : Bytes} (long : noob.length = 16) : noob ≠ [] := by
  rintro rfl
  cases long

theorem server_trace (lawful : c.Lawful) {noob discovery : Bytes} {w : Wire}
    (long : noob.length = 16) (decoded : c.decodeWire discovery = some w)
    (notice : w.errorCode = none) (type : w.type = some 1) (peerState : w.peerState = some 2) :
    trace Server.step x.serverFresh (x.serverInputs noob discovery) =
      List.zipWith (entry Server.step) (x.serverStates noob w) (x.serverInputs noob discovery) := by
  have resumes := x.server_resumes lawful x.serverDraws decoded notice type peerState
    (ne_nil_of_length long)
  simp only [serverInputs, serverStates, trace, Server.step, x.server_offers lawful,
    x.server_keys lawful, x.server_waits lawful, x.server_arms long, resumes,
    x.server_matches lawful, List.zipWith_cons_cons, List.zipWith_nil_right]

theorem peer_trace (lawful : c.Lawful) {noob : Bytes} (w : Wire) (long : noob.length = 16) :
    trace Peer.step x.peerFresh (x.peerInputs noob w) =
      List.zipWith (entry Peer.step) (x.peerStates noob) (x.peerInputs noob w) := by
  have held := ne_nil_of_length long
  simp only [peerInputs, peerStates, trace, Peer.step, x.peer_discovers lawful,
    x.peer_negotiates lawful, x.peer_keys lawful, x.peer_arms long, x.peer_resumes lawful,
    x.peer_answers lawful _ _ w held, List.zipWith_cons_cons, List.zipWith_nil_right]

theorem peer_run (lawful : c.Lawful) {noob : Bytes} (w : Wire) (long : noob.length = 16) :
    run Peer.step x.peerFresh (x.peerInputs noob w) = (x.peerArmed noob).derived := by
  have held := ne_nil_of_length long
  simp only [peerInputs, run, Peer.step, x.peer_discovers lawful, x.peer_negotiates lawful,
    x.peer_keys lawful, x.peer_arms long, x.peer_resumes lawful, x.peer_answers lawful _ _ w held,
    x.peer_verifies lawful _ w held]

theorem server_run (lawful : c.Lawful) {noob discovery : Bytes} {w : Wire}
    (long : noob.length = 16) (decoded : c.decodeWire discovery = some w)
    (notice : w.errorCode = none) (type : w.type = some 1) (peerState : w.peerState = some 2) :
    run Server.step x.serverFresh (x.serverInputs noob discovery) = x.serverRegistered noob w := by
  have resumes := x.server_resumes lawful x.serverDraws decoded notice type peerState
    (ne_nil_of_length long)
  simp only [serverInputs, run, Server.step, x.server_offers lawful, x.server_keys lawful,
    x.server_waits lawful, x.server_arms long, resumes, x.server_matches lawful,
    x.server_registers lawful]

theorem server_unregistered (lawful : c.Lawful) {noob discovery : Bytes} {w : Wire}
    (long : noob.length = 16) (decoded : c.decodeWire discovery = some w)
    (notice : w.errorCode = none) (type : w.type = some 1) (peerState : w.peerState = some 2)
    {e : Server.Step c} (member : e ∈ trace Server.step x.serverFresh
      (x.serverInputs noob discovery)) : e.before.state ≠ .registered := by
  rw [x.server_trace lawful long decoded notice type peerState] at member
  simp only [serverStates, serverInputs, List.zipWith_cons_cons, List.zipWith_nil_right,
    List.mem_cons, List.not_mem_nil, or_false] at member
  rcases member with rfl | rfl | rfl | rfl | rfl | rfl | rfl <;> (intro wrong; cases wrong)

theorem server_receives (lawful : c.Lawful) {noob discovery : Bytes} {w : Wire}
    (decoded : c.decodeWire discovery = some w) (type : w.type = some 1) {e : Server.Step c}
    {wm : Wire} (member : e ∈ List.zipWith (entry Server.step) (x.serverStates noob w)
      (x.serverInputs noob discovery)) (received : Server.Receives e wm) :
    (wm.type = some 5 → e.before = x.serverResumed noob w) ∧
      (wm.type = some 6 → e.before = (x.serverResumed noob w).derived) := by
  have other {wm' : Wire} (same : wm = wm') (not5 : wm'.type ≠ some 5) (not6 : wm'.type ≠ some 6) :
      (wm.type = some 5 → e.before = x.serverResumed noob w) ∧
        (wm.type = some 6 → e.before = (x.serverResumed noob w).derived) :=
    same ▸ ⟨fun wrong => absurd wrong not5, fun wrong => absurd wrong not6⟩
  simp only [serverStates, serverInputs, List.zipWith_cons_cons, List.zipWith_nil_right,
    List.mem_cons, List.not_mem_nil, or_false] at member
  rcases member with rfl | rfl | rfl | rfl | rfl | rfl | rfl
  · exact other (received.unique (x.decode_fresh lawful)) nofun nofun
  · exact other (received.unique (x.decode_negotiation lawful)) nofun nofun
  · exact other (received.unique (x.decode_peerKey lawful)) nofun nofun
  · obtain ⟨_, _, wrong, -⟩ := received
    cases wrong
  · exact other (received.unique decoded) (by rw [type]; nofun) (by rw [type]; nofun)
  · rw [received.unique (x.decode_noobId lawful noob)]
    exact ⟨fun _ => rfl, nofun⟩
  · rw [received.unique (x.decode_macp lawful noob)]
    exact ⟨nofun, fun _ => rfl⟩

theorem server_keyed (lawful : c.Lawful) {noob discovery : Bytes} {w : Wire}
    (long : noob.length = 16) (decoded : c.decodeWire discovery = some w)
    (notice : w.errorCode = none) (type : w.type = some 1) (peerState : w.peerState = some 2)
    {e : Server.Step c} (member : e ∈ List.zipWith (entry Server.step) (x.serverStates noob w)
      (x.serverInputs noob discovery)) (keyed : e.after.m.keym ≠ none) :
    e.before = x.serverResumed noob w ∨ e.before = (x.serverResumed noob w).derived := by
  have resumes := x.server_resumes lawful x.serverDraws decoded notice type peerState
    (ne_nil_of_length long)
  simp only [serverStates, serverInputs, List.zipWith_cons_cons, List.zipWith_nil_right,
    List.mem_cons, List.not_mem_nil, or_false] at member
  rcases member with rfl | rfl | rfl | rfl | rfl | rfl | rfl
  · rw [entry_after, Server.step, x.server_offers lawful] at keyed
    exact absurd rfl keyed
  · rw [entry_after, Server.step, x.server_keys lawful] at keyed
    exact absurd rfl keyed
  · rw [entry_after, Server.step, x.server_waits lawful] at keyed
    exact absurd rfl keyed
  · rw [entry_after, Server.step, x.server_arms long] at keyed
    exact absurd rfl keyed
  · rw [entry_after, Server.step, resumes] at keyed
    exact absurd rfl keyed
  · exact .inl rfl
  · exact .inr rfl

theorem peer_receives (lawful : c.Lawful) {noob : Bytes} {w : Wire} {e : Peer.Step c} {wm : Wire}
    (member : e ∈ List.zipWith (entry Peer.step) (x.peerStates noob) (x.peerInputs noob w))
    (received : Peer.Receives e wm) :
    wm.eap = none ∧ (wm.type = some 6 → e.before = x.peerArmed noob) := by
  simp only [peerStates, peerInputs, List.zipWith_cons_cons, List.zipWith_nil_right,
    List.mem_cons, List.not_mem_nil, or_false] at member
  rcases member with rfl | rfl | rfl | rfl | rfl | rfl | rfl
  · rw [received.unique (decode_discoveryRequest lawful)]
    exact ⟨rfl, nofun⟩
  · rw [received.unique (x.decode_offer lawful)]
    exact ⟨rfl, nofun⟩
  · rw [received.unique (x.decode_serverKey lawful)]
    exact ⟨rfl, nofun⟩
  · obtain ⟨_, _, wrong, -⟩ := received
    cases wrong
  · rw [received.unique (decode_discoveryRequest lawful)]
    exact ⟨rfl, nofun⟩
  · rw [received.unique ((x.serverResumed noob w).decode_noobIdRequest lawful)]
    exact ⟨rfl, nofun⟩
  · rw [received.unique ((x.serverResumed noob w).decode_completionRequest lawful)]
    exact ⟨rfl, fun _ => rfl⟩

end Exchange

/-! ## The exchange of the reference parties -/

namespace Reference

def exchange : Exchange crates where
  serverInfo := jsonPairingInfo inviterInfo
  serverText := text_info _
  peerInfo := jsonPairingInfo joinerInfo
  peerText := text_info _
  naming := draws .server
  serverDraws := draws .server
  peerDraws := draws .peer
  z := p256Shared.bytes
  serverAgrees := by decide
  peerAgrees := by decide

def noob : Bytes := (noobFromPin "123456").bytes

theorem length_noob : noob.length = 16 := (noobFromPin "123456").length_eq

def discovery : Wire := (exchange.peerArmed noob).discoveryResponse

theorem decode_discovery : crates.decodeWire (crates.encodeWire discovery) = some discovery :=
  exchange.decode_resumed lawful noob

end Reference

end OpenPair
