import OpenPair.Pairing.Messages
import OpenPair.Pairing.Runs

/-! The messages of the two machines, and the answer of each handler to a message
that passes its checks. -/

set_option autoImplicit false

namespace OpenPair

variable {c : Crates}

/-! ## The messages -/

def discoveryRequest : Wire := { type := some 1 }

namespace Server

def negotiationRequest (s : Server c) : Wire :=
  { type := some 2, vers := some s.m.inp.vers, peerId := some s.m.inp.peerId
    cryptosuites := some s.m.inp.cryptosuites, dirs := some s.m.inp.dirs
    serverInfo := some s.m.inp.serverInfo }

def keyExchangeRequest (s : Server c) : Wire :=
  { type := some 3, peerId := some (jstr c s.m.peerId), pks := some s.m.inp.pks
    ns := some s.m.inp.ns }

def noobIdRequest (s : Server c) : Wire :=
  { type := some 5, peerId := some (jstr c s.m.peerId) }

def completionRequest (s : Server c) : Wire :=
  { type := some 6, peerId := some (jstr c s.m.peerId)
    noobId := some (jstr c (c.b64Encode s.m.noobId.bytes))
    macs := some (jstr c (c.b64Encode (computeMac c s.m.keys.kms.bytes 2 s.m.inp).bytes)) }

end Server

namespace Peer

def discoveryResponse (p : Peer c) : Wire :=
  { type := some 1, peerState := some p.state.code, nai := some (jstr c p.m.nai)
    peerId := if p.state ≠ .unregistered ∧ p.m.peerId.isEmpty = false then
      some (jstr c p.m.peerId) else none }

def negotiationResponse (p : Peer c) (peerId : String) (verp csp dirp : Int64) : Wire :=
  { type := some 2, verp := some (toString verp), peerId := some (jstr c peerId)
    cryptosuitep := some (toString csp), dirp := some (toString dirp)
    peerInfo := some p.peerInfo }

def keyExchangeResponse (p : Peer c) : Wire :=
  { type := some 3, peerId := some (jstr c p.m.peerId), pkp := some p.m.inp.pkp
    np := some p.m.inp.np }

def noobIdResponse (p : Peer c) : Wire :=
  { type := some 5, peerId := some (jstr c p.m.peerId)
    noobId := some (jstr c (c.b64Encode p.m.noobId.bytes)) }

def completionResponse (p : Peer c) : Wire :=
  { type := some 6, peerId := some (jstr c p.m.peerId)
    macp := some (jstr c (c.b64Encode (computeMac c p.m.keys.kmp.bytes 1 p.m.inp).bytes)) }

end Peer

/-! ## The answers

One lemma for each message a handler accepts, with the guards of the machines
as hypotheses.
-/

namespace Server

variable {s : Server c} {draws : Draws c} {bytes : Bytes} {wm : Wire}

theorem receive_eq (decoded : c.decodeWire bytes = some wm) :
    s.receive draws bytes = s.dispatch draws wm := by
  rw [receive, decoded]

theorem receive_restarts (lawful : c.Lawful) (decoded : c.decodeWire bytes = some wm)
    (notice : wm.errorCode = none) (type : wm.type = some 1)
    (restarts : (s.heard wm).RestartsNegotiation) (text : c.Text s.serverInfo) :
    s.receive draws bytes =
      ((s.heard wm).offered draws,
        some (sendWire c ((s.heard wm).offered draws).negotiationRequest)) := by
  obtain ⟨resumes, waits, restarts⟩ := restarts
  have info : raw c (s.heard wm).serverInfo = some s.serverInfo := text.raw_eq
  rw [receive_eq decoded]
  simp only [dispatch, notice, type, ↓reduceIte, onDiscovery, resumes, waits, restarts,
    buildNegotiation, offered, lawful.raw_jstr, lawful.raw_ints, lawful.raw_int, info]
  rfl

/-- The fields are written before the reply is built. -/
theorem receive_restarts_fst (decoded : c.decodeWire bytes = some wm) (notice : wm.errorCode = none)
    (type : wm.type = some 1) (restarts : (s.heard wm).RestartsNegotiation) :
    (s.receive draws bytes).1 = (s.heard wm).offered draws := by
  obtain ⟨resumes, waits, restarts⟩ := restarts
  rw [receive_eq decoded]
  simp only [dispatch, notice, type, ↓reduceIte, onDiscovery, resumes, waits, restarts,
    buildNegotiation]

theorem buildKeyExchange_eq (lawful : c.Lawful) {suite : Suite} (chosen : s.m.suite = some suite) :
    s.buildKeyExchange draws =
      (s.keyed suite draws, some (sendWire c (s.keyed suite draws).keyExchangeRequest)) := by
  unfold buildKeyExchange
  rw [chosen]
  simp only [keyed, lawful.raw_jstr, lawful.raw_jwk]
  rfl

theorem receive_negotiates_eq (decoded : c.decodeWire bytes = some wm)
    (notice : wm.errorCode = none) (type : wm.type = some 2) {csp dirp : Int64} {suite : Suite}
    (negotiates : s.Negotiates wm csp dirp) (known : Suite.fromId (asU8 csp) = some suite) :
    s.receive draws bytes = (s.negotiated wm csp dirp).buildKeyExchange draws := by
  obtain ⟨same, verp, rfl, offered, rfl, shared, range⟩ := negotiates
  rw [receive_eq decoded]
  -- The three checks, as the handler tests them.
  have version : s.versions.contains ((parseInt c wm.verp).getD (-1)) ≠ false := by rw [verp]; decide
  have suite' : ¬ (s.cryptosuites.contains ((parseInt c wm.cryptosuitep).getD (-1)) = false ∨
      Suite.fromId (asU8 ((parseInt c wm.cryptosuitep).getD (-1))) = none) := by
    rw [offered, known]
    simp
  have direction : ¬ ((parseInt c wm.dirp).getD (-1) &&& s.dirs = 0 ∨
      ¬ (1 ≤ (parseInt c wm.dirp).getD (-1) ∧ (parseInt c wm.dirp).getD (-1) ≤ 3)) :=
    not_or.mpr ⟨shared, not_not.mpr range⟩
  simp only [dispatch, notice, type, onNegotiation, same, if_neg version, if_neg suite',
    if_neg direction]
  rfl

theorem receive_negotiates_fst (decoded : c.decodeWire bytes = some wm)
    (notice : wm.errorCode = none) (type : wm.type = some 2) {csp dirp : Int64} {suite : Suite}
    (negotiates : s.Negotiates wm csp dirp) (known : Suite.fromId (asU8 csp) = some suite) :
    (s.receive draws bytes).1 = (s.negotiated wm csp dirp).keyed suite draws := by
  rw [receive_negotiates_eq decoded notice type negotiates known, buildKeyExchange,
    show (s.negotiated wm csp dirp).m.suite = some suite from known]

theorem receive_negotiates (lawful : c.Lawful) (decoded : c.decodeWire bytes = some wm)
    (notice : wm.errorCode = none) (type : wm.type = some 2) {csp dirp : Int64} {suite : Suite}
    (negotiates : s.Negotiates wm csp dirp) (known : Suite.fromId (asU8 csp) = some suite) :
    s.receive draws bytes =
      ((s.negotiated wm csp dirp).keyed suite draws,
        some (sendWire c ((s.negotiated wm csp dirp).keyed suite draws).keyExchangeRequest)) := by
  rw [receive_negotiates_eq decoded notice type negotiates known]
  exact buildKeyExchange_eq lawful known

theorem receive_exchanges (decoded : c.decodeWire bytes = some wm) (notice : wm.errorCode = none)
    (type : wm.type = some 3) {keypair : KeyPair c} {z np : Bytes}
    (exchanges : s.Exchanges wm keypair z np) :
    s.receive draws bytes =
      (s.exchanged wm z np, some { send := some (resultBytes c "failure"), done := true }) := by
  obtain ⟨same, held, agreed, nonce⟩ := exchanges
  obtain ⟨jwk, key, agreed⟩ := Option.bind_eq_some_iff.mp agreed
  obtain ⟨text, read, decodes⟩ := Option.bind_eq_some_iff.mp nonce
  rw [receive_eq decoded]
  simp [dispatch, notice, type, onKeyExchange, same, key, held, agreed, read, decodes]

theorem receive_resumes (lawful : c.Lawful) (decoded : c.decodeWire bytes = some wm)
    (notice : wm.errorCode = none) (type : wm.type = some 1)
    (resumes : (s.heard wm).ResumesCompletion) (noob : s.m.noob ≠ [])
    (peerState : wm.peerState = some 2) :
    s.receive draws bytes = (s.heard wm, some (sendWire c (s.heard wm).noobIdRequest)) := by
  have held : (s.heard wm).m.noob ≠ [] := noob
  have heard : (s.heard wm).peerState = 2 := by rw [Server.heard, peerState]; rfl
  rw [receive_eq decoded]
  simp only [dispatch, notice, type, ↓reduceIte, onDiscovery, resumes, startCompletion,
    List.isEmpty_iff, held, heard, lawful.raw_jstr]
  rfl

theorem receive_matches (lawful : c.Lawful) (decoded : c.decodeWire bytes = some wm)
    (notice : wm.errorCode = none) (type : wm.type = some 5) (same : s.checkPeerId wm = .ok ())
    (matched : s.MatchesNoobId wm) :
    s.receive draws bytes = (s.derived, some (sendWire c s.completionRequest)) := by
  rw [receive_eq decoded]
  simp only [dispatch, notice, type, onNoobId, same, matched, buildCompletion, lawful.raw_jstr]
  rfl

theorem receive_mismatches (decoded : c.decodeWire bytes = some wm)
    (notice : wm.errorCode = none) (type : wm.type = some 5) (same : s.checkPeerId wm = .ok ())
    (differs : ¬ s.MatchesNoobId wm) :
    s.receive draws bytes =
      (s, some (failCode c ErrorCode.unrecognizedOobMsgId "unrecognized NoobId")) := by
  rw [receive_eq decoded]
  simp [dispatch, notice, type, onNoobId, same, differs]

theorem receive_verifies (decoded : c.decodeWire bytes = some wm) (notice : wm.errorCode = none)
    (type : wm.type = some 6) {keym : DerivedKeys} (verifies : s.Verifies wm keym) :
    s.receive draws bytes =
      (s.registered keym,
        some { send := some (resultBytes c "success"), done := true, success := true }) := by
  have macp : macEqual ((parseB64 c wm.macp).getD [])
      (computeMac c keym.kmp.bytes 1 s.m.inp).bytes = true :=
    (macEqual_iff _ _).mpr verifies.macp
  rw [receive_eq decoded]
  simp [dispatch, notice, type, onCompletion, verifies.peerId, verifies.cached, macp]

end Server

namespace Peer

variable {p : Peer c} {draws : Draws c} {bytes : Bytes} {wm : Wire}

theorem receive_eq (decoded : c.decodeWire bytes = some wm) :
    p.receive draws bytes = p.dispatch draws wm := by
  rw [receive, decoded]

theorem receive_malformed (malformed : c.decodeWire bytes = none) :
    p.receive draws bytes = (p, some (fail c "malformed JSON")) := by
  rw [receive, malformed]

theorem onDiscovery_eq (lawful : c.Lawful) :
    p.onDiscovery = (p, some (sendWire c p.discoveryResponse)) := by
  unfold onDiscovery discoveryResponse
  simp only [lawful.raw_jstr, Option.bind_eq_bind, Option.bind_some]
  split <;> rfl

theorem receive_discovery (lawful : c.Lawful) (decoded : c.decodeWire bytes = some wm)
    (result : wm.eap = none) (notice : wm.errorCode = none) (type : wm.type = some 1) :
    p.receive draws bytes = (p, some (sendWire c p.discoveryResponse)) := by
  rw [receive_eq decoded, ← onDiscovery_eq lawful]
  simp [dispatch, result, notice, type]

theorem receive_negotiates (lawful : c.Lawful) (decoded : c.decodeWire bytes = some wm)
    (result : wm.eap = none) (notice : wm.errorCode = none) (type : wm.type = some 2)
    {peerId : String} {verp csp dirp : Int64} (negotiates : p.Negotiates wm peerId verp csp dirp)
    (text : c.Text p.peerInfo) :
    p.receive draws bytes =
      (p.negotiated wm peerId verp csp dirp,
        some (sendWire c (p.negotiationResponse peerId verp csp dirp))) := by
  obtain ⟨named, version, suite, direction⟩ := negotiates
  rw [receive_eq decoded]
  simp only [dispatch, result, notice, type, onNegotiation, named, version, suite, direction,
    lawful.raw_jstr, lawful.raw_int, text.raw_eq]
  rfl

theorem receive_negotiates_fst (decoded : c.decodeWire bytes = some wm)
    (result : wm.eap = none) (notice : wm.errorCode = none) (type : wm.type = some 2)
    {peerId : String} {verp csp dirp : Int64}
    (negotiates : p.Negotiates wm peerId verp csp dirp) :
    (p.receive draws bytes).1 = p.negotiated wm peerId verp csp dirp := by
  obtain ⟨named, version, suite, direction⟩ := negotiates
  rw [receive_eq decoded]
  simp only [dispatch, result, notice, type, onNegotiation, named, version, suite, direction]
  rfl

theorem receive_exchanges (lawful : c.Lawful) (decoded : c.decodeWire bytes = some wm)
    (result : wm.eap = none) (notice : wm.errorCode = none) (type : wm.type = some 3)
    {suite : Suite} {z ns : Bytes} (exchanges : p.Exchanges draws wm suite z ns) :
    p.receive draws bytes =
      ({ p.exchanged wm suite draws z ns with state := .waiting },
        some (sendWire c (p.exchanged wm suite draws z ns).keyExchangeResponse)) := by
  obtain ⟨chosen, nonce, agreed⟩ := exchanges
  obtain ⟨jwk, key, agreed⟩ := Option.bind_eq_some_iff.mp agreed
  rw [receive_eq decoded]
  simp only [dispatch, result, notice, type, onKeyExchange, key, nonce, chosen, agreed, exchanged,
    lawful.raw_jstr, lawful.raw_jwk]
  rfl

theorem receive_noobId (lawful : c.Lawful) (decoded : c.decodeWire bytes = some wm)
    (result : wm.eap = none) (notice : wm.errorCode = none) (type : wm.type = some 5)
    (noob : p.m.noob ≠ []) :
    p.receive draws bytes = (p, some (sendWire c p.noobIdResponse)) := by
  rw [receive_eq decoded]
  simp only [dispatch, result, notice, type, onNoobId, List.isEmpty_iff, noob, lawful.raw_jstr]
  rfl

theorem receive_verifies (lawful : c.Lawful) (decoded : c.decodeWire bytes = some wm)
    (result : wm.eap = none) (notice : wm.errorCode = none) (type : wm.type = some 6)
    (verifies : p.Verifies wm) :
    p.receive draws bytes = (p.derived, some (sendWire c p.completionResponse)) := by
  have noob : p.m.noob.isEmpty = false := by simpa using verifies.noob
  have macs : macEqual ((parseB64 c wm.macs).getD [])
      (computeMac c p.m.keys.kms.bytes 2 p.m.inp).bytes = true :=
    (macEqual_iff _ _).mpr verifies.macs
  rw [receive_eq decoded]
  simp only [dispatch, result, notice, type, onCompletion, noob, verifies.noobId, macs,
    derived_keys, derived_inp, lawful.raw_jstr]
  rfl

theorem receive_success (decoded : c.decodeWire bytes = some wm)
    (result : wm.eap = some "success") :
    p.receive draws bytes = (p.registered, some { done := true, success := true }) := by
  rw [receive_eq decoded]
  simp [dispatch, result, onResult]

theorem receive_notice (decoded : c.decodeWire bytes = some wm) (result : wm.eap = none)
    {code : Int64} (notice : wm.errorCode = some code) :
    p.receive draws bytes = (p, some (peerError code wm.errorInfo)) := by
  rw [receive_eq decoded]
  simp [dispatch, result, notice]

end Peer

end OpenPair
