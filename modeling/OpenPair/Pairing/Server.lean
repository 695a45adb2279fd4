import OpenPair.Library.Transition
import OpenPair.Pairing.Machine

/-! The EAP-NOOB Server of `machine.rs`, the inviting side.

Each handler is the source's, with the fields it writes named separately
(`heard`, `offered`, ...) so that the effect of a message can be stated once.
-/

set_option autoImplicit false

namespace OpenPair

variable {c : Crates}

variable (c) in
structure Server where
  versions : List Int64 := [1]
  cryptosuites : List Int64 := [2, 1]
  dirs : Int64 := 3
  state : State := .unregistered
  m : Method c := {}
  peerState : Int64 := 0
  csp : Int64 := 0
  dirp : Int64 := 0
  serverInfo : String := "{}"
  assoc : Option Association := none

namespace Server

variable (c) in
def new : Server c := {}

def withServerInfo (s : Server c) (infoJson : String) : Server c :=
  { s with serverInfo := infoJson, dirs := 2 }

def peerInfo (s : Server c) : String := s.m.inp.peerInfo

def start (_s : Server c) : Bytes := c.encodeWire { type := some 1 }

def checkPeerId (s : Server c) (wm : Wire) : Except String Unit :=
  if s.m.peerId.isEmpty then .ok ()
  else match parseStr c wm.peerId with
    | some got => if got = s.m.peerId then .ok () else .error "PeerId mismatch"
    | none => .error "PeerId mismatch"

/-! ## Key exchange and completion messages -/

-- The fields `build_key_exchange` writes.
def keyed (s : Server c) (suite : Suite) (draws : Draws c) : Server c :=
  { s with m := { s.m with
      keypair := some (suite.generate draws)
      ns := draws.nonce.bytes
      inp := { s.m.inp with
        pks := c.jsonJwk (suite.generate draws).publicJwk
        ns := jstr c (c.b64Encode draws.nonce.bytes) } } }

def buildKeyExchange (s : Server c) (draws : Draws c) : Server c × Option Outcome :=
  match s.m.suite with
  | none => (s, none) -- `suite.unwrap()`
  | some suite =>
    let s := s.keyed suite draws
    (s, Option.map (sendWire c) do
      let peerId ← raw c (jstr c s.m.peerId)
      let pks ← raw c s.m.inp.pks
      let ns ← raw c s.m.inp.ns
      return { type := some 3, peerId := some peerId, pks := some pks, ns := some ns })

def buildWaiting (s : Server c) : Server c × Option Outcome :=
  (s, Option.map (sendWire c) do
    let peerId ← raw c (jstr c s.m.peerId)
    return { type := some 4, peerId := some peerId })

def derived (s : Server c) : Server c := { s with m := s.m.derive }

@[simp] theorem derived_keys (s : Server c) : s.derived.m.keys = s.m.keys := rfl

@[simp] theorem derived_inp (s : Server c) : s.derived.m.inp = s.m.inp := rfl

def buildCompletion (s : Server c) : Server c × Option Outcome :=
  let s := s.derived
  let macs := computeMac c s.m.keys.kms.bytes 2 s.m.inp
  (s, Option.map (sendWire c) do
    let peerId ← raw c (jstr c s.m.peerId)
    let noobId ← raw c (jstr c (c.b64Encode s.m.noobId.bytes))
    let macs ← raw c (jstr c (c.b64Encode macs.bytes))
    return { type := some 6, peerId := some peerId, noobId := some noobId, macs := some macs })

def startCompletion (s : Server c) : Server c × Option Outcome :=
  if s.m.noob.isEmpty then (s, some (fail c "no OOB processed"))
  else if s.peerState = 2 then
    (s, Option.map (sendWire c) do
      let peerId ← raw c (jstr c s.m.peerId)
      return { type := some 5, peerId := some peerId })
  else s.buildCompletion

/-! ## Discovery and negotiation -/

-- The fields `build_negotiation` writes.
def offered (s : Server c) (draws : Draws c) : Server c :=
  { s with m := { s.m with
      peerId := newPeerId c draws
      inp := { s.m.inp with
        vers := c.jsonInts s.versions
        peerId := jstr c (newPeerId c draws)
        cryptosuites := c.jsonInts s.cryptosuites
        dirs := toString s.dirs
        serverInfo := s.serverInfo } } }

def buildNegotiation (s : Server c) (draws : Draws c) : Server c × Option Outcome :=
  let s := s.offered draws
  (s, Option.map (sendWire c) do
    let vers ← raw c s.m.inp.vers
    let peerId ← raw c s.m.inp.peerId
    let cryptosuites ← raw c s.m.inp.cryptosuites
    let dirs ← raw c s.m.inp.dirs
    let serverInfo ← raw c s.m.inp.serverInfo
    return { type := some 2, vers := some vers, peerId := some peerId
             cryptosuites := some cryptosuites, dirs := some dirs, serverInfo := some serverInfo })

-- The fields `on_discovery` writes.
def heard (s : Server c) (wm : Wire) : Server c :=
  let nai := (parseStr c wm.nai).getD s.m.nai
  { s with
    peerState := wm.peerState.getD 0
    m := { s.m with nai := if nai.isEmpty then defaultNai else nai } }

def ResumesCompletion (s : Server c) : Prop :=
  (s.state.code = 2 ∧ (s.peerState = 1 ∨ s.peerState = 2)) ∨
    (s.peerState = 2 ∧ (s.state.code = 1 ∨ s.state.code = 2))

def RestartsNegotiation (s : Server c) : Prop :=
  ¬ s.ResumesCompletion ∧ ¬ (s.state.code = 1 ∧ s.peerState = 1) ∧
    (s.state.code = 0 ∨ s.peerState = 0)

instance (s : Server c) : Decidable s.ResumesCompletion :=
  inferInstanceAs (Decidable (_ ∨ _))

instance (s : Server c) : Decidable s.RestartsNegotiation :=
  inferInstanceAs (Decidable (_ ∧ _))

def onDiscovery (s : Server c) (draws : Draws c) (wm : Wire) : Server c × Option Outcome :=
  let s := s.heard wm
  if s.ResumesCompletion then s.startCompletion
  else if s.state.code = 1 ∧ s.peerState = 1 then s.buildWaiting
  else if s.state.code = 0 ∨ s.peerState = 0 then s.buildNegotiation draws
  else (s, some (fail c "state mismatch"))

-- The fields `on_negotiation` writes once every check has passed.
def negotiated (s : Server c) (wm : Wire) (csp dirp : Int64) : Server c :=
  { s with
    csp := csp
    dirp := dirp
    m := { s.m with
      suite := Suite.fromId (asU8 csp)
      inp := { s.m.inp with
        verp := get wm.verp
        cryptosuitep := get wm.cryptosuitep
        dirp := get wm.dirp
        peerInfo := ensureObj (get wm.peerInfo)
        nai := jstr c s.m.nai } } }

def onNegotiation (s : Server c) (draws : Draws c) (wm : Wire) : Server c × Option Outcome :=
  match s.checkPeerId wm with
  | .error e => (s, some (fail c e))
  | .ok () =>
    let verp := (parseInt c wm.verp).getD (-1)
    if s.versions.contains verp = false then (s, some (fail c "unsupported version"))
    else
      let csp := (parseInt c wm.cryptosuitep).getD (-1)
      if s.cryptosuites.contains csp = false ∨ Suite.fromId (asU8 csp) = none then
        (s, some (fail c "unsupported cryptosuite"))
      else
        let dirp := (parseInt c wm.dirp).getD (-1)
        if dirp &&& s.dirs = 0 ∨ ¬ (1 ≤ dirp ∧ dirp ≤ 3) then
          (s, some (fail c "no mutual OOB direction"))
        else (s.negotiated wm csp dirp).buildKeyExchange draws

-- The fields `on_key_exchange` writes once every check has passed.
def exchanged (s : Server c) (wm : Wire) (z np : Bytes) : Server c :=
  { s with
    state := .waiting
    m := { s.m with
      np := np
      z := z
      inp := { s.m.inp with pkp := get wm.pkp, np := get wm.np } } }

def onKeyExchange (s : Server c) (wm : Wire) : Server c × Option Outcome :=
  match s.checkPeerId wm with
  | .error e => (s, some (fail c e))
  | .ok () =>
    match c.readJwk (get wm.pkp) with
    | none => (s, some (fail c "bad PKp"))
    | some jwk =>
      match s.m.keypair with
      | none => (s, none) -- `keypair.as_ref().unwrap()`
      | some keypair =>
        match keypair.computeZ jwk with
        | none => (s, some (fail c "ECDHE failure"))
        | some z =>
          match parseStr c wm.np with
          | none => (s, some (fail c "bad Np"))
          | some npB64 =>
            match c.b64Decode npB64 with
            | none => (s, some (fail c "bad Np encoding"))
            | some np =>
              (s.exchanged wm z np, some { send := some (resultBytes c "failure"), done := true })

/-! ## Completion -/

-- The check of `on_noob_id`.
def MatchesNoobId (s : Server c) (wm : Wire) : Prop :=
  (parseB64 c wm.noobId).getD [] = s.m.noobId.bytes

instance (s : Server c) (wm : Wire) : Decidable (s.MatchesNoobId wm) :=
  inferInstanceAs (Decidable (_ = _))

def onNoobId (s : Server c) (wm : Wire) : Server c × Option Outcome :=
  match s.checkPeerId wm with
  | .error e => (s, some (fail c e))
  | .ok () =>
    if s.MatchesNoobId wm then s.buildCompletion
    else (s, some (failCode c ErrorCode.unrecognizedOobMsgId "unrecognized NoobId"))

def finish (s : Server c) (keym : DerivedKeys) : Association :=
  { peerId := s.m.peerId, nai := s.m.nai, cryptosuitep := asU8 s.csp, kz := keym.kz }

-- The fields `on_completion` writes once the MAC has been verified.
def registered (s : Server c) (keym : DerivedKeys) : Server c :=
  { s with assoc := some (s.finish keym), state := .registered }

def onCompletion (s : Server c) (wm : Wire) : Server c × Option Outcome :=
  match s.checkPeerId wm with
  | .error e => (s, some (fail c e))
  | .ok () =>
    let macp := (parseB64 c wm.macp).getD []
    match s.m.keym with
    | none => (s, none) -- `keym.as_ref().unwrap()`
    | some keym =>
      let expected := computeMac c keym.kmp.bytes 1 s.m.inp
      if macEqual macp expected.bytes = false then
        (s, some (failCode c ErrorCode.hmacVerificationFailed "MACp verification failed"))
      else
        (s.registered keym,
          some { send := some (resultBytes c "success"), done := true, success := true })

def doneFailure (s : Server c) : Server c × Option Outcome :=
  (s, some { send := some (resultBytes c "failure"), done := true })

-- The dispatch of `receive` on a decoded message.
def dispatch (s : Server c) (draws : Draws c) (wm : Wire) : Server c × Option Outcome :=
  match wm.errorCode with
  | some code => (s, some (peerError code wm.errorInfo))
  | none =>
    if wm.type = some 1 then s.onDiscovery draws wm
    else if wm.type = some 2 then s.onNegotiation draws wm
    else if wm.type = some 3 then s.onKeyExchange wm
    else if wm.type = some 4 then s.doneFailure
    else if wm.type = some 5 then s.onNoobId wm
    else if wm.type = some 6 then s.onCompletion wm
    else (s, some (fail c "unexpected type"))

def receive (s : Server c) (draws : Draws c) (input : Bytes) : Server c × Option Outcome :=
  match c.decodeWire input with
  | none => (s, some (fail c "malformed JSON"))
  | some wm => s.dispatch draws wm

/-! ## The effect of a message -/

/-- A Type 2 that passes every check. -/
structure Negotiates (s : Server c) (wm : Wire) (csp dirp : Int64) : Prop where
  peerId : s.checkPeerId wm = .ok ()
  verp : s.versions.contains ((parseInt c wm.verp).getD (-1)) = true
  csp_eq : (parseInt c wm.cryptosuitep).getD (-1) = csp
  csp_offered : s.cryptosuites.contains csp = true
  dirp_eq : (parseInt c wm.dirp).getD (-1) = dirp
  dirp_mutual : dirp &&& s.dirs ≠ 0
  dirp_range : 1 ≤ dirp ∧ dirp ≤ 3

/-- A Type 3 that passes every check. -/
structure Exchanges (s : Server c) (wm : Wire) (keypair : KeyPair c) (z np : Bytes) : Prop where
  peerId : s.checkPeerId wm = .ok ()
  held : s.m.keypair = some keypair
  agreed : (c.readJwk (get wm.pkp)).bind keypair.computeZ = some z
  nonce : parseB64 c wm.np = some np

/-- A Type 6 whose MACp verifies under the cached keys. -/
structure Verifies (s : Server c) (wm : Wire) (keym : DerivedKeys) : Prop where
  peerId : s.checkPeerId wm = .ok ()
  cached : s.m.keym = some keym
  macp : (parseB64 c wm.macp).getD [] = (computeMac c keym.kmp.bytes 1 s.m.inp).bytes

/-- Everything a decoded message can do to a Server. -/
inductive Effect (s : Server c) (draws : Draws c) (wm : Wire) :
    Server c → Option Outcome → Prop where
  | kept {out} : Quiet out → Effect s draws wm s out
  | heard {out} : wm.errorCode = none → wm.type = some 1 → Quiet out →
      Effect s draws wm (s.heard wm) out
  | offered {out} : wm.errorCode = none → wm.type = some 1 → (s.heard wm).RestartsNegotiation →
      Quiet out → Effect s draws wm ((s.heard wm).offered draws) out
  | resumed {out} : wm.errorCode = none → wm.type = some 1 → s.m.noob ≠ [] → Quiet out →
      Effect s draws wm (s.heard wm).derived out
  | negotiated {csp dirp suite out} : wm.errorCode = none → wm.type = some 2 →
      s.Negotiates wm csp dirp → Suite.fromId (asU8 csp) = some suite → Quiet out →
      Effect s draws wm ((s.negotiated wm csp dirp).keyed suite draws) out
  | exchanged {keypair z np} : wm.errorCode = none → wm.type = some 3 →
      s.Exchanges wm keypair z np → Effect s draws wm (s.exchanged wm z np)
        (some { send := some (resultBytes c "failure"), done := true })
  | matched {out} : wm.errorCode = none → wm.type = some 5 → s.checkPeerId wm = .ok () →
      s.MatchesNoobId wm → Quiet out → Effect s draws wm s.derived out
  | registered {keym} : wm.errorCode = none → wm.type = some 6 → s.Verifies wm keym →
      Effect s draws wm (s.registered keym)
        (some { send := some (resultBytes c "success"), done := true, success := true })

theorem onDiscovery_effect {s : Server c} {draws : Draws c} {wm : Wire}
    (notice : wm.errorCode = none) (type : wm.type = some 1) :
    s.Effect draws wm (s.onDiscovery draws wm).1 (s.onDiscovery draws wm).2 := by
  unfold onDiscovery
  dsimp only
  split
  · unfold startCompletion
    split
    · exact .heard notice type (by simp)
    · next noob =>
      split
      · exact .heard notice type (quiet_sendWire c _)
      · exact .resumed notice type (by simpa [heard] using noob) (quiet_sendWire c _)
  · next completes =>
    split
    · exact .heard notice type (quiet_sendWire c _)
    · next waits =>
      split
      · next restarts =>
        exact .offered notice type ⟨completes, waits, restarts⟩ (quiet_sendWire c _)
      · exact .heard notice type (by simp)

theorem onNegotiation_effect {s : Server c} {draws : Draws c} {wm : Wire}
    (notice : wm.errorCode = none) (type : wm.type = some 2) :
    s.Effect draws wm (s.onNegotiation draws wm).1 (s.onNegotiation draws wm).2 := by
  unfold onNegotiation
  split
  · exact .kept (by simp)
  · next same =>
    dsimp only
    split
    · exact .kept (by simp)
    · next version =>
      split
      · exact .kept (by simp)
      · next suite =>
        obtain ⟨offers, known⟩ := not_or.mp suite
        obtain ⟨suite, known⟩ := Option.ne_none_iff_exists'.mp known
        split
        · exact .kept (by simp)
        · next direction =>
          obtain ⟨shared, range⟩ := not_or.mp direction
          unfold buildKeyExchange
          rw [show (s.negotiated wm _ _).m.suite = some suite from known]
          exact .negotiated notice type ⟨same, by simpa using version, rfl, by simpa using offers,
            rfl, shared, not_not.mp range⟩ known (quiet_sendWire c _)

theorem onKeyExchange_effect {s : Server c} {draws : Draws c} {wm : Wire}
    (notice : wm.errorCode = none) (type : wm.type = some 3) :
    s.Effect draws wm (s.onKeyExchange wm).1 (s.onKeyExchange wm).2 := by
  unfold onKeyExchange
  split
  · exact .kept (by simp)
  · next same =>
    split
    · exact .kept (by simp)
    · next jwk key =>
      split
      · exact .kept (by simp)
      · next keypair held =>
        split
        · exact .kept (by simp)
        · next z agreed =>
          split
          · exact .kept (by simp)
          · next text read =>
            split
            · exact .kept (by simp)
            · next np decoded =>
              exact .exchanged notice type ⟨same, held, by rw [key, Option.bind_some, agreed],
                by rw [parseB64, read, Option.bind_some, decoded]⟩

theorem onCompletion_effect {s : Server c} {draws : Draws c} {wm : Wire}
    (notice : wm.errorCode = none) (type : wm.type = some 6) :
    s.Effect draws wm (s.onCompletion wm).1 (s.onCompletion wm).2 := by
  unfold onCompletion
  split
  · exact .kept (by simp)
  · next same =>
    dsimp only
    split
    · exact .kept (by simp)
    · next keym cached =>
      split
      · exact .kept (by simp)
      · next equal =>
        exact .registered notice type ⟨same, cached, by simpa using equal⟩

theorem dispatch_effect (s : Server c) (draws : Draws c) (wm : Wire) :
    s.Effect draws wm (s.dispatch draws wm).1 (s.dispatch draws wm).2 := by
  unfold dispatch
  split
  · exact .kept (by simp)
  · next notice =>
    split
    · next type => exact onDiscovery_effect notice type
    split
    · next type => exact onNegotiation_effect notice type
    split
    · next type => exact onKeyExchange_effect notice type
    split
    · exact .kept (by simp [doneFailure])
    split
    · next type =>
      unfold onNoobId
      split
      · exact .kept (by simp)
      · next same =>
        split
        · next matched => exact .matched notice type same matched (quiet_sendWire c _)
        · exact .kept (by simp)
    split
    · next type => exact onCompletion_effect notice type
    · exact .kept (by simp)

/-- `oob_output_with`; `false` where it returns an error. -/
def oobOutputWith (s : Server c) (noob : Bytes) : Server c × Bool :=
  if s.state = .waiting ∧ (s.dirp = 2 ∨ s.dirp = 3) ∧ noob.length = 16 then
    ({ s with m := s.m.setNoob noob }, true)
  else (s, false)

theorem oobOutputWith_refused {s : Server c} {noob : Bytes} {e : String}
    (refused : oobRefusal s.state s.dirp noob = some e) : s.oobOutputWith noob = (s, false) := by
  have fails := mt (oobRefusal_eq_none s.state s.dirp noob).mpr (by rw [refused]; nofun)
  exact if_neg fails

theorem oobOutputWith_accepted {s : Server c} {noob : Bytes}
    (accepted : oobRefusal s.state s.dirp noob = none) :
    s.oobOutputWith noob = ({ s with m := s.m.setNoob noob }, true) :=
  if_pos ((oobRefusal_eq_none s.state s.dirp noob).mp accepted)

end Server

end OpenPair
