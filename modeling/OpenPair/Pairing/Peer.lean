import OpenPair.Library.Transition
import OpenPair.Pairing.Machine

/-! The EAP-NOOB Peer of `machine.rs`, the joining side. -/

set_option autoImplicit false

namespace OpenPair

variable {c : Crates}

variable (c) in
structure Peer where
  versions : List Int64 := [1]
  cryptosuites : List Int64 := [1, 2]
  preferDir : Int64 := 2
  state : State := .unregistered
  m : Method c := { nai := defaultNai }
  csp : Int64 := 0
  dirp : Int64 := 0
  peerInfo : String := "{}"
  assoc : Option Association := none

namespace Peer

variable (c) in
def new : Peer c := {}

def withPeerInfo (p : Peer c) (infoJson : String) : Peer c := { p with peerInfo := infoJson }

def serverInfo (p : Peer c) : String := p.m.inp.serverInfo

-- The association `on_result` builds from the working fields.
def finish (p : Peer c) : Association :=
  { peerId := p.m.peerId
    nai := p.m.nai
    cryptosuitep := asU8 p.csp
    kz := (p.m.keym.map DerivedKeys.kz).getD (.zeros 32) }

-- The fields `on_result` writes on `success`.
def registered (p : Peer c) : Peer c := { p with assoc := some p.finish, state := .registered }

def onResult (p : Peer c) (eap : String) : Peer c × Option Outcome :=
  if eap = "success" then (p.registered, some { done := true, success := true })
  else (p, some { done := true })

def onDiscovery (p : Peer c) : Peer c × Option Outcome :=
  (p, Option.map (sendWire c) do
    let nai ← raw c (jstr c p.m.nai)
    let w : Wire := { type := some 1, peerState := some p.state.code, nai := some nai }
    if p.state ≠ .unregistered ∧ p.m.peerId.isEmpty = false then
      let peerId ← raw c (jstr c p.m.peerId)
      return { w with peerId := some peerId }
    else return w)

def named (p : Peer c) (peerId : String) : Peer c := { p with m := { p.m with peerId := peerId } }

-- The fields `on_negotiation` writes once every choice has been made.
def negotiated (p : Peer c) (wm : Wire) (peerId : String) (verp csp dirp : Int64) : Peer c :=
  let nai := (parseStr c wm.newNai).getD p.m.nai
  { p with
    csp := csp
    dirp := dirp
    m := { p.m with
      peerId := peerId
      suite := Suite.fromId (asU8 csp)
      nai := nai
      inp := { p.m.inp with
        vers := get wm.vers
        peerId := get wm.peerId
        cryptosuites := get wm.cryptosuites
        dirs := get wm.dirs
        serverInfo := ensureObj (get wm.serverInfo)
        verp := toString verp
        cryptosuitep := toString csp
        dirp := toString dirp
        peerInfo := p.peerInfo
        nai := jstr c nai } } }

def onNegotiation (p : Peer c) (wm : Wire) : Peer c × Option Outcome :=
  match parseStr c wm.peerId with
  | none => (p, some (fail c "bad PeerId"))
  | some peerId =>
    match bestVersion ((parseInts c wm.vers).getD []) p.versions with
    | none => (p.named peerId, some (fail c "no common version"))
    | some verp =>
      match firstSupported ((parseInts c wm.cryptosuites).getD []) p.cryptosuites with
      | none => (p.named peerId, some (fail c "no common cryptosuite"))
      | some csp =>
        match chooseDir ((parseInt c wm.dirs).getD (-1)) p.preferDir with
        | none => (p.named peerId, some (fail c "no mutual OOB direction"))
        | some dirp =>
          (p.negotiated wm peerId verp csp dirp, Option.map (sendWire c) do
            let verp ← raw c (toString verp)
            let peerId ← raw c (jstr c peerId)
            let cryptosuitep ← raw c (toString csp)
            let dirp ← raw c (toString dirp)
            let peerInfo ← raw c p.peerInfo
            return { type := some 2, verp := some verp, peerId := some peerId
                     cryptosuitep := some cryptosuitep, dirp := some dirp
                     peerInfo := some peerInfo })

-- The fields `on_key_exchange` writes once every check has passed, the state excepted.
def exchanged (p : Peer c) (wm : Wire) (suite : Suite) (draws : Draws c) (z ns : Bytes) : Peer c :=
  { p with
    m := { p.m with
      keypair := some (suite.generate draws)
      z := z
      ns := ns
      np := draws.nonce.bytes
      inp := { p.m.inp with
        pks := get wm.pks
        ns := get wm.ns
        pkp := c.jsonJwk (suite.generate draws).publicJwk
        np := jstr c (c.b64Encode draws.nonce.bytes) } } }

def onKeyExchange (p : Peer c) (draws : Draws c) (wm : Wire) : Peer c × Option Outcome :=
  match c.readJwk (get wm.pks) with
  | none => (p, some (fail c "bad PKs"))
  | some jwk =>
    match parseB64 c wm.ns with
    | none => (p, some (fail c "bad Ns"))
    | some ns =>
      match p.m.suite with
      | none => (p, none) -- `suite.unwrap()`
      | some suite =>
        match (suite.generate draws).computeZ jwk with
        | none => (p, some (fail c "ECDHE failure"))
        | some z =>
          let p := p.exchanged wm suite draws z ns
          let built : Option Wire := do
            let peerId ← raw c (jstr c p.m.peerId)
            let pkp ← raw c p.m.inp.pkp
            let np ← raw c p.m.inp.np
            return { type := some 3, peerId := some peerId, pkp := some pkp, np := some np }
          -- The state is written after the reply is built.
          match built with
          | none => (p, none)
          | some w => ({ p with state := .waiting }, some (sendWire c w))

def onWaiting (p : Peer c) : Peer c × Option Outcome :=
  (p, Option.map (sendWire c) do
    let peerId ← raw c (jstr c p.m.peerId)
    return { type := some 4, peerId := some peerId })

def onNoobId (p : Peer c) : Peer c × Option Outcome :=
  if p.m.noob.isEmpty then (p, some (fail c "no OOB received"))
  else
    (p, Option.map (sendWire c) do
      let peerId ← raw c (jstr c p.m.peerId)
      let noobId ← raw c (jstr c (c.b64Encode p.m.noobId.bytes))
      return { type := some 5, peerId := some peerId, noobId := some noobId })

def derived (p : Peer c) : Peer c := { p with m := p.m.derive }

@[simp] theorem derived_keys (p : Peer c) : p.derived.m.keys = p.m.keys := rfl

@[simp] theorem derived_inp (p : Peer c) : p.derived.m.inp = p.m.inp := rfl

-- The NoobId check of `on_completion`.
def MatchesNoobId (p : Peer c) (wm : Wire) : Prop :=
  (parseB64 c wm.noobId).getD [] = p.m.noobId.bytes

instance (p : Peer c) (wm : Wire) : Decidable (p.MatchesNoobId wm) :=
  inferInstanceAs (Decidable (_ = _))

def onCompletion (p : Peer c) (wm : Wire) : Peer c × Option Outcome :=
  if p.m.noob.isEmpty then (p, some (fail c "no OOB processed"))
  else if ¬ p.MatchesNoobId wm then
    (p, some (failCode c ErrorCode.unrecognizedOobMsgId "unrecognized NoobId"))
  else
    let macs := (parseB64 c wm.macs).getD []
    let p := p.derived
    if macEqual macs (computeMac c p.m.keys.kms.bytes 2 p.m.inp).bytes = false then
      (p, some (failCode c ErrorCode.hmacVerificationFailed "MACs verification failed"))
    else
      let macp := computeMac c p.m.keys.kmp.bytes 1 p.m.inp
      (p, Option.map (sendWire c) do
        let peerId ← raw c (jstr c p.m.peerId)
        let macp ← raw c (jstr c (c.b64Encode macp.bytes))
        return { type := some 6, peerId := some peerId, macp := some macp })

-- The dispatch of `receive` on a decoded message.
def dispatch (p : Peer c) (draws : Draws c) (wm : Wire) : Peer c × Option Outcome :=
  match wm.eap with
  | some eap => p.onResult eap
  | none =>
    match wm.errorCode with
    | some code => (p, some (peerError code wm.errorInfo))
    | none =>
      if wm.type = some 1 then p.onDiscovery
      else if wm.type = some 2 then p.onNegotiation wm
      else if wm.type = some 3 then p.onKeyExchange draws wm
      else if wm.type = some 4 then p.onWaiting
      else if wm.type = some 5 then p.onNoobId
      else if wm.type = some 6 then p.onCompletion wm
      else (p, some (fail c "unexpected type"))

def receive (p : Peer c) (draws : Draws c) (input : Bytes) : Peer c × Option Outcome :=
  match c.decodeWire input with
  | none => (p, some (fail c "malformed JSON"))
  | some wm => p.dispatch draws wm

/-! ## The effect of a message -/

/-- A Type 2 from which the Peer makes every choice. -/
structure Negotiates (p : Peer c) (wm : Wire) (peerId : String) (verp csp dirp : Int64) : Prop where
  peerId : parseStr c wm.peerId = some peerId
  verp : bestVersion ((parseInts c wm.vers).getD []) p.versions = some verp
  csp : firstSupported ((parseInts c wm.cryptosuites).getD []) p.cryptosuites = some csp
  dirp : chooseDir ((parseInt c wm.dirs).getD (-1)) p.preferDir = some dirp

/-- A Type 3 that passes every check. -/
structure Exchanges (p : Peer c) (draws : Draws c) (wm : Wire) (suite : Suite) (z ns : Bytes) :
    Prop where
  chosen : p.m.suite = some suite
  nonce : parseB64 c wm.ns = some ns
  agreed : (c.readJwk (get wm.pks)).bind (suite.generate draws).computeZ = some z

structure Verifies (p : Peer c) (wm : Wire) : Prop where
  noob : p.m.noob ≠ []
  noobId : p.MatchesNoobId wm
  macs : (parseB64 c wm.macs).getD [] = (computeMac c p.m.keys.kms.bytes 2 p.m.inp).bytes

/-- Everything a decoded message can do to a Peer. -/
inductive Effect (p : Peer c) (draws : Draws c) (wm : Wire) : Peer c → Option Outcome → Prop where
  | kept {out} : Quiet out → Effect p draws wm p out
  | registered : wm.eap = some "success" →
      Effect p draws wm p.registered (some { done := true, success := true })
  | named {peerId out} : wm.eap = none → wm.errorCode = none → wm.type = some 2 →
      parseStr c wm.peerId = some peerId → Quiet out → Effect p draws wm (p.named peerId) out
  | negotiated {peerId verp csp dirp out} : wm.eap = none → wm.errorCode = none →
      wm.type = some 2 → p.Negotiates wm peerId verp csp dirp → Quiet out →
      Effect p draws wm (p.negotiated wm peerId verp csp dirp) out
  | stalled {suite z ns} : wm.eap = none → wm.errorCode = none → wm.type = some 3 →
      p.Exchanges draws wm suite z ns →
      Effect p draws wm (p.exchanged wm suite draws z ns) none
  | exchanged {suite z ns out} : wm.eap = none → wm.errorCode = none → wm.type = some 3 →
      p.Exchanges draws wm suite z ns → Quiet out →
      Effect p draws wm { p.exchanged wm suite draws z ns with state := .waiting } out
  | refused {out} : wm.eap = none → wm.errorCode = none → wm.type = some 6 → p.m.noob ≠ [] →
      p.MatchesNoobId wm → ¬ p.Verifies wm → Quiet out → Effect p draws wm p.derived out
  | verified {out} : wm.eap = none → wm.errorCode = none → wm.type = some 6 → p.Verifies wm →
      Quiet out → Effect p draws wm p.derived out

theorem onNegotiation_effect {p : Peer c} {draws : Draws c} {wm : Wire} (result : wm.eap = none)
    (notice : wm.errorCode = none) (type : wm.type = some 2) :
    p.Effect draws wm (p.onNegotiation wm).1 (p.onNegotiation wm).2 := by
  unfold onNegotiation
  cases named : parseStr c wm.peerId with
  | none => exact .kept (by simp)
  | some peerId =>
    dsimp only
    split
    · exact .named result notice type named (by simp)
    · next verp version =>
      split
      · exact .named result notice type named (by simp)
      · next csp suite =>
        split
        · exact .named result notice type named (by simp)
        · next dirp direction =>
          exact .negotiated result notice type ⟨named, version, suite, direction⟩
            (quiet_sendWire c _)

theorem onKeyExchange_effect {p : Peer c} {draws : Draws c} {wm : Wire} (result : wm.eap = none)
    (notice : wm.errorCode = none) (type : wm.type = some 3) :
    p.Effect draws wm (p.onKeyExchange draws wm).1 (p.onKeyExchange draws wm).2 := by
  unfold onKeyExchange
  split
  · exact .kept (by simp)
  · next jwk key =>
    split
    · exact .kept (by simp)
    · next ns nonce =>
      split
      · exact .kept (by simp)
      · next suite chosen =>
        split
        · exact .kept (by simp)
        · next z agreed =>
          have exchanges : p.Exchanges draws wm suite z ns :=
            ⟨chosen, nonce, by rw [key, Option.bind_some, agreed]⟩
          dsimp only
          split
          · exact .stalled result notice type exchanges
          · exact .exchanged result notice type exchanges (by simp)

theorem onCompletion_effect {p : Peer c} {draws : Draws c} {wm : Wire} (result : wm.eap = none)
    (notice : wm.errorCode = none) (type : wm.type = some 6) :
    p.Effect draws wm (p.onCompletion wm).1 (p.onCompletion wm).2 := by
  unfold onCompletion
  split
  · exact .kept (by simp)
  · next noob =>
    have noob : p.m.noob ≠ [] := by simpa using noob
    split
    · exact .kept (by simp)
    · next matched =>
      have matched : p.MatchesNoobId wm := by simpa using matched
      dsimp only
      split
      · next differs =>
        exact .refused result notice type noob matched
          (fun verifies => (macEqual_eq_false _ _).mp differs verifies.macs) (by simp)
      · next same =>
        exact .verified result notice type ⟨noob, matched, by simpa using same⟩
          (quiet_sendWire c _)

theorem dispatch_effect (p : Peer c) (draws : Draws c) (wm : Wire) :
    p.Effect draws wm (p.dispatch draws wm).1 (p.dispatch draws wm).2 := by
  unfold dispatch
  split
  · next eap result =>
    unfold onResult
    split
    · next success => exact .registered (success ▸ result)
    · exact .kept (by simp)
  · next result =>
    split
    · exact .kept (by simp)
    · next notice =>
      split
      · exact .kept (quiet_sendWire c _)
      split
      · next type => exact onNegotiation_effect result notice type
      split
      · next type => exact onKeyExchange_effect result notice type
      split
      · exact .kept (quiet_sendWire c _)
      split
      · unfold onNoobId
        split
        · exact .kept (by simp)
        · exact .kept (quiet_sendWire c _)
      split
      · next type => exact onCompletion_effect result notice type
      · exact .kept (by simp)

/-- `oob_input_noob`; `false` where it returns an error. -/
def oobInputNoob (p : Peer c) (noob : Bytes) : Peer c × Bool :=
  if p.state = .waiting ∧ (p.dirp = 2 ∨ p.dirp = 3) ∧ noob.length = 16 then
    ({ p with m := p.m.setNoob noob, state := .oobReceived }, true)
  else (p, false)

theorem oobInputNoob_refused {p : Peer c} {noob : Bytes} {e : String}
    (refused : oobRefusal p.state p.dirp noob = some e) : p.oobInputNoob noob = (p, false) := by
  have fails := mt (oobRefusal_eq_none p.state p.dirp noob).mpr (by rw [refused]; nofun)
  exact if_neg fails

theorem oobInputNoob_accepted {p : Peer c} {noob : Bytes}
    (accepted : oobRefusal p.state p.dirp noob = none) :
    p.oobInputNoob noob = ({ p with m := p.m.setNoob noob, state := .oobReceived }, true) :=
  if_pos ((oobRefusal_eq_none p.state p.dirp noob).mp accepted)

end Peer

end OpenPair
