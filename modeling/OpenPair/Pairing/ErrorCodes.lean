import OpenPair.Pairing.Exchange
import OpenPair.Pairing.Rejections

/-! Which error code a rejected message is answered with.

Each rejection comes from one check. Most of them go through `fail`, which sends
1003 whatever was checked.
-/

set_option autoImplicit false

namespace OpenPair

open Transition

variable {c : Crates}

inductive Check where
  | malformed
  | unexpectedType
  | peerId
  | state
  | version
  | cryptosuite
  | direction
  | agreement
  | oob
  | noobId
  | mac
  deriving DecidableEq, Repr

namespace Check

/-- The code documented for a check; nothing is said of a missing out-of-band value. -/
def documented : Check → Option Int64
  -- A key that agrees on nothing is data that does not decode or is no point of the curve.
  | .malformed | .unexpectedType | .agreement => some ErrorCode.invalidData
  | .peerId => some ErrorCode.unexpectedPeerId
  | .state => some ErrorCode.stateMismatch
  | .version => some ErrorCode.unsupportedVersion
  | .cryptosuite => some ErrorCode.unsupportedCryptosuite
  | .direction => some ErrorCode.noMutualOob
  | .noobId => some ErrorCode.unrecognizedOobMsgId
  | .mac => some ErrorCode.hmacVerificationFailed
  | .oob => none

-- The code sent: `fail_code` is called for two checks only.
def sent : Check → Int64
  | .noobId => ErrorCode.unrecognizedOobMsgId
  | .mac => ErrorCode.hmacVerificationFailed
  | _ => ErrorCode.invalidData

/-- The checks with a code of their own that `fail` does not send. -/
def Unclassified (check : Check) : Prop :=
  check ∈ [.peerId, .state, .version, .cryptosuite, .direction]

instance (check : Check) : Decidable check.Unclassified := inferInstanceAs (Decidable (_ ∈ _))

theorem sent_documented_iff (check : Check) :
    (∀ code, check.documented = some code → check.sent = code) ↔ ¬ check.Unclassified := by
  cases check with
  | oob => exact iff_of_true (fun _ wrong => by cases wrong) (by decide)
  | _ =>
    simp only [documented, sent, Option.some.injEq, forall_eq']
    decide

end Check

variable (c) in
/-- The check fails and its code is sent, or no error is reported. -/
def Shows (check : Option Check) (out : Option Outcome) : Prop :=
  match check with
  | some check => ∃ info, out = some (failCode c check.sent info)
  | none => ¬ Outcome.Rejects out

variable (c) in
/-- The code is in the outcome and in the message sent. -/
def CarriesCode (out : Outcome) (code : Int64) : Prop :=
  out.errorCode = some code ∧
    ∃ sent w, out.send = some sent ∧ c.decodeWire sent = some w ∧ w.errorCode = some code

theorem carriesCode_failCode (lawful : c.Lawful) (code other : Int64) (info : String) :
    CarriesCode c (failCode c code info) other ↔ code = other := by
  have decoded : c.decodeWire (errBytes c code info) =
      some { type := some 0, errorCode := some code, errorInfo := some info } :=
    lawful.wire _ (by simp [Wire.raws])
  constructor
  · rintro ⟨same, -⟩
    exact Option.some.inj same
  · rintro rfl
    exact ⟨rfl, _, _, rfl, decoded, rfl⟩

theorem Shows.documents_iff (lawful : c.Lawful) {failed : Option Check} {out : Option Outcome}
    (shows : Shows c failed out) :
    (∀ o, out = some o → o.error ≠ none → ∃ check, failed = some check ∧
      ∀ code, check.documented = some code → CarriesCode c o code) ↔
      ∀ check, failed = some check → ¬ check.Unclassified := by
  cases failed with
  | none =>
    refine iff_of_true (fun o same error => ?_) (fun check wrong => by cases wrong)
    exact (shows ⟨o, same, error⟩).elim
  | some check =>
    obtain ⟨info, rfl⟩ := shows
    constructor
    · -- The outcome is built by `fail_code`, so that its code can be read back.
      intro documents other same
      cases same
      obtain ⟨_, same, carries⟩ := documents _ rfl (Option.some_ne_none info)
      cases same
      rw [← check.sent_documented_iff]
      exact fun code documented => (carriesCode_failCode lawful _ _ _).mp (carries code documented)
    · intro classified o same error
      cases same
      have agrees := check.sent_documented_iff.mpr (classified check rfl)
      exact ⟨check, rfl, fun code documented =>
        (carriesCode_failCode lawful _ _ _).mpr (agrees code documented)⟩

/-! ## The Server -/

namespace Server

variable (s : Server c) (wm : Wire)

def discoveryCheck : Option Check :=
  if (s.heard wm).ResumesCompletion then
    if s.m.noob.isEmpty then some .oob else none
  else if s.state.code = 1 ∧ (s.heard wm).peerState = 1 then none
  else if s.state.code = 0 ∨ (s.heard wm).peerState = 0 then none
  else some .state

def negotiationCheck : Option Check :=
  match s.checkPeerId wm with
  | .error _ => some .peerId
  | .ok () =>
    let csp := (parseInt c wm.cryptosuitep).getD (-1)
    let dirp := (parseInt c wm.dirp).getD (-1)
    if s.versions.contains ((parseInt c wm.verp).getD (-1)) = false then some .version
    else if s.cryptosuites.contains csp = false ∨ Suite.fromId (asU8 csp) = none then
      some .cryptosuite
    else if dirp &&& s.dirs = 0 ∨ ¬ (1 ≤ dirp ∧ dirp ≤ 3) then some .direction
    else none

def keyExchangeCheck : Option Check :=
  match s.checkPeerId wm with
  | .error _ => some .peerId
  | .ok () =>
    match c.readJwk (get wm.pkp), s.m.keypair with
    | none, _ => some .malformed
    -- Without a key pair of its own the Server panics.
    | some _, none => none
    | some jwk, some keypair =>
      match keypair.computeZ jwk with
      | none => some .agreement
      | some _ =>
        match parseB64 c wm.np with
        | none => some .malformed
        | some _ => none

def noobIdCheck : Option Check :=
  match s.checkPeerId wm with
  | .error _ => some .peerId
  | .ok () => if s.MatchesNoobId wm then none else some .noobId

def completionCheck : Option Check :=
  match s.checkPeerId wm with
  | .error _ => some .peerId
  | .ok () =>
    match s.m.keym with
    -- Without keys the Server panics.
    | none => none
    | some keym =>
      if macEqual ((parseB64 c wm.macp).getD []) (computeMac c keym.kmp.bytes 1 s.m.inp).bytes = false then
        some .mac
      else none

/-- The check that the bytes fail; none where they are accepted, make the Server
panic or are an error notification. -/
def failedCheck (bytes : Bytes) : Option Check :=
  match c.decodeWire bytes with
  | none => some .malformed
  | some wm =>
    if wm.errorCode.isSome then none
    else if wm.type = some 1 then s.discoveryCheck wm
    else if wm.type = some 2 then s.negotiationCheck wm
    else if wm.type = some 3 then s.keyExchangeCheck wm
    -- A Type 4 ends the conversation without an error.
    else if wm.type = some 4 then none
    else if wm.type = some 5 then s.noobIdCheck wm
    else if wm.type = some 6 then s.completionCheck wm
    else some .unexpectedType

variable {s wm}

theorem onDiscovery_shows (draws : Draws c) :
    Shows c (s.discoveryCheck wm) (s.onDiscovery draws wm).2 := by
  unfold discoveryCheck onDiscovery
  by_cases resumes : (s.heard wm).ResumesCompletion
  · have same : (s.heard wm).m.noob = s.m.noob := rfl
    simp only [resumes, ↓reduceIte, startCompletion, same]
    split
    · exact ⟨_, rfl⟩
    · split
      · exact not_rejects_sendWire _
      · exact not_rejects_sendWire _
  · have same : (s.heard wm).state = s.state := rfl
    simp only [resumes, ↓reduceIte, same]
    split
    · exact not_rejects_sendWire _
    · split
      · exact not_rejects_sendWire _
      · exact ⟨_, rfl⟩

theorem onNegotiation_shows (draws : Draws c) :
    Shows c (s.negotiationCheck wm) (s.onNegotiation draws wm).2 := by
  unfold negotiationCheck onNegotiation
  cases s.checkPeerId wm with
  | error e => exact ⟨_, rfl⟩
  | ok _ =>
    dsimp only
    split
    · exact ⟨_, rfl⟩
    split
    · exact ⟨_, rfl⟩
    split
    · exact ⟨_, rfl⟩
    · unfold buildKeyExchange
      split
      · -- `build_key_exchange` checks nothing more; without a suite it panics.
        rintro ⟨_, panics, -⟩
        cases panics
      · exact not_rejects_sendWire _

theorem onKeyExchange_shows : Shows c (s.keyExchangeCheck wm) (s.onKeyExchange wm).2 := by
  unfold keyExchangeCheck onKeyExchange
  cases s.checkPeerId wm with
  | error e => exact ⟨_, rfl⟩
  | ok _ =>
    -- The key is read first, then the own key pair, and the nonce last.
    cases c.readJwk (get wm.pkp) with
    | none => exact ⟨_, rfl⟩
    | some jwk =>
      cases s.m.keypair with
      | none =>
        rintro ⟨_, panics, -⟩
        cases panics
      | some keypair =>
        dsimp only
        cases keypair.computeZ jwk with
        | none => exact ⟨_, rfl⟩
        | some z =>
          dsimp only [parseB64]
          cases parseStr c wm.np with
          | none => exact ⟨_, rfl⟩
          | some text =>
            dsimp only [Option.bind_some]
            cases c.b64Decode text with
            | none => exact ⟨_, rfl⟩
            | some np => exact not_rejects_some rfl

theorem onNoobId_shows : Shows c (s.noobIdCheck wm) (s.onNoobId wm).2 := by
  unfold noobIdCheck onNoobId
  cases s.checkPeerId wm with
  | error e => exact ⟨_, rfl⟩
  | ok _ =>
    dsimp only
    split
    · exact not_rejects_sendWire _
    · exact ⟨_, rfl⟩

theorem onCompletion_shows : Shows c (s.completionCheck wm) (s.onCompletion wm).2 := by
  unfold completionCheck onCompletion
  cases s.checkPeerId wm with
  | error e => exact ⟨_, rfl⟩
  | ok _ =>
    cases s.m.keym with
    | none =>
      rintro ⟨_, panics, -⟩
      cases panics
    | some keym =>
      dsimp only
      split
      · exact ⟨_, rfl⟩
      · exact not_rejects_some rfl

variable (c) in
/-- The bytes are an error notification of the other side. -/
def IsNotice (bytes : Bytes) : Prop := ∃ wm, c.decodeWire bytes = some wm ∧ wm.errorCode ≠ none

/-- A message that is no notification fails a check and is answered with that
check's code, or is not rejected. -/
theorem receive_shows (draws : Draws c) {bytes : Bytes} (other : ¬ IsNotice c bytes) :
    Shows c (s.failedCheck bytes) (s.receive draws bytes).2 := by
  unfold failedCheck receive
  cases decoded : c.decodeWire bytes with
  | none => exact ⟨_, rfl⟩
  | some wm =>
    have notice : wm.errorCode = none := by
      by_contra wrong
      exact other ⟨wm, decoded, wrong⟩
    dsimp only
    simp only [dispatch, notice, Option.isSome_none, Bool.false_eq_true, ↓reduceIte]
    split
    · exact onDiscovery_shows draws
    split
    · exact onNegotiation_shows draws
    split
    · exact onKeyExchange_shows
    split
    · exact not_rejects_some rfl
    split
    · exact onNoobId_shows
    split
    · exact onCompletion_shows
    · exact ⟨_, rfl⟩

theorem receive_unsupported (draws : Draws c) {bytes : Bytes}
    (decoded : c.decodeWire bytes = some wm) (notice : wm.errorCode = none)
    (type : wm.type = some 2) (named : s.checkPeerId wm = .ok ())
    (unknown : s.versions.contains ((parseInt c wm.verp).getD (-1)) = false) :
    s.failedCheck bytes = some .version ∧
      (s.receive draws bytes).2 = some (fail c "unsupported version") := by
  have other : ¬ (some 2 : Option Int64) = some 1 := by decide
  constructor
  · rw [failedCheck, decoded]
    dsimp only
    rw [notice, Option.isSome_none, if_neg Bool.false_ne_true, type, if_neg other, if_pos rfl,
      negotiationCheck, named]
    exact if_pos unknown
  · rw [receive_eq decoded, dispatch, notice, type]
    dsimp only
    rw [if_neg other, if_pos rfl, onNegotiation, named]
    exact congrArg Prod.snd (if_pos unknown)

theorem failedCheck_notice {bytes : Bytes} (notice : IsNotice c bytes) :
    s.failedCheck bytes = none := by
  obtain ⟨wm, decoded, code⟩ := notice
  rw [failedCheck, decoded]
  simp [Option.isSome_iff_ne_none, code]

/-- A message that the step rejects fails a check, whose documented code is in the
outcome and in the bytes sent. -/
def DocumentsCode (e : Step c) : Prop :=
  ∀ draws bytes out, e.input = .receive draws bytes → e.output = .received (some out) →
    out.error ≠ none → ¬ IsNotice c bytes →
      ∃ check, e.before.failedCheck bytes = some check ∧
        ∀ code, check.documented = some code → CarriesCode c out code

/-- The check that the message fails is none of the PeerId, the state, the version, the
cryptosuite and the direction. -/
def FailsClassified (e : Step c) : Prop :=
  ∀ draws bytes check, e.input = .receive draws bytes → e.before.failedCheck bytes = some check →
    ¬ check.Unclassified

theorem documentsCode_iff (lawful : c.Lawful) (s : Server c) (input : Input c) :
    DocumentsCode (entry step s input) ↔ FailsClassified (entry step s input) := by
  constructor
  · intro documents draws bytes check called failed
    obtain rfl : input = .receive draws bytes := called
    -- A notification fails no check, so that this message is none.
    have other : ¬ IsNotice c bytes := by
      intro notice
      rw [entry_before, failedCheck_notice notice] at failed
      cases failed
    apply (Shows.documents_iff lawful (receive_shows draws other)).mp _ check failed
    intro out answer error
    exact documents draws bytes out rfl (congrArg Output.received answer) error other
  · intro classified draws bytes out called answer error other
    obtain rfl : input = .receive draws bytes := called
    apply (Shows.documents_iff lawful (receive_shows draws other)).mpr _ out _ error
    · exact fun check failed => classified draws bytes check rfl failed
    · exact Output.received.inj answer

end Server

/-! ## The Peer -/

namespace Peer

variable (p : Peer c) (wm : Wire)

def negotiationCheck : Option Check :=
  if (parseStr c wm.peerId).isNone then some .malformed
  else if (bestVersion ((parseInts c wm.vers).getD []) p.versions).isNone then some .version
  else if (firstSupported ((parseInts c wm.cryptosuites).getD []) p.cryptosuites).isNone then
    some .cryptosuite
  else if (chooseDir ((parseInt c wm.dirs).getD (-1)) p.preferDir).isNone then some .direction
  else none

def keyExchangeCheck (draws : Draws c) : Option Check :=
  match c.readJwk (get wm.pks), parseB64 c wm.ns, p.m.suite with
  | none, _, _ => some .malformed
  | some _, none, _ => some .malformed
  | some _, some _, none => none
  | some jwk, some _, some suite =>
    match (suite.generate draws).computeZ jwk with
    | none => some .agreement
    | some _ => none

def noobIdCheck : Option Check :=
  if p.m.noob.isEmpty then some .oob else none

def completionCheck : Option Check :=
  if p.m.noob.isEmpty then some .oob
  else if ¬ p.MatchesNoobId wm then some .noobId
  else
    let p := p.derived
    if macEqual ((parseB64 c wm.macs).getD []) (computeMac c p.m.keys.kms.bytes 2 p.m.inp).bytes = false
    then some .mac
    else none

/-- The check that the bytes fail; none where they are accepted, make the Peer panic,
or are a result or an error notification. -/
def failedCheck (draws : Draws c) (bytes : Bytes) : Option Check :=
  match c.decodeWire bytes with
  | none => some .malformed
  | some wm =>
    if wm.eap.isSome ∨ wm.errorCode.isSome then none
    else if wm.type = some 1 then none
    else if wm.type = some 2 then p.negotiationCheck wm
    else if wm.type = some 3 then p.keyExchangeCheck wm draws
    else if wm.type = some 4 then none
    else if wm.type = some 5 then p.noobIdCheck
    else if wm.type = some 6 then p.completionCheck wm
    else some .unexpectedType

variable {p wm}

theorem onNegotiation_shows : Shows c (p.negotiationCheck wm) (p.onNegotiation wm).2 := by
  unfold negotiationCheck onNegotiation
  cases parseStr c wm.peerId with
  | none => exact ⟨_, rfl⟩
  | some peerId =>
    cases bestVersion ((parseInts c wm.vers).getD []) p.versions with
    | none => exact ⟨_, rfl⟩
    | some verp =>
      cases firstSupported ((parseInts c wm.cryptosuites).getD []) p.cryptosuites with
      | none => exact ⟨_, rfl⟩
      | some csp =>
        cases chooseDir ((parseInt c wm.dirs).getD (-1)) p.preferDir with
        | none => exact ⟨_, rfl⟩
        | some dirp => exact not_rejects_sendWire _

theorem onKeyExchange_shows (draws : Draws c) :
    Shows c (p.keyExchangeCheck wm draws) (p.onKeyExchange draws wm).2 := by
  unfold keyExchangeCheck onKeyExchange
  -- The Peer reads the Server's key and nonce before it asks for its suite.
  cases c.readJwk (get wm.pks) with
  | none => exact ⟨_, rfl⟩
  | some jwk =>
    cases parseB64 c wm.ns with
    | none => exact ⟨_, rfl⟩
    | some ns =>
      cases p.m.suite with
      | none =>
        rintro ⟨_, panics, -⟩
        cases panics
      | some suite =>
        dsimp only
        cases (suite.generate draws).computeZ jwk with
        | none => exact ⟨_, rfl⟩
        | some z =>
          dsimp only
          split
          · rintro ⟨_, panics, -⟩
            cases panics
          · exact not_rejects_some rfl

theorem onCompletion_shows : Shows c (p.completionCheck wm) (p.onCompletion wm).2 := by
  unfold completionCheck onCompletion
  split
  · exact ⟨_, rfl⟩
  split
  · exact ⟨_, rfl⟩
  dsimp only
  split
  · exact ⟨_, rfl⟩
  · exact not_rejects_sendWire _

variable (c) in
/-- The bytes are an error notification of the other side. -/
def IsNotice (bytes : Bytes) : Prop :=
  ∃ wm, c.decodeWire bytes = some wm ∧ wm.eap = none ∧ wm.errorCode ≠ none

theorem receive_shows (draws : Draws c) {bytes : Bytes} (other : ¬ IsNotice c bytes) :
    Shows c (p.failedCheck draws bytes) (p.receive draws bytes).2 := by
  unfold failedCheck receive
  cases decoded : c.decodeWire bytes with
  | none => exact ⟨_, rfl⟩
  | some wm =>
    dsimp only
    cases result : wm.eap with
    | some eap =>
      simp only [dispatch, result, Option.isSome_some, true_or, ↓reduceIte, onResult]
      split
      · exact not_rejects_some rfl
      · exact not_rejects_some rfl
    | none =>
      have notice : wm.errorCode = none := by
        by_contra wrong
        exact other ⟨wm, decoded, result, wrong⟩
      simp only [dispatch, result, notice, Option.isSome_none, Bool.false_eq_true, or_self, ↓reduceIte]
      split
      · exact not_rejects_sendWire _
      split
      · exact onNegotiation_shows
      split
      · exact onKeyExchange_shows draws
      split
      · exact not_rejects_sendWire _
      split
      · unfold noobIdCheck onNoobId
        split
        · exact ⟨_, rfl⟩
        · exact not_rejects_sendWire _
      split
      · exact onCompletion_shows
      · exact ⟨_, rfl⟩

theorem failedCheck_notice {draws : Draws c} {bytes : Bytes} (notice : IsNotice c bytes) :
    p.failedCheck draws bytes = none := by
  obtain ⟨wm, decoded, -, code⟩ := notice
  rw [failedCheck, decoded]
  simp [Option.isSome_iff_ne_none, code]

/-- A message that the step rejects fails a check, whose documented code is in the
outcome and in the bytes sent. -/
def DocumentsCode (e : Step c) : Prop :=
  ∀ draws bytes out, e.input = .receive draws bytes → e.output = .received (some out) →
    out.error ≠ none → ¬ IsNotice c bytes →
      ∃ check, e.before.failedCheck draws bytes = some check ∧
        ∀ code, check.documented = some code → CarriesCode c out code

/-- The check that the message fails is none of the version, the cryptosuite and the
direction; a Peer checks neither the PeerId nor the state. -/
def FailsClassified (e : Step c) : Prop :=
  ∀ draws bytes check, e.input = .receive draws bytes →
    e.before.failedCheck draws bytes = some check → ¬ check.Unclassified

theorem documentsCode_iff (lawful : c.Lawful) (p : Peer c) (input : Input c) :
    DocumentsCode (entry step p input) ↔ FailsClassified (entry step p input) := by
  constructor
  · intro documents draws bytes check called failed
    obtain rfl : input = .receive draws bytes := called
    have other : ¬ IsNotice c bytes := by
      intro notice
      rw [entry_before, failedCheck_notice notice] at failed
      cases failed
    apply (Shows.documents_iff lawful (receive_shows draws other)).mp _ check failed
    intro out answer error
    exact documents draws bytes out rfl (congrArg Output.received answer) error other
  · intro classified draws bytes out called answer error other
    obtain rfl : input = .receive draws bytes := called
    apply (Shows.documents_iff lawful (receive_shows draws other)).mpr _ out _ error
    · exact fun check failed => classified draws bytes check rfl failed
    · exact Output.received.inj answer

end Peer

/-! ## The codes over runs -/

/-- At every step of every run, a rejection carries the documented code exactly where
the failed check is one that has its own call or belongs to 1003. -/
theorem error_codes_documented_iff (lawful : c.Lawful) :
    (∀ s : Server c, s.Initial → ∀ inputs, ∀ e ∈ trace Server.step s inputs,
      Server.DocumentsCode e ↔ Server.FailsClassified e) ∧
    (∀ p : Peer c, p.Initial → ∀ inputs, ∀ e ∈ trace Peer.step p inputs,
      Peer.DocumentsCode e ↔ Peer.FailsClassified e) := by
  constructor
  · intro s initial inputs e member
    obtain ⟨first, input, -, -, rfl⟩ := mem_trace _ member
    exact Server.documentsCode_iff lawful _ input
  · intro p initial inputs e member
    obtain ⟨first, input, -, -, rfl⟩ := mem_trace _ member
    exact Peer.documentsCode_iff lawful _ input

/-- A Type 5 without a NoobId is answered with 2003. -/
theorem error_codes_documented_bare :
    Server.DocumentsCode (entry Server.step (Server.new Reference.crates)
      (.receive (Reference.draws .server) (Reference.crates.encodeWire (Reference.bare 5)))) := by
  apply ((error_codes_documented_iff Reference.lawful).1 _ (.inl rfl)
    [.receive (Reference.draws .server) (Reference.crates.encodeWire (Reference.bare 5))] _
    (.head _)).mpr
  rintro draws bytes check called failed
  cases called
  have noobId : (Server.new Reference.crates).failedCheck
      (Reference.crates.encodeWire (Reference.bare 5)) = some .noobId := by
    rw [Server.failedCheck, Reference.decode_bare]
    rfl
  rw [entry_before, noobId] at failed
  cases failed
  decide

namespace Reference

/-- The answer to the offer with a version that was not offered. -/
def wrongVersion : Wire := { exchange.negotiationResponse with verp := some (toString (2 : Int64)) }

def offering : Server crates :=
  run Server.step exchange.serverFresh
    [.receive exchange.naming (crates.encodeWire exchange.peerFresh.discoveryResponse)]

end Reference

/-- An unsupported version is answered with 1003, where 3001 is documented. -/
theorem unsupported_version_misreported :
    Reference.offering.failedCheck (Reference.crates.encodeWire Reference.wrongVersion) =
        some .version ∧
      (Reference.offering.receive (Reference.draws .server)
        (Reference.crates.encodeWire Reference.wrongVersion)).2 =
          some (fail Reference.crates "unsupported version") ∧
      ¬ CarriesCode Reference.crates (fail Reference.crates "unsupported version")
        ErrorCode.unsupportedVersion := by
  have reached : Reference.offering = Reference.exchange.serverOffering :=
    congrArg Prod.fst (Reference.exchange.server_offers Reference.lawful)
  have decoded : Reference.crates.decodeWire (Reference.crates.encodeWire Reference.wrongVersion) =
      some Reference.wrongVersion := by
    refine Reference.lawful.wire _ ?_
    simp only [Reference.wrongVersion, Exchange.negotiationResponse, Peer.negotiationResponse,
      Wire.raws]
    have text : Reference.crates.Text Reference.exchange.peerFresh.peerInfo :=
      Reference.exchange.peerText
    simp [Reference.lawful.text_int, Reference.lawful.text_jstr, text]
  have read : parseInt Reference.crates Reference.wrongVersion.verp = some 2 :=
    Reference.lawful.parseInt_toString 2
  have unknown : Reference.exchange.serverOffering.versions.contains
      ((parseInt Reference.crates Reference.wrongVersion.verp).getD (-1)) = false := by
    rw [read]
    rfl
  have named : Reference.exchange.serverOffering.checkPeerId Reference.wrongVersion = .ok () :=
    Server.checkPeerId_named Reference.lawful rfl
  have rejected := Server.receive_unsupported (Reference.draws .server) decoded rfl rfl named unknown
  rw [reached]
  refine ⟨rejected.1, rejected.2, ?_⟩
  rw [fail, carriesCode_failCode Reference.lawful]
  decide

end OpenPair
