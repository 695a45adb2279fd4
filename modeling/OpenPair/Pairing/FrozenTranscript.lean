import OpenPair.Pairing.PeerAuthentication
import OpenPair.Pairing.ServerAuthentication
import OpenPair.Pairing.Transcript

/-! Whether the transcript is frozen once an out-of-band value confirms it.

No handler that writes the transcript looks at the state, or at the value that
was accepted before. The transcript stays as it is exactly as long as no
message that passes its checks brings other values than those held.
-/

set_option autoImplicit false

namespace OpenPair

open Transition

variable {c : Crates}

/-! ## The Server -/

namespace Server

/-- A new offer is the one that the Server holds. -/
structure OffersHeld (s : Server c) (draws : Draws c) : Prop where
  peerId : newPeerId c draws = s.m.peerId
  peerIdText : jstr c (newPeerId c draws) = s.m.inp.peerId
  vers : c.jsonInts s.versions = s.m.inp.vers
  cryptosuites : c.jsonInts s.cryptosuites = s.m.inp.cryptosuites
  dirs : toString s.dirs = s.m.inp.dirs
  serverInfo : s.serverInfo = s.m.inp.serverInfo

/-- The choices of a negotiation, and the key and the nonce drawn on it, are those held. -/
structure ChoosesHeld (s : Server c) (wm : Wire) (suite : Suite) (draws : Draws c) : Prop where
  verp : get wm.verp = s.m.inp.verp
  cryptosuitep : get wm.cryptosuitep = s.m.inp.cryptosuitep
  dirp : get wm.dirp = s.m.inp.dirp
  peerInfo : ensureObj (get wm.peerInfo) = s.m.inp.peerInfo
  nai : jstr c s.m.nai = s.m.inp.nai
  pks : c.jsonJwk (suite.generate draws).publicJwk = s.m.inp.pks
  ns : draws.nonce.bytes = s.m.ns
  nsText : jstr c (c.b64Encode draws.nonce.bytes) = s.m.inp.ns

/-- The key exchange is the one that the Server holds. -/
structure ExchangesHeld (s : Server c) (wm : Wire) (z np : Bytes) : Prop where
  z : z = s.m.z
  np : np = s.m.np
  pkp : get wm.pkp = s.m.inp.pkp
  npText : get wm.np = s.m.inp.np

section

variable {s : Server c} {draws : Draws c} {wm : Wire} {suite : Suite} {csp dirp : Int64}
  {z np : Bytes}

theorem offered_negotiated :
    ((s.heard wm).offered draws).m.negotiated = s.m.negotiated ↔ s.OffersHeld draws := by
  simp only [heard, offered, Method.negotiated, Negotiated.mk.injEq, MacInputs.mk.injEq, true_and, and_true]
  constructor
  · rintro ⟨⟨vers, text, suites, dirs, info⟩, name⟩
    exact ⟨name, text, vers, suites, dirs, info⟩
  · rintro ⟨name, text, vers, suites, dirs, info⟩
    exact ⟨⟨vers, text, suites, dirs, info⟩, name⟩

theorem keyed_negotiated : ((s.negotiated wm csp dirp).keyed suite draws).m.negotiated =
    s.m.negotiated ↔ s.ChoosesHeld wm suite draws := by
  simp only [negotiated, keyed, Method.negotiated, Negotiated.mk.injEq, MacInputs.mk.injEq,
    true_and, and_true]
  constructor
  · rintro ⟨⟨verp, csp, dirp, nai, info, pks, text⟩, ns⟩
    exact ⟨verp, csp, dirp, info, nai, pks, ns, text⟩
  · rintro ⟨verp, csp, dirp, info, nai, pks, ns, text⟩
    exact ⟨⟨verp, csp, dirp, nai, info, pks, text⟩, ns⟩

theorem exchanged_negotiated :
    (s.exchanged wm z np).m.negotiated = s.m.negotiated ↔ s.ExchangesHeld wm z np := by
  simp only [exchanged, Method.negotiated, Negotiated.mk.injEq, MacInputs.mk.injEq, true_and,
    and_true]
  constructor
  · rintro ⟨⟨pkp, text⟩, agreed, nonce⟩
    exact ⟨agreed, nonce, pkp, text⟩
  · rintro ⟨agreed, nonce, pkp, text⟩
    exact ⟨⟨pkp, text⟩, agreed, nonce⟩

end

/-- A message that passes its checks and brings other values than those held. -/
def Renews (s : Server c) (draws : Draws c) (wm : Wire) : Prop :=
  wm.errorCode = none ∧
    ((wm.type = some 1 ∧ (s.heard wm).RestartsNegotiation ∧ ¬ s.OffersHeld draws) ∨
      (wm.type = some 2 ∧ ∃ csp dirp suite, s.Negotiates wm csp dirp ∧
        Suite.fromId (asU8 csp) = some suite ∧ ¬ s.ChoosesHeld wm suite draws) ∨
      (wm.type = some 3 ∧ ∃ keypair z np, s.Exchanges wm keypair z np ∧ ¬ s.ExchangesHeld wm z np))

section

variable {s : Server c} {draws : Draws c} {bytes : Bytes} {wm : Wire}

theorem Effect.transcript {t : Server c} {out : Option Outcome} (effect : s.Effect draws wm t out)
    (held : ¬ s.Renews draws wm) : t.m.negotiated = s.m.negotiated := by
  cases effect with
  | offered notice type restarts =>
    refine offered_negotiated.mpr ?_
    by_contra differs
    exact held ⟨notice, .inl ⟨type, restarts, differs⟩⟩
  | negotiated notice type negotiates known =>
    refine keyed_negotiated.mpr ?_
    by_contra differs
    exact held ⟨notice, .inr (.inl ⟨type, _, _, _, negotiates, known, differs⟩)⟩
  | exchanged notice type exchanges =>
    refine exchanged_negotiated.mpr ?_
    by_contra differs
    exact held ⟨notice, .inr (.inr ⟨type, _, _, _, exchanges, differs⟩)⟩
  | _ => rfl

theorem receive_negotiated_iff (decoded : c.decodeWire bytes = some wm) :
    (s.receive draws bytes).1.m.negotiated = s.m.negotiated ↔ ¬ s.Renews draws wm := by
  constructor
  · rintro same ⟨notice, ⟨type, restarts, differs⟩ |
      ⟨type, csp, dirp, suite, negotiates, known, differs⟩ | ⟨type, keypair, z, np, exchanges, differs⟩⟩
    · rw [receive_restarts_fst decoded notice type restarts] at same
      exact differs (offered_negotiated.mp same)
    · rw [receive_negotiates_fst decoded notice type negotiates known] at same
      exact differs (keyed_negotiated.mp same)
    · rw [receive_exchanges decoded notice type exchanges] at same
      exact differs (exchanged_negotiated.mp same)
  · intro held
    rcases s.receive_effect draws bytes with malformed | ⟨w, decoded', effect⟩
    · rw [malformed]
    · obtain rfl := Option.some.inj (decoded'.symm.trans decoded)
      exact effect.transcript held

end

def Armed (history : List (Step c)) : Prop := ∃ e ∈ history, ∃ noob, AcceptsOob e noob

/-- Once an out-of-band value was accepted, no step changes the transcript and
keeps the value. -/
def TranscriptFrozen (s : Server c) (inputs : List (Input c)) : Prop :=
  EveryStep (fun history e => Armed history → e.after.m.noob = e.before.m.noob →
    e.after.m.negotiated = e.before.m.negotiated) (trace step s inputs)

/-- Once an out-of-band value was accepted, no message renews the transcript. -/
def Unrenewed (history : List (Step c)) (e : Step c) : Prop :=
  Armed history → ∀ draws bytes wm, e.input = .receive draws bytes →
    c.decodeWire bytes = some wm → ¬ e.before.Renews draws wm

/-- No message drops the out-of-band value, and no other call touches the transcript. -/
theorem frozen_step_iff (s : Server c) (input : Input c) :
    ((s.step input).1.m.noob = s.m.noob → (s.step input).1.m.negotiated = s.m.negotiated) ↔
      ∀ draws bytes wm, input = .receive draws bytes → c.decodeWire bytes = some wm →
        ¬ s.Renews draws wm := by
  constructor
  · rintro frozen draws bytes wm rfl decoded
    apply (receive_negotiated_iff decoded).mp
    apply frozen
    rcases s.receive_effect draws bytes with malformed | ⟨w, -, effect⟩
    · rw [step, malformed]
    · exact effect.noob
  · intro held _
    rcases s.step_cases input with ⟨same, -⟩ | ⟨noob, -, -, -, -, after⟩ |
      ⟨draws, bytes, wm, out, called, decoded, -, effect⟩
    · rw [same]
    · rw [after]
      rfl
    · exact effect.transcript (held draws bytes wm called decoded)

theorem transcriptFrozen_iff (s : Server c) (inputs : List (Input c)) :
    s.TranscriptFrozen inputs ↔ EveryStep Unrenewed (trace step s inputs) :=
  EveryStep.congr_trace fun _ state input =>
    ⟨fun frozen armed => (frozen_step_iff state input).mp (frozen armed),
      fun held armed => (frozen_step_iff state input).mpr (held armed)⟩

end Server

/-! ## The Peer -/

namespace Peer

/-- The offer, and what the Peer chooses from it, are those held. -/
structure ChoosesHeld (p : Peer c) (wm : Wire) (peerId : String) (verp csp dirp : Int64) : Prop where
  peerId : peerId = p.m.peerId
  peerIdText : get wm.peerId = p.m.inp.peerId
  vers : get wm.vers = p.m.inp.vers
  cryptosuites : get wm.cryptosuites = p.m.inp.cryptosuites
  dirs : get wm.dirs = p.m.inp.dirs
  serverInfo : ensureObj (get wm.serverInfo) = p.m.inp.serverInfo
  verp : toString verp = p.m.inp.verp
  cryptosuitep : toString csp = p.m.inp.cryptosuitep
  dirp : toString dirp = p.m.inp.dirp
  peerInfo : p.peerInfo = p.m.inp.peerInfo
  nai : jstr c ((parseStr c wm.newNai).getD p.m.nai) = p.m.inp.nai

/-- The key exchange, with the key and the nonce drawn on it, is the one held. -/
structure ExchangesHeld (p : Peer c) (wm : Wire) (suite : Suite) (draws : Draws c) (z ns : Bytes) :
    Prop where
  z : z = p.m.z
  ns : ns = p.m.ns
  np : draws.nonce.bytes = p.m.np
  pks : get wm.pks = p.m.inp.pks
  nsText : get wm.ns = p.m.inp.ns
  pkp : c.jsonJwk (suite.generate draws).publicJwk = p.m.inp.pkp
  npText : jstr c (c.b64Encode draws.nonce.bytes) = p.m.inp.np

section

variable {p : Peer c} {draws : Draws c} {wm : Wire} {peerId : String} {verp csp dirp : Int64}
  {suite : Suite} {z ns : Bytes}

theorem named_negotiated :
    (p.named peerId).m.negotiated = p.m.negotiated ↔ peerId = p.m.peerId := by
  simp only [named, Method.negotiated, Negotiated.mk.injEq, true_and]

theorem negotiated_negotiated : (p.negotiated wm peerId verp csp dirp).m.negotiated =
    p.m.negotiated ↔ p.ChoosesHeld wm peerId verp csp dirp := by
  simp only [negotiated, Method.negotiated, Negotiated.mk.injEq, MacInputs.mk.injEq, true_and,
    and_true]
  constructor
  · rintro ⟨⟨vers, verp, text, suites, dirs, info, csp, dirp, nai, own⟩, name⟩
    exact ⟨name, text, vers, suites, dirs, info, verp, csp, dirp, own, nai⟩
  · rintro ⟨name, text, vers, suites, dirs, info, verp, csp, dirp, own, nai⟩
    exact ⟨⟨vers, verp, text, suites, dirs, info, csp, dirp, nai, own⟩, name⟩

theorem exchanged_negotiated : (p.exchanged wm suite draws z ns).m.negotiated =
    p.m.negotiated ↔ p.ExchangesHeld wm suite draws z ns := by
  simp only [exchanged, Method.negotiated, Negotiated.mk.injEq, MacInputs.mk.injEq, true_and,
    and_true]
  constructor
  · rintro ⟨⟨pks, server, pkp, text⟩, agreed, nonce, own⟩
    exact ⟨agreed, nonce, own, pks, server, pkp, text⟩
  · rintro ⟨agreed, nonce, own, pks, server, pkp, text⟩
    exact ⟨⟨pks, server, pkp, text⟩, agreed, nonce, own⟩

end

/-- A message that brings other values than those held: a Type 2 renews the
PeerId before it is checked. -/
def Renews (p : Peer c) (draws : Draws c) (wm : Wire) : Prop :=
  wm.eap = none ∧ wm.errorCode = none ∧
    ((wm.type = some 2 ∧ ∃ peerId, parseStr c wm.peerId = some peerId ∧ (peerId ≠ p.m.peerId ∨
        ∃ verp csp dirp, p.Negotiates wm peerId verp csp dirp ∧
          ¬ p.ChoosesHeld wm peerId verp csp dirp)) ∨
      (wm.type = some 3 ∧ ∃ suite z ns, p.Exchanges draws wm suite z ns ∧
        ¬ p.ExchangesHeld wm suite draws z ns))

section

variable {p : Peer c} {draws : Draws c} {bytes : Bytes} {wm : Wire}

theorem Effect.transcript {q : Peer c} {out : Option Outcome} (effect : p.Effect draws wm q out)
    (held : ¬ p.Renews draws wm) : q.m.negotiated = p.m.negotiated := by
  cases effect with
  | named result notice type named =>
    refine named_negotiated.mpr ?_
    by_contra differs
    exact held ⟨result, notice, .inl ⟨type, _, named, .inl differs⟩⟩
  | negotiated result notice type negotiates =>
    refine negotiated_negotiated.mpr ?_
    by_contra differs
    exact held ⟨result, notice, .inl ⟨type, _, negotiates.peerId, .inr ⟨_, _, _, negotiates, differs⟩⟩⟩
  | stalled result notice type exchanges =>
    refine exchanged_negotiated.mpr ?_
    by_contra differs
    exact held ⟨result, notice, .inr ⟨type, _, _, _, exchanges, differs⟩⟩
  | exchanged result notice type exchanges =>
    refine exchanged_negotiated.mpr ?_
    by_contra differs
    exact held ⟨result, notice, .inr ⟨type, _, _, _, exchanges, differs⟩⟩
  | _ => rfl

theorem receive_names (decoded : c.decodeWire bytes = some wm) (result : wm.eap = none)
    (notice : wm.errorCode = none) (type : wm.type = some 2) {peerId : String}
    (named : parseStr c wm.peerId = some peerId) : (p.receive draws bytes).1.m.peerId = peerId := by
  have other : ¬ (some 2 : Option Int64) = some 1 := by decide
  rw [receive_eq decoded, dispatch, result, notice, type]
  dsimp only
  rw [if_neg other, if_pos rfl, onNegotiation, named]
  dsimp only
  repeat' split
  all_goals rfl

theorem receive_negotiated_iff (lawful : c.Lawful) (decoded : c.decodeWire bytes = some wm) :
    (p.receive draws bytes).1.m.negotiated = p.m.negotiated ↔ ¬ p.Renews draws wm := by
  constructor
  · rintro same ⟨result, notice, ⟨type, peerId, named, differs | ⟨verp, csp, dirp, negotiates, differs⟩⟩ |
      ⟨type, suite, z, ns, exchanges, differs⟩⟩
    · have kept := congrArg Negotiated.peerId same
      exact differs ((receive_names decoded result notice type named).symm.trans kept)
    · rw [receive_negotiates_fst decoded result notice type negotiates] at same
      exact differs (negotiated_negotiated.mp same)
    · rw [receive_exchanges lawful decoded result notice type exchanges] at same
      exact differs (exchanged_negotiated.mp same)
  · intro held
    rcases p.receive_effect draws bytes with malformed | ⟨w, decoded', effect⟩
    · rw [malformed]
    · obtain rfl := Option.some.inj (decoded'.symm.trans decoded)
      exact effect.transcript held

end

def Armed (history : List (Step c)) : Prop := ∃ e ∈ history, ∃ noob, AcceptsOob e noob

/-- Once an out-of-band value was accepted, no step changes the transcript and
keeps the value. -/
def TranscriptFrozen (p : Peer c) (inputs : List (Input c)) : Prop :=
  EveryStep (fun history e => Armed history → e.after.m.noob = e.before.m.noob →
    e.after.m.negotiated = e.before.m.negotiated) (trace step p inputs)

/-- Once an out-of-band value was accepted, no message renews the transcript. -/
def Unrenewed (history : List (Step c)) (e : Step c) : Prop :=
  Armed history → ∀ draws bytes wm, e.input = .receive draws bytes →
    c.decodeWire bytes = some wm → ¬ e.before.Renews draws wm

theorem frozen_step_iff (lawful : c.Lawful) (p : Peer c) (input : Input c) :
    ((p.step input).1.m.noob = p.m.noob → (p.step input).1.m.negotiated = p.m.negotiated) ↔
      ∀ draws bytes wm, input = .receive draws bytes → c.decodeWire bytes = some wm →
        ¬ p.Renews draws wm := by
  constructor
  · rintro frozen draws bytes wm rfl decoded
    apply (receive_negotiated_iff lawful decoded).mp
    apply frozen
    rcases p.receive_effect draws bytes with malformed | ⟨w, -, effect⟩
    · rw [step, malformed]
    · exact effect.noob
  · intro held _
    rcases p.step_cases input with ⟨same, -⟩ | ⟨noob, -, -, -, -, after⟩ |
      ⟨draws, bytes, wm, out, called, decoded, -, effect⟩
    · rw [same]
    · rw [after]
      rfl
    · exact effect.transcript (held draws bytes wm called decoded)

theorem transcriptFrozen_iff (lawful : c.Lawful) (p : Peer c) (inputs : List (Input c)) :
    p.TranscriptFrozen inputs ↔ EveryStep Unrenewed (trace step p inputs) :=
  EveryStep.congr_trace fun _ state input =>
    ⟨fun frozen armed => (frozen_step_iff lawful state input).mp (frozen armed),
      fun held armed => (frozen_step_iff lawful state input).mpr (held armed)⟩

end Peer

/-! ## An exchange -/

namespace Server

variable {s : Server c} {draws : Draws c} {bytes : Bytes} {wm : Wire} {history : List (Step c)}

theorem unrenewed_of_receives {e : Step c}
    (receives : ∀ d ∈ history, ∃ draws bytes, d.input = .receive draws bytes) :
    Unrenewed history e := by
  rintro ⟨d, member, noob, called, -⟩
  obtain ⟨draws, bytes, other⟩ := receives d member
  rw [called] at other
  cases other

theorem unrenewed_of_not_renews (decoded : c.decodeWire bytes = some wm)
    (held : ¬ s.Renews draws wm) : Unrenewed history (entry step s (.receive draws bytes)) := by
  rintro - _ _ w called decoded'
  cases called
  obtain rfl := Option.some.inj (decoded.symm.trans decoded')
  exact held

theorem not_renews {k : Int64} (type : wm.type = some k)
    (resumes : k = 1 → (s.heard wm).ResumesCompletion) (other : k ≠ 2 ∧ k ≠ 3) :
    ¬ s.Renews draws wm := by
  rintro ⟨-, ⟨first, restarts, -⟩ | ⟨second, -⟩ | ⟨third, -⟩⟩
  · exact restarts.1 (resumes (Option.some.inj (type.symm.trans first)))
  · exact other.1 (Option.some.inj (type.symm.trans second))
  · exact other.2 (Option.some.inj (type.symm.trans third))

end Server

namespace Peer

variable {p : Peer c} {draws : Draws c} {bytes : Bytes} {wm : Wire} {history : List (Step c)}

theorem unrenewed_of_receives {e : Step c}
    (receives : ∀ d ∈ history, ∃ draws bytes, d.input = .receive draws bytes) :
    Unrenewed history e := by
  rintro ⟨d, member, noob, called, -⟩
  obtain ⟨draws, bytes, other⟩ := receives d member
  rw [called] at other
  cases other

theorem unrenewed_of_not_renews (decoded : c.decodeWire bytes = some wm)
    (held : ¬ p.Renews draws wm) : Unrenewed history (entry step p (.receive draws bytes)) := by
  rintro - _ _ w called decoded'
  cases called
  obtain rfl := Option.some.inj (decoded.symm.trans decoded')
  exact held

theorem not_renews {k : Int64} (type : wm.type = some k) (other : k ≠ 2 ∧ k ≠ 3) :
    ¬ p.Renews draws wm := by
  rintro ⟨-, -, ⟨second, -⟩ | ⟨third, -⟩⟩
  · exact other.1 (Option.some.inj (type.symm.trans second))
  · exact other.2 (Option.some.inj (type.symm.trans third))

end Peer

namespace Exchange

variable (x : Exchange c)

def armingInputs (noob : Bytes) : List (Server.Input c) :=
  [.receive x.naming (c.encodeWire x.peerFresh.discoveryResponse),
    .receive x.serverDraws (c.encodeWire x.negotiationResponse),
    .receive x.serverDraws (c.encodeWire x.peerKeyed.keyExchangeResponse), .oobOutputWith noob]

variable (lawful : c.Lawful)
include lawful

theorem arming_trace (noob : Bytes) : trace Server.step x.serverFresh (x.armingInputs noob) =
    [entry Server.step x.serverFresh
        (.receive x.naming (c.encodeWire x.peerFresh.discoveryResponse)),
      entry Server.step x.serverOffering
        (.receive x.serverDraws (c.encodeWire x.negotiationResponse)),
      entry Server.step x.serverKeyed
        (.receive x.serverDraws (c.encodeWire x.peerKeyed.keyExchangeResponse)),
      entry Server.step x.serverWaiting (.oobOutputWith noob)] := by
  simp only [armingInputs, trace, Server.step, x.server_offers lawful, x.server_keys lawful,
    x.server_waits lawful]

theorem arming_run {noob : Bytes} (long : noob.length = 16) :
    run Server.step x.serverFresh (x.armingInputs noob) = x.serverArmed noob := by
  simp only [armingInputs, run, Server.step, x.server_offers lawful, x.server_keys lawful,
    x.server_waits lawful, x.server_arms long]

theorem server_unrenewed {noob discovery : Bytes} {w : Wire} (long : noob.length = 16)
    (decoded : c.decodeWire discovery = some w) (notice : w.errorCode = none)
    (type : w.type = some 1) (peerState : w.peerState = some 2) :
    EveryStep Server.Unrenewed
      (trace Server.step x.serverFresh (x.serverInputs noob discovery)) := by
  have split : x.serverInputs noob discovery = x.armingInputs noob ++
      [.receive x.serverDraws discovery,
        .receive x.serverDraws (c.encodeWire (x.peerArmed noob).noobIdResponse),
        .receive x.serverDraws (c.encodeWire (x.peerArmed noob).completionResponse)] := rfl
  have resumes := x.server_resumes lawful x.serverDraws decoded notice type peerState
    (ne_nil_of_length long)
  rw [split, trace_append, x.arming_run lawful long]
  refine EveryStep.append.mpr ⟨?_, ?_⟩
  -- Up to the out-of-band value there is none, and after it no Type 2 or 3.
  · rw [x.arming_trace lawful]
    simp only [EveryStep.cons]
    refine ⟨Server.unrenewed_of_receives (by simp), Server.unrenewed_of_receives (by simp),
      Server.unrenewed_of_receives (by simp), ?_, EveryStep.nil⟩
    rintro - draws bytes wm called
    cases called
  · simp only [trace, Server.step, resumes, x.server_matches lawful, EveryStep.cons]
    refine ⟨?_, ?_, ?_, EveryStep.nil⟩
    · have completes : (Server.heard (x.serverArmed noob) w).ResumesCompletion := by
        refine .inr ⟨?_, .inl rfl⟩
        rw [Server.heard, peerState]
        rfl
      exact Server.unrenewed_of_not_renews decoded
        (Server.not_renews type (fun _ => completes) (by decide))
    · exact Server.unrenewed_of_not_renews (x.decode_noobId lawful noob)
        (Server.not_renews rfl (fun wrong => absurd wrong (by decide)) (by decide))
    · exact Server.unrenewed_of_not_renews (x.decode_macp lawful noob)
        (Server.not_renews rfl (fun wrong => absurd wrong (by decide)) (by decide))

theorem peer_unrenewed {noob : Bytes} (w : Wire) (long : noob.length = 16) :
    EveryStep Peer.Unrenewed (trace Peer.step x.peerFresh (x.peerInputs noob w)) := by
  rw [x.peer_trace lawful w long]
  simp only [peerStates, peerInputs, List.zipWith_cons_cons, List.zipWith_nil_right, EveryStep.cons]
  refine ⟨Peer.unrenewed_of_receives (by simp), Peer.unrenewed_of_receives (by simp),
    Peer.unrenewed_of_receives (by simp), ?_, ?_, ?_, ?_, EveryStep.nil⟩
  · rintro - draws bytes wm called
    cases called
  · exact Peer.unrenewed_of_not_renews (decode_discoveryRequest lawful) (Peer.not_renews rfl (by decide))
  · exact Peer.unrenewed_of_not_renews ((x.serverResumed noob w).decode_noobIdRequest lawful)
      (Peer.not_renews rfl (by decide))
  · exact Peer.unrenewed_of_not_renews ((x.serverResumed noob w).decode_completionRequest lawful)
      (Peer.not_renews rfl (by decide))

/-- A negotiation that is repeated with another nonce drawn renews the transcript. -/
theorem repeated_renews {noob : Bytes} (long : noob.length = 16)
    (differs : x.peerDraws.nonce.bytes ≠ x.serverDraws.nonce.bytes) :
    ¬ x.serverFresh.TranscriptFrozen (x.armingInputs noob ++
      [.receive x.peerDraws (c.encodeWire x.negotiationResponse)]) := by
  intro frozen
  have unrenewed := (x.serverFresh.transcriptFrozen_iff _).mp frozen
  rw [trace_append, x.arming_run lawful long] at unrenewed
  have last := (EveryStep.concat.mp unrenewed).2
  have armed : Server.Armed (trace Server.step x.serverFresh (x.armingInputs noob)) := by
    rw [x.arming_trace lawful]
    refine ⟨entry Server.step x.serverWaiting (.oobOutputWith noob), by simp, noob, rfl, ?_⟩
    rw [entry_output, Server.step, x.server_arms long]
  -- The checks look at what the Server offers and at its name, which are as before.
  have negotiates := x.negotiates_answer lawful (s := x.serverArmed noob) rfl rfl rfl rfl
  have known : Suite.fromId (asU8 2) = some .p256 := by decide
  exact last armed _ _ _ rfl (x.decode_negotiation lawful)
    ⟨rfl, .inr (.inl ⟨rfl, 2, 2, _, negotiates, known, fun held => differs held.ns⟩)⟩

end Exchange

end OpenPair
