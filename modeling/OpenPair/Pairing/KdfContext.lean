import OpenPair.Pairing.KeyFreshness

/-! Whether the context of the key derivation tells its parts apart.

The nonces are joined without their lengths. A machine draws its own nonce with
thirty-two bytes, and takes the other side's at whatever length it has.
-/

set_option autoImplicit false

namespace OpenPair

open Transition

variable {c : Crates}

@[ext]
structure KdfContext where
  np : Bytes
  ns : Bytes
  noob : Bytes

namespace KdfContext

def bytes (t : KdfContext) : Bytes := eapnoobFixedInfo t.np t.ns t.noob

/-- Equal bytes with Noobs of one length have equal Noobs, and nonces that join
to the same bytes. -/
theorem joined_of_bytes {t u : KdfContext} (long : t.noob.length = u.noob.length)
    (same : t.bytes = u.bytes) : t.noob = u.noob ∧ t.np ++ t.ns = u.np ++ u.ns := by
  simp only [bytes, eapnoobFixedInfo] at same
  -- The Noob is cut off from behind with its length, the algorithm from the front.
  obtain ⟨front, noob⟩ := List.append_inj' same long
  obtain ⟨nonces, -⟩ := List.append_inj' front rfl
  rw [List.append_assoc, List.append_assoc] at nonces
  exact ⟨noob, List.append_cancel_left nonces⟩

/-- They are equal exactly where they cut the nonces at the same place. -/
theorem eq_iff_of_bytes {t u : KdfContext} (long : t.noob.length = u.noob.length)
    (same : t.bytes = u.bytes) : t = u ↔ t.np.length = u.np.length := by
  obtain ⟨noob, joined⟩ := joined_of_bytes long same
  constructor
  · rintro rfl
    rfl
  · intro cut
    obtain ⟨np, ns⟩ := List.append_inj joined cut
    exact KdfContext.ext np ns noob

end KdfContext

def Method.context (m : Method c) : KdfContext := ⟨m.np, m.ns, m.noob⟩

/-! ## The lengths a machine can hold -/

namespace Server

/-- The own nonce has thirty-two bytes once a key pair is held, which every later
state rests on. -/
structure Sized (s : Server c) : Prop where
  drawn : s.m.keypair ≠ none → s.m.ns.length = 32
  waiting : s.state = .waiting → s.m.ns.length = 32
  noob : s.m.noob = [] ∨ (s.m.noob.length = 16 ∧ s.m.ns.length = 32)

theorem Sized.initial {s : Server c} (initial : s.Initial) : s.Sized := by
  rcases initial with rfl | ⟨info, rfl⟩ <;>
    exact ⟨fun wrong => (wrong rfl).elim, fun wrong => (by cases wrong), .inl rfl⟩

theorem Effect.sized {s t : Server c} {draws : Draws c} {wm : Wire} {out : Option Outcome}
    (effect : s.Effect draws wm t out) (sized : s.Sized) : t.Sized := by
  obtain ⟨drawn, waiting, noob⟩ := sized
  -- The nonce is drawn with the key pair, and without the pair no key exchange completes.
  cases effect with
  | negotiated =>
    have long := draws.nonce.length_eq
    exact ⟨fun _ => long, fun _ => long, noob.imp_right fun both => ⟨both.1, long⟩⟩
  | exchanged notice type exchanges =>
    have long := drawn (by rw [exchanges.held]; exact Option.some_ne_none _)
    exact ⟨drawn, fun _ => long, noob⟩
  | registered => exact ⟨drawn, fun wrong => (by cases wrong), noob⟩
  | _ => exact ⟨drawn, waiting, noob⟩

theorem Sized.step {s : Server c} (sized : s.Sized) (input : Input c) :
    (s.step input).1.Sized := by
  rcases s.step_cases input with ⟨same, -⟩ | ⟨noob, -, waits, long, -, after⟩ |
    ⟨draws, bytes, wm, out, -, -, -, effect⟩
  · rw [same]
    exact sized
  · rw [after]
    exact ⟨sized.drawn, sized.waiting, .inr ⟨long, sized.waiting waits⟩⟩
  · exact effect.sized sized

theorem Sized.run {s : Server c} (initial : s.Initial) (inputs : List (Input c)) :
    (Transition.run Server.step s inputs).Sized :=
  run_invariant Server.step (fun _ input sized => sized.step input) (Sized.initial initial) inputs

variable (c) in
/-- A context from which a Server derives keys at a step of some run, after it accepted
the Noob in that run. -/
def Holds (t : KdfContext) : Prop :=
  ∃ s : Server c, s.Initial ∧ ∃ first input,
    (∃ d ∈ trace Server.step s first, AcceptsOob d t.noob) ∧
      DerivesKeys (entry Server.step (Transition.run Server.step s first) input) ∧
      (Transition.run Server.step s first).m.context = t

theorem AcceptsOob.length {s : Server c} {inputs : List (Input c)} {d : Step c} {noob : Bytes}
    (member : d ∈ trace Server.step s inputs) (accepted : AcceptsOob d noob) : noob.length = 16 := by
  obtain ⟨called, allowed⟩ := accepted
  obtain ⟨first, input, rest, -, rfl⟩ := mem_trace _ member
  rw [entry_input] at called
  subst called
  -- A Noob of any other length is refused.
  cases refusal : oobRefusal (Transition.run Server.step s first).state
      (Transition.run Server.step s first).dirp noob with
  | none => exact ((oobRefusal_eq_none _ _ _).mp refusal).2.2
  | some e =>
    rw [entry_output, Server.step, oobOutputWith_refused refusal] at allowed
    cases allowed

theorem Holds.lengths {t : KdfContext} (holds : Holds c t) :
    t.ns.length = 32 ∧ t.noob.length = 16 := by
  obtain ⟨s, initial, first, input, ⟨d, earlier, accepted⟩, -, rfl⟩ := holds
  have long := accepted.length earlier
  rcases (Sized.run initial first).noob with empty | ⟨-, nonce⟩
  · rw [Method.context, empty] at long
    cases long
  · exact ⟨nonce, long⟩

end Server

namespace Peer

/-- The own nonce has thirty-two bytes where the Peer waits or holds a Noob. -/
structure Sized (p : Peer c) : Prop where
  waiting : p.state = .waiting → p.m.np.length = 32
  noob : p.m.noob = [] ∨ (p.m.noob.length = 16 ∧ p.m.np.length = 32)

theorem Sized.initial {p : Peer c} (initial : p.Initial) : p.Sized := by
  rcases initial with rfl | ⟨info, rfl⟩ <;> exact ⟨fun wrong => (by cases wrong), .inl rfl⟩

theorem Effect.sized {p q : Peer c} {draws : Draws c} {wm : Wire} {out : Option Outcome}
    (effect : p.Effect draws wm q out) (sized : p.Sized) : q.Sized := by
  obtain ⟨waiting, noob⟩ := sized
  have long := draws.nonce.length_eq
  -- The Peer draws its nonce as it answers the key exchange.
  cases effect with
  | stalled => exact ⟨fun _ => long, noob.imp_right fun both => ⟨both.1, long⟩⟩
  | exchanged => exact ⟨fun _ => long, noob.imp_right fun both => ⟨both.1, long⟩⟩
  | registered => exact ⟨fun wrong => (by cases wrong), noob⟩
  | _ => exact ⟨waiting, noob⟩

theorem Sized.step {p : Peer c} (sized : p.Sized) (input : Input c) :
    (p.step input).1.Sized := by
  rcases p.step_cases input with ⟨same, -⟩ | ⟨noob, -, waits, long, -, after⟩ |
    ⟨draws, bytes, wm, out, -, -, -, effect⟩
  · rw [same]
    exact sized
  · rw [after]
    exact ⟨fun wrong => (by cases wrong), .inr ⟨long, sized.waiting waits⟩⟩
  · exact effect.sized sized

theorem Sized.run {p : Peer c} (initial : p.Initial) (inputs : List (Input c)) :
    (Transition.run Peer.step p inputs).Sized :=
  run_invariant Peer.step (fun _ input sized => sized.step input) (Sized.initial initial) inputs

variable (c) in
/-- A context from which a Peer derives keys at a step of some run, after it accepted
the Noob in that run. -/
def Holds (t : KdfContext) : Prop :=
  ∃ p : Peer c, p.Initial ∧ ∃ first input,
    (∃ d ∈ trace Peer.step p first, AcceptsOob d t.noob) ∧
      DerivesKeys (entry Peer.step (Transition.run Peer.step p first) input) ∧
      (Transition.run Peer.step p first).m.context = t

theorem AcceptsOob.length {p : Peer c} {inputs : List (Input c)} {d : Step c} {noob : Bytes}
    (member : d ∈ trace Peer.step p inputs) (accepted : AcceptsOob d noob) : noob.length = 16 := by
  obtain ⟨called, allowed⟩ := accepted
  obtain ⟨first, input, rest, -, rfl⟩ := mem_trace _ member
  rw [entry_input] at called
  subst called
  -- A Noob of any other length is refused.
  cases refusal : oobRefusal (Transition.run Peer.step p first).state
      (Transition.run Peer.step p first).dirp noob with
  | none => exact ((oobRefusal_eq_none _ _ _).mp refusal).2.2
  | some e =>
    rw [entry_output, Peer.step, oobInputNoob_refused refusal] at allowed
    cases allowed

theorem Holds.lengths {t : KdfContext} (holds : Holds c t) :
    t.np.length = 32 ∧ t.noob.length = 16 := by
  obtain ⟨p, initial, first, input, ⟨d, earlier, accepted⟩, -, rfl⟩ := holds
  have long := accepted.length earlier
  rcases (Sized.run initial first).noob with empty | ⟨-, nonce⟩
  · rw [Method.context, empty] at long
    cases long
  · exact ⟨nonce, long⟩

end Peer

/-! ## The contexts that can be held

A counterpart may send a nonce of any length, and the machine derives keys from it.
-/

namespace Exchange

variable (x : Exchange c)

def peerKeyWith (np : Bytes) : Wire :=
  { x.peerKeyed.keyExchangeResponse with np := some (jstr c (c.b64Encode np)) }

def serverWaitingWith (np : Bytes) : Server c :=
  x.serverKeyed.exchanged (x.peerKeyWith np) x.z np

def serverArmedWith (np noob : Bytes) : Server c :=
  { x.serverWaitingWith np with m := (x.serverWaitingWith np).m.setNoob noob }

def serverFirst (np noob : Bytes) : List (Server.Input c) :=
  [.receive x.naming (c.encodeWire x.peerFresh.discoveryResponse),
    .receive x.serverDraws (c.encodeWire x.negotiationResponse),
    .receive x.serverDraws (c.encodeWire (x.peerKeyWith np)), .oobOutputWith noob]

def serverKeyWith (ns : Bytes) : Wire :=
  { x.serverKeyed.keyExchangeRequest with ns := some (jstr c (c.b64Encode ns)) }

def peerWaitingWith (ns : Bytes) : Peer c :=
  { x.peerNegotiated.exchanged (x.serverKeyWith ns) .p256 x.peerDraws x.z ns with state := .waiting }

def peerArmedWith (ns noob : Bytes) : Peer c :=
  { x.peerWaitingWith ns with m := (x.peerWaitingWith ns).m.setNoob noob, state := .oobReceived }

def peerFirst (ns noob : Bytes) : List (Peer.Input c) :=
  [.receive x.peerDraws (c.encodeWire x.serverOffering.negotiationRequest),
    .receive x.peerDraws (c.encodeWire (x.serverKeyWith ns)), .oobInputNoob noob]

variable (lawful : c.Lawful)
include lawful

theorem server_waits_with (np : Bytes) (draws : Draws c) :
    x.serverKeyed.receive draws (c.encodeWire (x.peerKeyWith np)) =
      (x.serverWaitingWith np, some { send := some (resultBytes c "failure"), done := true }) := by
  have decoded : c.decodeWire (c.encodeWire (x.peerKeyWith np)) = some (x.peerKeyWith np) := by
    refine lawful.wire _ ?_
    simp only [peerKeyWith, Peer.keyExchangeResponse, peerKeyed, Peer.exchanged, Wire.raws]
    simp [lawful.text_jwk, lawful.text_jstr]
  obtain ⟨named, held, agreed, -⟩ := x.exchanges_peerKey lawful (s := x.serverKeyed) rfl rfl
  exact Server.receive_exchanges decoded rfl rfl ⟨named, held, agreed, lawful.parseB64_jstr np⟩

theorem peer_waits_with (ns : Bytes) :
    x.peerNegotiated.receive x.peerDraws (c.encodeWire (x.serverKeyWith ns)) =
      (x.peerWaitingWith ns, some (sendWire c (x.peerWaitingWith ns).keyExchangeResponse)) := by
  have decoded : c.decodeWire (c.encodeWire (x.serverKeyWith ns)) = some (x.serverKeyWith ns) := by
    refine lawful.wire _ ?_
    simp only [serverKeyWith, Server.keyExchangeRequest, serverKeyed, Server.keyed, Wire.raws]
    simp [lawful.text_jwk, lawful.text_jstr]
  obtain ⟨chosen, -, agreed⟩ := x.exchanges_key lawful (p := x.peerNegotiated) rfl
  exact Peer.receive_exchanges lawful decoded rfl rfl rfl ⟨chosen, lawful.parseB64_jstr ns, agreed⟩

variable {noob : Bytes} (long : noob.length = 16)
include long

theorem server_holds (np : Bytes) : Server.Holds c ⟨np, x.serverDraws.nonce.bytes, noob⟩ := by
  have arms : (x.serverWaitingWith np).oobOutputWith noob = (x.serverArmedWith np noob, true) :=
    if_pos ⟨rfl, .inl rfl, long⟩
  have reached : run Server.step x.serverFresh (x.serverFirst np noob) = x.serverArmedWith np noob := by
    simp only [serverFirst, run, Server.step, x.server_offers lawful, x.server_keys lawful,
      x.server_waits_with lawful, arms]
  refine ⟨x.serverFresh, .inr ⟨_, rfl⟩, x.serverFirst np noob,
    .receive x.serverDraws (c.encodeWire (x.peerArmed noob).noobIdResponse), ?_, ?_, ?_⟩
  · refine ⟨entry Server.step (x.serverWaitingWith np) (.oobOutputWith noob), ?_, rfl, ?_⟩
    · simp only [serverFirst, trace, Server.step, x.server_offers lawful, x.server_keys lawful,
        x.server_waits_with lawful]
      simp
    · rw [entry_output, Server.step, arms]
  · rw [reached]
    refine ⟨_, ⟨_, _, rfl, x.decode_noobId lawful noob, rfl⟩, .inr ⟨rfl, ?_, ?_⟩⟩
    · exact Server.checkPeerId_named lawful rfl
    · rw [entry_before, Server.MatchesNoobId, Peer.noobIdResponse, lawful.parseB64_jstr]
      rfl
  · rw [reached]
    rfl

theorem peer_holds (ns : Bytes) : Peer.Holds c ⟨x.peerDraws.nonce.bytes, ns, noob⟩ := by
  have arms : (x.peerWaitingWith ns).oobInputNoob noob = (x.peerArmedWith ns noob, true) :=
    if_pos ⟨rfl, .inl rfl, long⟩
  have reached : run Peer.step x.peerFresh (x.peerFirst ns noob) = x.peerArmedWith ns noob := by
    simp only [peerFirst, run, Peer.step, x.peer_negotiates lawful, x.peer_waits_with lawful, arms]
  refine ⟨x.peerFresh, .inr ⟨_, rfl⟩, x.peerFirst ns noob,
    .receive x.peerDraws (c.encodeWire (x.serverArmed noob).completionRequest), ?_, ?_, ?_⟩
  · refine ⟨entry Peer.step (x.peerWaitingWith ns) (.oobInputNoob noob), ?_, rfl, ?_⟩
    · simp only [peerFirst, trace, Peer.step, x.peer_negotiates lawful, x.peer_waits_with lawful]
      simp
    · rw [entry_output, Peer.step, arms]
  · rw [reached]
    refine ⟨_, ⟨_, _, rfl, (x.serverArmed noob).decode_completionRequest lawful⟩, rfl, rfl, rfl, ?_, ?_⟩
    · exact ne_nil_of_length long
    · rw [entry_before, Peer.MatchesNoobId, Server.completionRequest, lawful.parseB64_jstr]
      rfl
  · rw [reached]
    rfl

end Exchange

/-! ## Whether the context is unambiguous -/

/-- Two contexts of equal bytes are one where one kind of machine holds both. A
Server and a Peer agree on the Noob and on the nonces joined, and on all three
parts exactly where the nonces that they were sent have thirty-two bytes. -/
theorem kdf_context_parts {t u : KdfContext} (same : t.bytes = u.bytes) :
    (Server.Holds c t → Server.Holds c u → t = u) ∧
    (Peer.Holds c t → Peer.Holds c u → t = u) ∧
    (Server.Holds c t → Peer.Holds c u →
      t.noob = u.noob ∧ t.np ++ t.ns = u.np ++ u.ns ∧
        (t = u ↔ t.np.length = 32) ∧ (t = u ↔ u.ns.length = 32)) := by
  refine ⟨?_, ?_, ?_⟩
  · -- Two Servers draw the second nonce, which fixes the cut from behind.
    intro first second
    obtain ⟨nonce, long⟩ := first.lengths
    obtain ⟨nonce', long'⟩ := second.lengths
    obtain ⟨-, joined⟩ := KdfContext.joined_of_bytes (long.trans long'.symm) same
    have cut := congrArg List.length joined
    rw [List.length_append, List.length_append, nonce, nonce'] at cut
    exact (KdfContext.eq_iff_of_bytes (long.trans long'.symm) same).mpr (by omega)
  · intro first second
    -- Two Peers draw the first nonce, which fixes it from the front.
    obtain ⟨nonce, long⟩ := first.lengths
    obtain ⟨nonce', long'⟩ := second.lengths
    exact (KdfContext.eq_iff_of_bytes (long.trans long'.symm) same).mpr (nonce.trans nonce'.symm)
  · intro server peer
    obtain ⟨nonce, long⟩ := server.lengths
    obtain ⟨nonce', long'⟩ := peer.lengths
    have cut := KdfContext.eq_iff_of_bytes (long.trans long'.symm) same
    obtain ⟨noob, joined⟩ := KdfContext.joined_of_bytes (long.trans long'.symm) same
    have total := congrArg List.length joined
    rw [List.length_append, List.length_append, nonce, nonce'] at total
    rw [nonce'] at cut
    exact ⟨noob, joined, cut, cut.trans (by omega)⟩

namespace Reference

/-- The nonces of a Server that was sent one byte too many. -/
def longAtServer : KdfContext := ⟨List.replicate 33 0x50, List.replicate 32 0x53, noob⟩

/-- The nonces of a Peer that was sent one byte too many. -/
def longAtPeer : KdfContext := ⟨List.replicate 32 0x50, 0x50 :: List.replicate 32 0x53, noob⟩

theorem holds_longAtServer : Server.Holds crates longAtServer :=
  exchange.server_holds lawful length_noob _

theorem holds_longAtPeer : Peer.Holds crates longAtPeer :=
  exchange.peer_holds lawful length_noob _

end Reference

theorem kdf_context_parts_reference :
    Reference.longAtServer.np ++ Reference.longAtServer.ns =
      Reference.longAtPeer.np ++ Reference.longAtPeer.ns ∧
    (Reference.longAtServer = Reference.longAtPeer ↔ Reference.longAtServer.np.length = 32) := by
  have parts := (kdf_context_parts (c := Reference.crates)
    (by rfl : Reference.longAtServer.bytes = Reference.longAtPeer.bytes)).2.2
    Reference.holds_longAtServer Reference.holds_longAtPeer
  exact ⟨parts.2.1, parts.2.2.1⟩

/-- A Server and a Peer derive from equal bytes with different nonces. -/
theorem kdf_context_ambiguous :
    Server.Holds Reference.crates Reference.longAtServer ∧
      Peer.Holds Reference.crates Reference.longAtPeer ∧
      eapnoobFixedInfo Reference.longAtServer.np Reference.longAtServer.ns
          Reference.longAtServer.noob =
        eapnoobFixedInfo Reference.longAtPeer.np Reference.longAtPeer.ns Reference.longAtPeer.noob ∧
      Reference.longAtServer.np ≠ Reference.longAtPeer.np :=
  ⟨Reference.holds_longAtServer, Reference.holds_longAtPeer, rfl, by decide⟩

end OpenPair
