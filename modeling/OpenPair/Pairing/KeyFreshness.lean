import OpenPair.Pairing.Exchange

/-! Whether the keys in use belong to the values held.

Keys are cached when a completion starts and the cache is never cleared, while
later negotiations and key exchanges replace the values it was derived from.
-/

set_option autoImplicit false

namespace OpenPair

open Transition

variable {c : Crates}

/-! ## The values behind the keys -/

def Method.held (m : Method c) : Bytes × Bytes × Bytes × Bytes := (m.z, m.np, m.ns, m.noob)

theorem Method.keys_eq {m n : Method c} (same : m.held = n.held) : m.keys = n.keys := by
  simp only [held, Prod.mk.injEq] at same
  obtain ⟨z, np, ns, noob⟩ := same
  simp only [keys, z, np, ns, noob]

/-- The JSON forms in the MAC input are those of the values held. -/
structure Method.Mirrors (m : Method c) : Prop where
  ns : (m.inp.ns = "" ∧ m.ns = []) ∨ parseB64 c (some m.inp.ns) = some m.ns
  np : (m.inp.np = "" ∧ m.np = []) ∨ parseB64 c (some m.inp.np) = some m.np
  noob : (m.inp.noob = "" ∧ m.noob = []) ∨ m.inp.noob = c.jsonStr (c.b64Encode m.noob)

theorem Method.Mirrors.setNoob {m : Method c} (mirrors : m.Mirrors) (noob : Bytes) :
    (m.setNoob noob).Mirrors :=
  ⟨mirrors.ns, mirrors.np, .inr rfl⟩

theorem parseB64_get {r : Option String} {b : Bytes} (read : parseB64 c r = some b) :
    parseB64 c (some (get r)) = some b := by
  cases r with
  | none => cases read
  | some t => exact read

/-! ## The Server -/

namespace Server

/-- The step derives keys: it starts the completion after discovery, or its NoobId matches. -/
def DerivesKeys (e : Step c) : Prop :=
  ∃ wm, Receives e wm ∧
    ((wm.type = some 1 ∧ (e.before.heard wm).ResumesCompletion ∧ e.before.m.noob ≠ [] ∧
        (e.before.heard wm).peerState ≠ 2) ∨
      (wm.type = some 5 ∧ e.before.checkPeerId wm = .ok () ∧ e.before.MatchesNoobId wm))

/-- The step checks a MACp, and on success builds the association, with these keys. -/
def UsesKeys (e : Step c) (keym : DerivedKeys) : Prop :=
  ∃ wm, Receives e wm ∧ wm.type = some 6 ∧ e.before.checkPeerId wm = .ok () ∧
    e.before.m.keym = some keym

/-- The keys in use are those of the values held, whose JSON forms are MACed. -/
def KeysCurrent (_history : List (Step c)) (e : Step c) : Prop :=
  ∀ keym, UsesKeys e keym → keym = e.before.m.keys ∧ e.before.m.Mirrors

/-- Keys are used while the values held are those of the last derivation. -/
def HoldsSinceDerivation (history : List (Step c)) (e : Step c) : Prop :=
  (∃ keym, UsesKeys e keym) → ∀ d, LastOf DerivesKeys history d →
    d.before.m.held = e.before.m.held

theorem onDiscovery_keym (s : Server c) (draws : Draws c) (wm : Wire) :
    (s.onDiscovery draws wm).1.m.keym = s.m.keym ∨
      ((s.heard wm).ResumesCompletion ∧ s.m.noob ≠ [] ∧ (s.heard wm).peerState ≠ 2 ∧
        (s.onDiscovery draws wm).1 = (s.heard wm).derived) := by
  unfold onDiscovery
  dsimp only
  split
  · next resumes =>
    unfold startCompletion
    split
    · exact .inl rfl
    · next noob =>
      split
      · exact .inl rfl
      · next other => exact .inr ⟨resumes, by simpa [heard] using noob, other, rfl⟩
  · split
    · exact .inl rfl
    · split
      · exact .inl rfl
      · exact .inl rfl

theorem step_keym (s : Server c) (input : Input c) :
    ((s.step input).1.m.keym = s.m.keym ∧ ¬ DerivesKeys (entry step s input)) ∨
      (DerivesKeys (entry step s input) ∧ (s.step input).1.m.keym = some s.m.keys) := by
  -- The Server derives as it resumes and as it accepts a NoobId, and keeps the cache otherwise.
  by_cases derives : DerivesKeys (entry step s input)
  · right
    refine ⟨derives, ?_⟩
    obtain ⟨wm, ⟨draws, bytes, called, decoded, notice⟩, started | matched⟩ := derives
    · obtain ⟨type, resumes, noob, other⟩ := started
      rw [entry_input] at called
      subst called
      have held : (s.heard wm).m.noob ≠ [] := noob
      have after : (s.receive draws bytes).1 = (s.heard wm).derived := by
        rw [entry_before] at resumes other
        rw [receive_eq decoded]
        simp only [dispatch, notice, type, ↓reduceIte, onDiscovery, resumes, startCompletion,
          List.isEmpty_iff, held, other, buildCompletion]
      exact congrArg (fun t : Server c => t.m.keym) after
    · obtain ⟨type, named, matched⟩ := matched
      rw [entry_input] at called
      subst called
      rw [entry_before] at named matched
      have after : (s.receive draws bytes).1 = s.derived := by
        rw [receive_eq decoded]
        simp only [dispatch, notice, type, onNoobId, named, matched, if_true]
        rfl
      exact congrArg (fun t : Server c => t.m.keym) after
  · left
    refine ⟨?_, derives⟩
    rcases s.step_cases input with ⟨same, -⟩ | ⟨noob, -, -, -, -, after⟩ |
      ⟨draws, bytes, wm, out, rfl, decoded, -, effect⟩
    · rw [same]
    · rw [after]
      rfl
    · have received (notice : wm.errorCode = none) :
          Receives (entry step s (.receive draws bytes)) wm := ⟨draws, bytes, rfl, decoded, notice⟩
      rw [step] at effect ⊢
      generalize after : (s.receive draws bytes).1 = t at effect ⊢
      cases effect with
      | resumed notice type noob =>
        rw [← after, receive_eq decoded]
        simp only [dispatch, notice, type, ↓reduceIte]
        rcases s.onDiscovery_keym draws wm with same | ⟨resumes, some, other, -⟩
        · exact same
        · exact absurd ⟨wm, received notice, .inl ⟨type, resumes, some, other⟩⟩ derives
      | matched notice type named matched =>
        exact absurd ⟨wm, received notice, .inr ⟨type, named, matched⟩⟩ derives
      | _ => rfl

theorem Effect.mirrors (lawful : c.Lawful) {s t : Server c} {draws : Draws c} {wm : Wire}
    {out : Option Outcome} (effect : s.Effect draws wm t out) (mirrors : s.m.Mirrors) :
    t.m.Mirrors := by
  cases effect with
  | negotiated => exact ⟨.inr (lawful.parseB64_jstr _), mirrors.np, mirrors.noob⟩
  | exchanged notice type exchanges =>
    exact ⟨mirrors.ns, .inr (parseB64_get exchanges.nonce), mirrors.noob⟩
  | _ => exact ⟨mirrors.ns, mirrors.np, mirrors.noob⟩

/-- The cached keys come from the last derivation. -/
structure Cached (history : List (Step c)) (s : Server c) : Prop where
  keym : ∀ keym, s.m.keym = some keym → ∃ d, LastOf DerivesKeys history d ∧ keym = d.before.m.keys
  mirrors : s.m.Mirrors

theorem Cached.step (lawful : c.Lawful) (history : List (Step c)) (s : Server c) (input : Input c)
    (cached : Cached history s) :
    Cached (history ++ [entry Server.step s input]) (s.step input).1 := by
  constructor
  · intro keym found
    rcases s.step_keym input with ⟨same, other⟩ | ⟨derives, fresh⟩
    · rw [same] at found
      obtain ⟨d, last, keys⟩ := cached.keym keym found
      exact ⟨d, last.concat_other other, keys⟩
    · rw [fresh] at found
      exact ⟨_, LastOf.concat_self history derives, (Option.some.inj found).symm⟩
  · rcases s.step_cases input with ⟨same, -⟩ | ⟨noob, -, -, -, -, after⟩ |
      ⟨draws, bytes, wm, out, -, -, -, effect⟩
    · rw [same]
      exact cached.mirrors
    · rw [after]
      exact cached.mirrors.setNoob noob
    · exact effect.mirrors lawful cached.mirrors

theorem Cached.initial {s : Server c} (initial : s.Initial) : Cached [] s := by
  rcases initial with rfl | ⟨info, rfl⟩ <;>
    exact ⟨fun _ wrong => (nomatch wrong), .inl ⟨rfl, rfl⟩, .inl ⟨rfl, rfl⟩, .inl ⟨rfl, rfl⟩⟩

theorem keysCurrent_of_holds (lawful : c.Lawful) {s : Server c} (initial : s.Initial)
    (inputs : List (Input c)) (holds : EveryStep HoldsSinceDerivation (trace step s inputs)) :
    EveryStep KeysCurrent (trace step s inputs) := by
  refine EveryStep.of_invariant (fun history s input cached _ => cached.step lawful history s input)
    ?_ (Cached.initial initial) inputs holds
  intro history s input cached holds keym uses
  obtain ⟨d, last, rfl⟩ := cached.keym keym (by
    obtain ⟨wm, -, -, -, found⟩ := uses
    exact found)
  exact ⟨Method.keys_eq (holds ⟨_, uses⟩ d last), cached.mirrors⟩

end Server

/-! ## The Peer -/

namespace Peer

/-- The step derives keys, and checks a MACs and sends a MACp with them. -/
def DerivesKeys (e : Step c) : Prop :=
  ∃ wm, Receives e wm ∧ wm.eap = none ∧ wm.errorCode = none ∧ wm.type = some 6 ∧
    e.before.m.noob ≠ [] ∧ e.before.MatchesNoobId wm

/-- The step builds the association from the cached keys. -/
def TakesResult (e : Step c) : Prop := ∃ wm, Receives e wm ∧ wm.eap = some "success"

/-- The keys in use are those of the values held, whose JSON forms are MACed. -/
def KeysCurrent (_history : List (Step c)) (e : Step c) : Prop :=
  (DerivesKeys e → e.after.m.keym = some e.before.m.keys ∧ e.before.m.Mirrors) ∧
    (TakesResult e → e.before.m.keym = some e.before.m.keys ∧ e.before.m.Mirrors)

/-- The result comes after a derivation, while the values held are those of the last one. -/
def HoldsSinceDerivation (history : List (Step c)) (e : Step c) : Prop :=
  TakesResult e → (∃ d ∈ history, DerivesKeys d) ∧
    ∀ d, LastOf DerivesKeys history d → d.before.m.held = e.before.m.held

theorem step_keym (p : Peer c) (input : Input c) :
    ((p.step input).1.m.keym = p.m.keym ∧ ¬ DerivesKeys (entry step p input)) ∨
      (DerivesKeys (entry step p input) ∧ (p.step input).1.m.keym = some p.m.keys) := by
  by_cases derives : DerivesKeys (entry step p input)
  · right
    refine ⟨derives, ?_⟩
    obtain ⟨wm, ⟨draws, bytes, called, decoded⟩, result, notice, type, noob, matched⟩ := derives
    rw [entry_input] at called
    subst called
    rw [entry_before] at noob matched
    have after : (p.receive draws bytes).1 = p.derived := by
      have dispatched : p.dispatch draws wm = p.onCompletion wm := by
        simp [dispatch, result, notice, type]
      rw [receive_eq decoded, dispatched, onCompletion, if_neg (by simpa using noob),
        if_neg (not_not.mpr matched)]
      dsimp only
      split
      · rfl
      · rfl
    exact congrArg (fun q : Peer c => q.m.keym) after
  · left
    refine ⟨?_, derives⟩
    rcases p.step_cases input with ⟨same, -⟩ | ⟨noob, -, -, -, -, after⟩ |
      ⟨draws, bytes, wm, out, rfl, decoded, -, effect⟩
    · rw [same]
    · rw [after]
      rfl
    · have received : Receives (entry step p (.receive draws bytes)) wm :=
        ⟨draws, bytes, rfl, decoded⟩
      rw [step] at effect ⊢
      generalize (p.receive draws bytes).1 = q at effect ⊢
      cases effect with
      | refused result notice type noob matched =>
        exact absurd ⟨wm, received, result, notice, type, noob, matched⟩ derives
      | verified result notice type verifies =>
        exact absurd ⟨wm, received, result, notice, type, verifies.noob, verifies.noobId⟩ derives
      | _ => rfl

theorem Effect.mirrors (lawful : c.Lawful) {p q : Peer c} {draws : Draws c} {wm : Wire}
    {out : Option Outcome} (effect : p.Effect draws wm q out) (mirrors : p.m.Mirrors) :
    q.m.Mirrors := by
  have exchanged {suite : Suite} {z ns : Bytes} (exchanges : p.Exchanges draws wm suite z ns) :
      (p.exchanged wm suite draws z ns).m.Mirrors :=
    ⟨.inr (parseB64_get exchanges.nonce), .inr (lawful.parseB64_jstr _), mirrors.noob⟩
  cases effect with
  | stalled result notice type exchanges => exact exchanged exchanges
  | exchanged result notice type exchanges => exact exchanged exchanges
  | _ => exact ⟨mirrors.ns, mirrors.np, mirrors.noob⟩

/-- The cached keys come from the last derivation. -/
structure Cached (history : List (Step c)) (p : Peer c) : Prop where
  keym : ∀ keym, p.m.keym = some keym → ∃ d, LastOf DerivesKeys history d ∧ keym = d.before.m.keys
  empty : p.m.keym = none → ∀ d ∈ history, ¬ DerivesKeys d
  mirrors : p.m.Mirrors

theorem Cached.step (lawful : c.Lawful) (history : List (Step c)) (p : Peer c) (input : Input c)
    (cached : Cached history p) :
    Cached (history ++ [entry Peer.step p input]) (p.step input).1 := by
  constructor
  · intro keym found
    rcases p.step_keym input with ⟨same, other⟩ | ⟨derives, fresh⟩
    · rw [same] at found
      obtain ⟨d, last, keys⟩ := cached.keym keym found
      exact ⟨d, last.concat_other other, keys⟩
    · rw [fresh] at found
      exact ⟨_, LastOf.concat_self history derives, (Option.some.inj found).symm⟩
  · intro none d member
    rcases p.step_keym input with ⟨same, other⟩ | ⟨-, fresh⟩
    · rcases List.mem_append.mp member with old | new
      · exact cached.empty (same.symm.trans none) d old
      · rw [List.mem_singleton.mp new]
        exact other
    · rw [fresh] at none
      cases none
  · rcases p.step_cases input with ⟨same, -⟩ | ⟨noob, -, -, -, -, after⟩ |
      ⟨draws, bytes, wm, out, -, -, -, effect⟩
    · rw [same]
      exact cached.mirrors
    · rw [after]
      exact cached.mirrors.setNoob noob
    · exact effect.mirrors lawful cached.mirrors

theorem Cached.initial {p : Peer c} (initial : p.Initial) : Cached [] p := by
  rcases initial with rfl | ⟨info, rfl⟩ <;>
    exact ⟨fun _ wrong => (nomatch wrong), fun _ _ member => (List.not_mem_nil member).elim,
      .inl ⟨rfl, rfl⟩, .inl ⟨rfl, rfl⟩, .inl ⟨rfl, rfl⟩⟩

theorem keysCurrent_of_holds (lawful : c.Lawful) {p : Peer c} (initial : p.Initial)
    (inputs : List (Input c)) (holds : EveryStep HoldsSinceDerivation (trace step p inputs)) :
    EveryStep KeysCurrent (trace step p inputs) := by
  refine EveryStep.of_invariant (fun history p input cached _ => cached.step lawful history p input)
    ?_ (Cached.initial initial) inputs holds
  intro history p input cached holds
  constructor
  · intro derives
    rcases p.step_keym input with ⟨-, other⟩ | ⟨-, fresh⟩
    · exact absurd derives other
    · exact ⟨fresh, cached.mirrors⟩
  · intro takes
    obtain ⟨⟨d, member, derives⟩, same⟩ := holds takes
    cases found : p.m.keym with
    | none => exact absurd derives (cached.empty found d member)
    | some keym =>
      obtain ⟨d, last, rfl⟩ := cached.keym keym found
      exact ⟨found.trans (congrArg some (Method.keys_eq (same d last))), cached.mirrors⟩

end Peer

/-! ## An honest exchange, and one whose key exchange is repeated -/

namespace Exchange

theorem server_holdsSinceDerivation (lawful : c.Lawful) (x : Exchange c) {noob discovery : Bytes}
    {w : Wire} (long : noob.length = 16) (decoded : c.decodeWire discovery = some w)
    (notice : w.errorCode = none) (type : w.type = some 1) (peerState : w.peerState = some 2) :
    EveryStep Server.HoldsSinceDerivation
      (trace Server.step x.serverFresh (x.serverInputs noob discovery)) := by
  have steps := x.server_trace lawful long decoded notice type peerState
  have held {e : Server.Step c} (member : e ∈ trace Server.step x.serverFresh
      (x.serverInputs noob discovery)) (keyed : e.after.m.keym ≠ none) :
      e.before.m.held = (x.serverResumed noob w).m.held := by
    rw [steps] at member
    rcases x.server_keyed lawful long decoded notice type peerState member keyed with same | same
    · rw [same]
    · rw [same]
      rfl
  intro before middle after split uses d last
  have derived : d.before.m.held = (x.serverResumed noob w).m.held := by
    obtain ⟨earlier, later, rfl, derives, -⟩ := last
    have member : d ∈ trace Server.step x.serverFresh (x.serverInputs noob discovery) := by
      rw [split]
      simp
    refine held member ?_
    obtain ⟨first, input, rest, -, rfl⟩ := mem_trace Server.step member
    rcases Server.step_keym (run Server.step x.serverFresh first) input with ⟨-, other⟩ | ⟨-, fresh⟩
    · exact absurd derives other
    · rw [entry_after, fresh]
      exact Option.some_ne_none _
  have used : middle.before.m.held = (x.serverResumed noob w).m.held := by
    have member : middle ∈ trace Server.step x.serverFresh (x.serverInputs noob discovery) := by
      rw [split]
      simp
    obtain ⟨keym, wm, received, six, -⟩ := uses
    rw [steps] at member
    rw [(x.server_receives lawful decoded type member received).2 six]
    rfl
  exact derived.trans used.symm

def withPeerNonce (x : Exchange c) (nonce : ByteArr 32) : Exchange c :=
  { x with peerDraws := { x.peerDraws with nonce := nonce } }

def serverRekeyed (x : Exchange c) (noob : Bytes) (w : Wire) (nonce : ByteArr 32) : Server c :=
  (x.serverRegistered noob w).exchanged (x.withPeerNonce nonce).peerKeyed.keyExchangeResponse x.z
    nonce.bytes

theorem server_rekeys (lawful : c.Lawful) (x : Exchange c) (noob : Bytes) (w : Wire)
    (nonce : ByteArr 32) (draws : Draws c) :
    ((x.serverRegistered noob w).receive draws
      (c.encodeWire (x.withPeerNonce nonce).peerKeyed.keyExchangeResponse)).1 =
        x.serverRekeyed noob w nonce :=
  congrArg Prod.fst (Server.receive_exchanges ((x.withPeerNonce nonce).decode_peerKey lawful) rfl rfl
    ((x.withPeerNonce nonce).exchanges_peerKey lawful (s := x.serverRegistered noob w) rfl rfl))

end Exchange

/-! ## The result -/

/-- In runs that hold the values of the last derivation when keys are used, the
keys are those of the values held. -/
theorem keys_belong_to_current_exchange (lawful : c.Lawful) :
    (∀ (s : Server c) (inputs : List (Server.Input c)), s.Initial →
      EveryStep Server.HoldsSinceDerivation (trace Server.step s inputs) →
      EveryStep Server.KeysCurrent (trace Server.step s inputs)) ∧
    (∀ (p : Peer c) (inputs : List (Peer.Input c)), p.Initial →
      EveryStep Peer.HoldsSinceDerivation (trace Peer.step p inputs) →
      EveryStep Peer.KeysCurrent (trace Peer.step p inputs)) :=
  ⟨fun _ inputs initial => Server.keysCurrent_of_holds lawful initial inputs,
    fun _ inputs initial => Peer.keysCurrent_of_holds lawful initial inputs⟩

/-- In the exchange of the reference parties the keys are current. -/
theorem keys_belong_to_reference_exchange : EveryStep Server.KeysCurrent
    (trace Server.step Reference.exchange.serverFresh (Reference.exchange.serverInputs
      Reference.noob (Reference.crates.encodeWire Reference.discovery))) :=
  (keys_belong_to_current_exchange Reference.lawful).1 _ _ (.inr ⟨_, rfl⟩)
    (Reference.exchange.server_holdsSinceDerivation Reference.lawful Reference.length_noob
      Reference.decode_discovery rfl rfl rfl)

/-- After a second key exchange a MACp is checked with the keys of the first. -/
theorem stale_keys_used : ¬ EveryStep Server.KeysCurrent
    (trace Server.step Reference.exchange.serverFresh (Reference.exchange.serverInputs
        Reference.noob (Reference.crates.encodeWire Reference.discovery) ++
      [.receive (Reference.draws .server) (Reference.crates.encodeWire
          (Reference.exchange.withPeerNonce
            (Reference.draws .server).nonce).peerKeyed.keyExchangeResponse),
        .receive (Reference.draws .server) (Reference.crates.encodeWire
          (Reference.exchange.peerArmed Reference.noob).completionResponse)])) := by
  intro every
  have registers := Reference.exchange.server_run Reference.lawful Reference.length_noob
    Reference.decode_discovery rfl rfl rfl
  have rekeys := Reference.exchange.server_rekeys Reference.lawful Reference.noob
    Reference.discovery (Reference.draws .server).nonce (Reference.draws .server)
  rw [trace_append, registers] at every
  simp only [trace, Server.step, rekeys] at every
  let last : Server.Step Reference.crates := entry Server.step
    (Reference.exchange.serverRekeyed Reference.noob Reference.discovery
      (Reference.draws .server).nonce)
    (.receive (Reference.draws .server) (Reference.crates.encodeWire
      (Reference.exchange.peerArmed Reference.noob).completionResponse))
  have uses : Server.UsesKeys last (Reference.exchange.serverArmed Reference.noob).m.keys :=
    ⟨_, ⟨_, _, rfl, Reference.exchange.decode_macp Reference.lawful Reference.noob, rfl⟩, rfl,
      Server.checkPeerId_named Reference.lawful rfl, rfl⟩
  have same := (every _ last [] (List.append_cons _ _ [last]) _ uses).1
  have heads := congrArg (fun keys : DerivedKeys => keys.msk.bytes.head?) same
  revert heads
  exact (by decide +kernel : (Reference.exchange.serverArmed Reference.noob).m.keys.msk.bytes.head? ≠
    (Reference.exchange.serverRekeyed Reference.noob Reference.discovery
      (Reference.draws .server).nonce).m.keys.msk.bytes.head?)

end OpenPair
