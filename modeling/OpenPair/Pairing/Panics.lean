import OpenPair.Pairing.Exchange

/-! Which messages make a machine panic.

With configured texts that are JSON, every text the machines embed is JSON too,
so only the three unwraps on what an earlier message should have left can fail.
-/

set_option autoImplicit false

namespace OpenPair

open Transition

variable {c : Crates}

namespace Server

/-- A message that reaches an unwrap on a value no earlier message has left. -/
def Unready (s : Server c) (wm : Wire) : Prop :=
  wm.errorCode = none ∧ s.checkPeerId wm = .ok () ∧
    ((wm.type = some 3 ∧ (c.readJwk (get wm.pkp)).isSome = true ∧ s.m.keypair = none) ∨
      (wm.type = some 6 ∧ s.m.keym = none))

section

variable (lawful : c.Lawful)
include lawful

theorem buildCompletion_answers (s : Server c) : s.buildCompletion.2 ≠ none := by
  simp [buildCompletion, lawful.raw_jstr]

theorem startCompletion_answers (s : Server c) : s.startCompletion.2 ≠ none := by
  unfold startCompletion
  split
  · simp
  · split
    · simp [lawful.raw_jstr]
    · exact buildCompletion_answers lawful s

theorem buildNegotiation_answers (s : Server c) (draws : Draws c) (text : c.Text s.serverInfo) :
    (s.buildNegotiation draws).2 ≠ none := by
  simp [buildNegotiation, offered, lawful.raw_jstr, lawful.raw_ints,
    lawful.raw_int, text.raw_eq]

theorem onDiscovery_answers (s : Server c) (draws : Draws c) (wm : Wire)
    (text : c.Text s.serverInfo) : (s.onDiscovery draws wm).2 ≠ none := by
  unfold onDiscovery
  dsimp only
  split
  · exact startCompletion_answers lawful _
  split
  · simp [buildWaiting, lawful.raw_jstr]
  split
  · exact buildNegotiation_answers lawful _ draws text
  · simp

theorem onNegotiation_answers (s : Server c) (draws : Draws c) (wm : Wire) :
    (s.onNegotiation draws wm).2 ≠ none := by
  unfold onNegotiation
  split
  · simp
  · dsimp only
    split
    · simp
    split
    · simp
    · next suite =>
      obtain ⟨-, known⟩ := not_or.mp suite
      obtain ⟨suite, known⟩ := Option.ne_none_iff_exists'.mp known
      split
      · simp
      · unfold buildKeyExchange
        rw [show (s.negotiated wm _ _).m.suite = some suite from known]
        simp [keyed, lawful.raw_jstr, lawful.raw_jwk]

theorem onNoobId_answers (s : Server c) (wm : Wire) : (s.onNoobId wm).2 ≠ none := by
  unfold onNoobId
  split
  · simp
  · split
    · exact buildCompletion_answers lawful s
    · simp

end

theorem onKeyExchange_panics_iff (s : Server c) (wm : Wire) :
    (s.onKeyExchange wm).2 = none ↔
      s.checkPeerId wm = .ok () ∧ (c.readJwk (get wm.pkp)).isSome = true ∧ s.m.keypair = none := by
  unfold onKeyExchange
  split
  · next refused => simp [refused]
  · next same =>
    rw [same]
    split
    · next key => simp [key]
    · next jwk key =>
      rw [key]
      split
      · next missing => simp [missing]
      · next keypair held =>
        rw [held]
        refine iff_of_false ?_ (by simp)
        split
        · simp
        split
        · simp
        split <;> simp

theorem onCompletion_panics_iff (s : Server c) (wm : Wire) :
    (s.onCompletion wm).2 = none ↔ s.checkPeerId wm = .ok () ∧ s.m.keym = none := by
  unfold onCompletion
  split
  · next refused => simp [refused]
  · next same =>
    rw [same]
    dsimp only
    split
    · next missing => simp [missing]
    · next keym cached =>
      rw [cached]
      refine iff_of_false ?_ (by simp)
      split <;> simp

theorem dispatch_panics_iff (lawful : c.Lawful) (s : Server c) (draws : Draws c) (wm : Wire)
    (text : c.Text s.serverInfo) : (s.dispatch draws wm).2 = none ↔ s.Unready wm := by
  unfold dispatch Unready
  split
  · next code notice => simp [notice]
  · next notice =>
    rw [notice]
    split
    · next type =>
      exact iff_of_false (onDiscovery_answers lawful s draws wm text) (by simp [type])
    split
    · next type => exact iff_of_false (onNegotiation_answers lawful s draws wm) (by simp [type])
    split
    · next type => simp [onKeyExchange_panics_iff, type]
    split
    · next type => exact iff_of_false (by simp [doneFailure]) (by simp [type])
    split
    · next type => exact iff_of_false (onNoobId_answers lawful s wm) (by simp [type])
    split
    · next type => simp [onCompletion_panics_iff, type]
    · next three _ _ six =>
      refine iff_of_false (by simp) fun unready => ?_
      exact unready.2.2.elim (fun key => three key.1) (fun mac => six mac.1)

-- `Server::new()`, with or without a serialised identity.
def Configured (s : Server c) : Prop :=
  s = new c ∨ ∃ info, s = (new c).withServerInfo (c.jsonPairingInfo info)

theorem Configured.text {s : Server c} (configured : s.Configured) (lawful : c.Lawful) :
    c.Text s.serverInfo := by
  rcases configured with rfl | ⟨info, rfl⟩
  · exact lawful.text_obj
  · exact lawful.text_info info

end Server

namespace Peer

/-- A Type 3 that reaches the unwrap on the suite no Type 2 has chosen. -/
def Unready (p : Peer c) (wm : Wire) : Prop :=
  wm.eap = none ∧ wm.errorCode = none ∧ wm.type = some 3 ∧
    (c.readJwk (get wm.pks)).isSome = true ∧ (parseB64 c wm.ns).isSome = true ∧ p.m.suite = none

section

variable (lawful : c.Lawful)
include lawful

theorem onNegotiation_answers (p : Peer c) (wm : Wire) (text : c.Text p.peerInfo) :
    (p.onNegotiation wm).2 ≠ none := by
  unfold onNegotiation
  split
  · simp
  split
  · simp
  split
  · simp
  split
  · simp
  · simp [lawful.raw_jstr, lawful.raw_int, text.raw_eq]

theorem onNoobId_answers (p : Peer c) : p.onNoobId.2 ≠ none := by
  unfold onNoobId
  split
  · simp
  · simp [lawful.raw_jstr]

theorem onCompletion_answers (p : Peer c) (wm : Wire) : (p.onCompletion wm).2 ≠ none := by
  unfold onCompletion
  split
  · simp
  split
  · simp
  · dsimp only
    split
    · simp
    · simp [lawful.raw_jstr]

theorem onDiscovery_answers (p : Peer c) : p.onDiscovery.2 ≠ none := by
  unfold onDiscovery
  simp only [lawful.raw_jstr]
  split <;> simp

theorem onKeyExchange_panics_iff (p : Peer c) (draws : Draws c) (wm : Wire) :
    (p.onKeyExchange draws wm).2 = none ↔
      (c.readJwk (get wm.pks)).isSome = true ∧ (parseB64 c wm.ns).isSome = true ∧
        p.m.suite = none := by
  unfold onKeyExchange
  split
  · next key => simp [key]
  · next jwk key =>
    rw [key]
    split
    · next nonce => simp [nonce]
    · next ns nonce =>
      rw [nonce]
      split
      · next missing => simp [missing]
      · next suite chosen =>
        rw [chosen]
        refine iff_of_false ?_ (by simp)
        split
        · simp
        · simp [exchanged, lawful.raw_jstr, lawful.raw_jwk]

theorem dispatch_panics_iff (p : Peer c) (draws : Draws c) (wm : Wire) (text : c.Text p.peerInfo) :
    (p.dispatch draws wm).2 = none ↔ p.Unready wm := by
  unfold dispatch Unready
  split
  · next eap result =>
    refine iff_of_false ?_ (by simp [result])
    unfold onResult
    split <;> simp
  · next result =>
    rw [result]
    split
    · next code notice => simp [notice]
    · next notice =>
      rw [notice]
      split
      · next type => exact iff_of_false (onDiscovery_answers lawful p) (by simp [type])
      split
      · next type => exact iff_of_false (onNegotiation_answers lawful p wm text) (by simp [type])
      split
      · next type => simp [onKeyExchange_panics_iff lawful, type]
      split
      · next type => exact iff_of_false (by simp [onWaiting, lawful.raw_jstr]) (by simp [type])
      split
      · next type => exact iff_of_false (onNoobId_answers lawful p) (by simp [type])
      split
      · next type => exact iff_of_false (onCompletion_answers lawful p wm) (by simp [type])
      · next three _ _ _ => exact iff_of_false (by simp) fun unready => three unready.2.2.1

end

-- `Peer::new()`, with or without a serialised identity.
def Configured (p : Peer c) : Prop :=
  p = new c ∨ ∃ info, p = (new c).withPeerInfo (c.jsonPairingInfo info)

theorem Configured.text {p : Peer c} (configured : p.Configured) (lawful : c.Lawful) :
    c.Text p.peerInfo := by
  rcases configured with rfl | ⟨info, rfl⟩
  · exact lawful.text_obj
  · exact lawful.text_info info

end Peer

/-- In every state a machine can reach, `receive` panics on exactly the
messages that reach an unwrap before what it needs. -/
theorem receive_panics_iff (lawful : c.Lawful) :
    (∀ (s : Server c) (inputs : List (Server.Input c)) (draws : Draws c) (bytes : Bytes),
      s.Configured →
        (((run Server.step s inputs).receive draws bytes).2 = none ↔
          ∃ wm, c.decodeWire bytes = some wm ∧ (run Server.step s inputs).Unready wm)) ∧
      ∀ (p : Peer c) (inputs : List (Peer.Input c)) (draws : Draws c) (bytes : Bytes),
        p.Configured →
          (((run Peer.step p inputs).receive draws bytes).2 = none ↔
            ∃ wm, c.decodeWire bytes = some wm ∧ (run Peer.step p inputs).Unready wm) := by
  constructor
  · intro s inputs draws bytes configured
    have text : c.Text (run Server.step s inputs).serverInfo := by
      rw [Server.serverInfo_run]
      exact configured.text lawful
    unfold Server.receive
    cases decoded : c.decodeWire bytes with
    | none => simp
    | some wm => simpa using Server.dispatch_panics_iff lawful _ draws wm text
  · intro p inputs draws bytes configured
    have text : c.Text (run Peer.step p inputs).peerInfo := by
      rw [Peer.peerInfo_run]
      exact configured.text lawful
    unfold Peer.receive
    cases decoded : c.decodeWire bytes with
    | none => simp
    | some wm => simpa using Peer.dispatch_panics_iff lawful _ draws wm text

/-- A fresh Server answers a Type 1 and panics on a Type 6. -/
theorem receive_panics_iff_fresh :
    ((Server.new Reference.crates).receive (Reference.draws .server)
      (Reference.crates.encodeWire { type := some 1 })).2 ≠ none ∧
    ((Server.new Reference.crates).receive (Reference.draws .server)
      (Reference.crates.encodeWire { type := some 6 })).2 = none := by
  have panics := (receive_panics_iff Reference.lawful).1 (Server.new Reference.crates) []
    (Reference.draws .server)
  constructor
  · rw [ne_eq, show Server.new Reference.crates = run Server.step (Server.new Reference.crates) []
      from rfl, panics _ (.inl rfl)]
    rintro ⟨wm, decoded, -, -, unready⟩
    rw [Reference.lawful.wire _ (by simp [Wire.raws])] at decoded
    rw [← Option.some.inj decoded] at unready
    rcases unready with ⟨wrong, -⟩ | ⟨wrong, -⟩ <;> cases wrong
  · exact (panics _ (.inl rfl)).mpr
      ⟨_, Reference.lawful.wire _ (by simp [Wire.raws]), rfl, rfl, .inr ⟨rfl, rfl⟩⟩

/-- One message is enough. -/
theorem fresh_receive_panics :
    ¬ ∀ (inputs : List (Server.Input Reference.crates)) (bytes : Bytes),
      ((run Server.step (Server.new Reference.crates) inputs).receive
        (Reference.draws .server) bytes).2 ≠ none := by
  intro answers
  refine answers [] (Reference.crates.encodeWire { type := some 6 }) ?_
  have decoded : Reference.crates.decodeWire (Reference.crates.encodeWire { type := some 6 }) =
      some { type := some 6 } := Reference.lawful.wire _ (by simp [Wire.raws])
  rw [run, Server.receive, decoded]
  rfl

end OpenPair
