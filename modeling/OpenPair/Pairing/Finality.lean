import OpenPair.Pairing.Exchange

/-! Whether the registered state is final.

The handlers write the state, the negotiated texts and the association without
looking at the state first. A registered machine keeps what it holds exactly as
long as no message that passes a handler's checks replaces it.
-/

set_option autoImplicit false

namespace OpenPair

open Transition

variable {c : Crates}

/-! ## The Server -/

namespace Server

def Keeps (s t : Server c) : Prop :=
  (s.state = .registered → t.state = .registered) ∧ t.assoc = s.assoc ∧ t.peerInfo = s.peerInfo

/-- A message on which a registered Server does not keep what it holds. -/
def Replaces (s : Server c) (wm : Wire) : Prop :=
  wm.errorCode = none ∧
    ((wm.type = some 2 ∧ (∃ csp dirp suite, s.Negotiates wm csp dirp ∧
        Suite.fromId (asU8 csp) = some suite) ∧ ensureObj (get wm.peerInfo) ≠ s.peerInfo) ∨
      (wm.type = some 3 ∧ ∃ keypair z np, s.Exchanges wm keypair z np) ∨
      (wm.type = some 6 ∧ ∃ keym, s.Verifies wm keym ∧ s.assoc ≠ some (s.finish keym)))

theorem Effect.keeps {s t : Server c} {draws : Draws c} {wm : Wire} {out : Option Outcome}
    (effect : s.Effect draws wm t out) (harmless : ¬ s.Replaces wm) : s.Keeps t := by
  cases effect with
  | @negotiated csp dirp suite _ notice type negotiates known =>
    refine ⟨id, rfl, ?_⟩
    by_contra differs
    exact harmless ⟨notice, .inl ⟨type, ⟨csp, dirp, suite, negotiates, known⟩, differs⟩⟩
  | exchanged notice type exchanges =>
    exact absurd ⟨notice, .inr (.inl ⟨type, _, _, _, exchanges⟩)⟩ harmless
  | @registered keym notice type verifies =>
    refine ⟨fun _ => rfl, ?_, rfl⟩
    by_contra differs
    exact harmless ⟨notice, .inr (.inr ⟨type, keym, verifies, fun same => differs same.symm⟩)⟩
  | _ => exact ⟨id, rfl, rfl⟩

theorem not_keeps_of_replaces {s : Server c} {draws : Draws c} {bytes : Bytes} {wm : Wire}
    (decoded : c.decodeWire bytes = some wm) (registered : s.state = .registered)
    (replaces : s.Replaces wm) : ¬ s.Keeps (s.receive draws bytes).1 := by
  rintro ⟨state, assoc, info⟩
  rcases replaces with ⟨notice, ⟨type, ⟨csp, dirp, suite, negotiates, known⟩, differs⟩ |
    ⟨type, keypair, z, np, exchanges⟩ | ⟨type, keym, verifies, differs⟩⟩
  · rw [receive_negotiates_fst decoded notice type negotiates known] at info
    exact differs info
  · rw [receive_exchanges decoded notice type exchanges] at state
    exact absurd (state registered) (by simp [Server.exchanged])
  · rw [receive_verifies decoded notice type verifies] at assoc
    exact differs assoc.symm

/-- Once registered, the Server stays registered and keeps its association and
the peer's text over every further stretch of the run. -/
def RegisteredIsFinal (s : Server c) (inputs : List (Input c)) : Prop :=
  ∀ first middle rest, inputs = first ++ (middle ++ rest) →
    (run step s first).state = .registered →
      (run step s first).Keeps (run step s (first ++ middle))

def Undisturbed (_history : List (Step c)) (e : Step c) : Prop :=
  e.before.state = .registered → ∀ draws bytes wm, e.input = .receive draws bytes →
    c.decodeWire bytes = some wm → ¬ e.before.Replaces wm

theorem keeps_step_iff (s : Server c) (input : Input c) (registered : s.state = .registered) :
    s.Keeps (s.step input).1 ↔ ∀ draws bytes wm, input = .receive draws bytes →
      c.decodeWire bytes = some wm → ¬ s.Replaces wm := by
  constructor
  · rintro keeps draws bytes wm rfl decoded replaces
    exact not_keeps_of_replaces decoded registered replaces keeps
  · intro harmless
    rcases s.step_cases input with ⟨same, -⟩ | ⟨noob, -, -, -, -, after⟩ |
      ⟨draws, bytes, wm, out, called, decoded, -, effect⟩
    · rw [same]
      exact ⟨id, rfl, rfl⟩
    · rw [after]
      exact ⟨id, rfl, rfl⟩
    · exact effect.keeps (harmless draws bytes wm called decoded)

theorem registeredIsFinal_iff (s : Server c) (inputs : List (Input c)) :
    s.RegisteredIsFinal inputs ↔ EveryStep Undisturbed (trace step s inputs) := by
  have stable := EveryStep.stable_iff step (P := fun s : Server c => s.state = .registered)
    (R := fun s t => s.Keeps t) (fun _ => ⟨id, rfl, rfl⟩)
    (fun first second => ⟨second.1 ∘ first.1, second.2.1.trans first.2.1, second.2.2.trans first.2.2⟩)
    (fun keeps registered => keeps.1 registered) s inputs
  rw [RegisteredIsFinal, ← stable]
  constructor
  · intro every before middle after split registered
    obtain ⟨first, input, rest, -, -, rfl, -⟩ := trace_split step split
    exact (keeps_step_iff _ input registered).mp (every _ _ _ split registered)
  · intro every before middle after split registered
    obtain ⟨first, input, rest, -, -, rfl, -⟩ := trace_split step split
    exact (keeps_step_iff _ input registered).mpr (every _ _ _ split registered)

end Server

/-! ## The Peer -/

namespace Peer

def Keeps (p q : Peer c) : Prop :=
  (p.state = .registered → q.state = .registered) ∧ q.assoc = p.assoc ∧
    q.serverInfo = p.serverInfo

/-- A message on which a registered Peer does not keep what it holds. -/
def Replaces (p : Peer c) (draws : Draws c) (wm : Wire) : Prop :=
  (wm.eap = some "success" ∧ p.assoc ≠ some p.finish) ∨
    (wm.eap = none ∧ wm.errorCode = none ∧
      ((wm.type = some 2 ∧ (∃ peerId verp csp dirp, p.Negotiates wm peerId verp csp dirp) ∧
          ensureObj (get wm.serverInfo) ≠ p.serverInfo) ∨
        (wm.type = some 3 ∧ ∃ suite z ns, p.Exchanges draws wm suite z ns)))

theorem Effect.keeps {p q : Peer c} {draws : Draws c} {wm : Wire} {out : Option Outcome}
    (effect : p.Effect draws wm q out) (harmless : ¬ p.Replaces draws wm) : p.Keeps q := by
  cases effect with
  | registered result =>
    refine ⟨fun _ => rfl, ?_, rfl⟩
    by_contra differs
    exact harmless (.inl ⟨result, fun same => differs same.symm⟩)
  | negotiated result notice type negotiates =>
    refine ⟨id, rfl, ?_⟩
    by_contra differs
    exact harmless (.inr ⟨result, notice, .inl ⟨type, ⟨_, _, _, _, negotiates⟩, differs⟩⟩)
  | exchanged result notice type exchanges =>
    exact absurd (.inr ⟨result, notice, .inr ⟨type, _, _, _, exchanges⟩⟩) harmless
  | _ => exact ⟨id, rfl, rfl⟩

theorem not_keeps_of_replaces (lawful : c.Lawful) {p : Peer c} {draws : Draws c} {bytes : Bytes}
    {wm : Wire} (decoded : c.decodeWire bytes = some wm) (registered : p.state = .registered)
    (replaces : p.Replaces draws wm) : ¬ p.Keeps (p.receive draws bytes).1 := by
  rintro ⟨state, assoc, info⟩
  rcases replaces with ⟨result, differs⟩ | ⟨result, notice,
    ⟨type, ⟨peerId, verp, csp, dirp, negotiates⟩, differs⟩ | ⟨type, suite, z, ns, exchanges⟩⟩
  · rw [receive_success decoded result] at assoc
    exact differs assoc.symm
  · rw [receive_negotiates_fst decoded result notice type negotiates] at info
    exact differs info
  · rw [receive_exchanges lawful decoded result notice type exchanges] at state
    exact absurd (state registered) (by simp)

/-- Once registered, the Peer stays registered and keeps its association and
the server's text over every further stretch of the run. -/
def RegisteredIsFinal (p : Peer c) (inputs : List (Input c)) : Prop :=
  ∀ first middle rest, inputs = first ++ (middle ++ rest) →
    (run step p first).state = .registered →
      (run step p first).Keeps (run step p (first ++ middle))

def Undisturbed (_history : List (Step c)) (e : Step c) : Prop :=
  e.before.state = .registered → ∀ draws bytes wm, e.input = .receive draws bytes →
    c.decodeWire bytes = some wm → ¬ e.before.Replaces draws wm

theorem keeps_step_iff (lawful : c.Lawful) (p : Peer c) (input : Input c)
    (registered : p.state = .registered) :
    p.Keeps (p.step input).1 ↔ ∀ draws bytes wm, input = .receive draws bytes →
      c.decodeWire bytes = some wm → ¬ p.Replaces draws wm := by
  constructor
  · rintro keeps draws bytes wm rfl decoded replaces
    exact not_keeps_of_replaces lawful decoded registered replaces keeps
  · intro harmless
    rcases p.step_cases input with ⟨same, -⟩ | ⟨noob, -, waits, -⟩ |
      ⟨draws, bytes, wm, out, called, decoded, -, effect⟩
    · rw [same]
      exact ⟨id, rfl, rfl⟩
    · rw [registered] at waits
      cases waits
    · exact effect.keeps (harmless draws bytes wm called decoded)

theorem registeredIsFinal_iff (lawful : c.Lawful) (p : Peer c) (inputs : List (Input c)) :
    p.RegisteredIsFinal inputs ↔ EveryStep Undisturbed (trace step p inputs) := by
  have stable := EveryStep.stable_iff step (P := fun p : Peer c => p.state = .registered)
    (R := fun p q => p.Keeps q) (fun _ => ⟨id, rfl, rfl⟩)
    (fun first second => ⟨second.1 ∘ first.1, second.2.1.trans first.2.1, second.2.2.trans first.2.2⟩)
    (fun keeps registered => keeps.1 registered) p inputs
  rw [RegisteredIsFinal, ← stable]
  constructor
  · intro every before middle after split registered
    obtain ⟨first, input, rest, -, -, rfl, -⟩ := trace_split step split
    exact (keeps_step_iff lawful _ input registered).mp (every _ _ _ split registered)
  · intro every before middle after split registered
    obtain ⟨first, input, rest, -, -, rfl, -⟩ := trace_split step split
    exact (keeps_step_iff lawful _ input registered).mpr (every _ _ _ split registered)

end Peer

/-! ## The result -/

/-- In every run from a new machine, the registered state is final exactly when
no message replaces what the registered machine holds. -/
theorem registered_is_final_iff (lawful : c.Lawful) :
    (∀ (s : Server c) (inputs : List (Server.Input c)), s.Initial →
      (s.RegisteredIsFinal inputs ↔ EveryStep Server.Undisturbed (trace Server.step s inputs))) ∧
    (∀ (p : Peer c) (inputs : List (Peer.Input c)), p.Initial →
      (p.RegisteredIsFinal inputs ↔ EveryStep Peer.Undisturbed (trace Peer.step p inputs))) :=
  ⟨fun s inputs _ => s.registeredIsFinal_iff inputs,
    fun p inputs _ => p.registeredIsFinal_iff lawful inputs⟩

/-- An exchange that ends in the registered state, and a Discovery response after it,
which is answered. -/
theorem registered_is_final_exchange :
    Reference.exchange.serverFresh.RegisteredIsFinal
      (Reference.exchange.serverInputs Reference.noob
          (Reference.crates.encodeWire Reference.discovery) ++
        [.receive Reference.exchange.serverDraws
          (Reference.crates.encodeWire Reference.discovery)]) := by
  refine ((registered_is_final_iff Reference.lawful).1 Reference.exchange.serverFresh _
    (.inr ⟨_, rfl⟩)).mpr ?_
  rw [trace_append]
  refine EveryStep.concat.mpr ⟨?_, ?_⟩
  · -- Before its last message the Server is not registered.
    intro before middle after split registered
    have member : middle ∈ trace Server.step Reference.exchange.serverFresh
        (Reference.exchange.serverInputs Reference.noob
          (Reference.crates.encodeWire Reference.discovery)) := by
      rw [split]
      simp
    exact absurd registered (Reference.exchange.server_unregistered Reference.lawful
      Reference.length_noob Reference.decode_discovery rfl rfl rfl member)
  · rintro - draws bytes wm called decoded
    cases called
    rw [Reference.decode_discovery] at decoded
    cases decoded
    rintro ⟨-, ⟨type, -⟩ | ⟨type, -⟩ | ⟨type, -⟩⟩ <;> cases type

/-- A replayed key exchange takes a registered Server back to Waiting. -/
theorem replayed_key_exchange_unregisters :
    ¬ Reference.exchange.serverFresh.RegisteredIsFinal
      (Reference.exchange.serverInputs Reference.noob
          (Reference.crates.encodeWire Reference.discovery) ++
        [.receive Reference.exchange.serverDraws (Reference.crates.encodeWire
          Reference.exchange.peerKeyed.keyExchangeResponse)]) := by
  intro final
  have registers := Reference.exchange.server_run Reference.lawful Reference.length_noob
    Reference.decode_discovery rfl rfl rfl
  have kept := (final _ _ [] (by rw [List.append_nil]) (by rw [registers]; rfl)).1
  rw [run_append, registers] at kept
  have exchanges := Reference.exchange.exchanges_peerKey Reference.lawful
    (s := Reference.exchange.serverRegistered Reference.noob Reference.discovery) rfl rfl
  have state := kept rfl
  rw [run, run, Server.step, Server.receive_exchanges
    (Reference.exchange.decode_peerKey Reference.lawful) rfl rfl exchanges] at state
  cases state

end OpenPair
