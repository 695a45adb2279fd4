import OpenPair.Pairing.Server
import OpenPair.Pairing.Peer

/-! Runs of one machine: any sequence of calls, on any bytes and any random draws. -/

set_option autoImplicit false

namespace OpenPair

open Transition

variable {c : Crates}

namespace Server

variable (c) in
inductive Input where
  | start
  | oobOutputWith (noob : Bytes)
  | receive (draws : Draws c) (input : Bytes)

inductive Output where
  | sent (message : Bytes)
  | oob (accepted : Bool)
  | received (out : Option Outcome)
  deriving DecidableEq

def step (s : Server c) : Input c → Server c × Output
  | .start => (s, .sent s.start)
  | .oobOutputWith noob => ((s.oobOutputWith noob).1, .oob (s.oobOutputWith noob).2)
  | .receive draws input => ((s.receive draws input).1, .received (s.receive draws input).2)

-- `Server::new()`, with or without a ServerInfo.
def Initial (s : Server c) : Prop := s = new c ∨ ∃ info, s = (new c).withServerInfo info

variable (c) in
abbrev Step := Entry (Server c) (Input c) Output

/-- The step received this message, which is not an error notification. -/
def Receives (e : Step c) (wm : Wire) : Prop :=
  ∃ draws input, e.input = .receive draws input ∧ c.decodeWire input = some wm ∧
    wm.errorCode = none

theorem Receives.unique {s : Server c} {draws : Draws c} {bytes : Bytes} {wm w : Wire}
    (received : Receives (entry step s (.receive draws bytes)) wm)
    (decoded : c.decodeWire bytes = some w) : wm = w := by
  obtain ⟨_, _, same, decoded', -⟩ := received
  cases same
  exact Option.some.inj (decoded'.symm.trans decoded)

def AcceptsOob (e : Step c) (noob : Bytes) : Prop :=
  e.input = .oobOutputWith noob ∧ e.output = .oob true

def CompletesKeyExchange (e : Step c) : Prop :=
  ∃ wm keypair z np, Receives e wm ∧ wm.type = some 3 ∧ e.before.Exchanges wm keypair z np

def ReportsSuccess (e : Step c) : Prop :=
  ∃ out, e.output = .received (some out) ∧ out.success = true

theorem receive_effect (s : Server c) (draws : Draws c) (input : Bytes) :
    (s.receive draws input = (s, some (fail c "malformed JSON"))) ∨
      ∃ wm, c.decodeWire input = some wm ∧
        s.Effect draws wm (s.receive draws input).1 (s.receive draws input).2 := by
  unfold receive
  cases decoded : c.decodeWire input with
  | none => exact .inl rfl
  | some wm => exact .inr ⟨wm, rfl, s.dispatch_effect draws wm⟩

theorem step_cases (s : Server c) (input : Input c) :
    ((s.step input).1 = s ∧ ¬ ReportsSuccess (entry step s input)) ∨
      (∃ noob, AcceptsOob (entry step s input) noob ∧ s.state = .waiting ∧ noob.length = 16 ∧
        (s.dirp = 2 ∨ s.dirp = 3) ∧ (s.step input).1 = { s with m := s.m.setNoob noob }) ∨
      ∃ draws bytes wm out, input = .receive draws bytes ∧ c.decodeWire bytes = some wm ∧
        (s.step input).2 = .received out ∧ s.Effect draws wm (s.step input).1 out := by
  cases input with
  | start => exact .inl ⟨rfl, fun ⟨_, same, _⟩ => by cases same⟩
  | oobOutputWith noob =>
    cases accepted : oobRefusal s.state s.dirp noob with
    | none =>
      have outcome := oobOutputWith_accepted accepted
      obtain ⟨waits, direction, long⟩ := (oobRefusal_eq_none _ _ _).mp accepted
      exact .inr (.inl ⟨noob, ⟨rfl, congrArg Output.oob (congrArg Prod.snd outcome)⟩, waits, long,
        direction, congrArg Prod.fst outcome⟩)
    | some e =>
      exact .inl ⟨congrArg Prod.fst (oobOutputWith_refused accepted), fun ⟨_, same, _⟩ => by cases same⟩
  | receive draws bytes =>
    rcases s.receive_effect draws bytes with malformed | ⟨wm, decoded, effect⟩
    · refine .inl ⟨congrArg Prod.fst malformed, ?_⟩
      rintro ⟨out, same, success⟩
      simp only [entry_output, step, malformed, Output.received.injEq, Option.some.injEq] at same
      subst same
      simp at success
    · exact .inr (.inr ⟨draws, bytes, wm, _, rfl, decoded, rfl, effect⟩)

theorem Effect.serverInfo {s t : Server c} {draws : Draws c} {wm : Wire} {out : Option Outcome}
    (effect : s.Effect draws wm t out) : t.serverInfo = s.serverInfo := by
  cases effect <;> rfl

theorem serverInfo_step (s : Server c) (input : Input c) :
    (s.step input).1.serverInfo = s.serverInfo := by
  rcases s.step_cases input with ⟨same, -⟩ | ⟨noob, -, -, -, -, after⟩ |
    ⟨draws, bytes, wm, out, rfl, -, -, effect⟩
  · rw [same]
  · rw [after]
  · exact effect.serverInfo

theorem serverInfo_run (s : Server c) (inputs : List (Input c)) :
    (run step s inputs).serverInfo = s.serverInfo :=
  run_invariant step (P := fun t => t.serverInfo = s.serverInfo)
    (fun t input same => (serverInfo_step t input).trans same) rfl inputs

end Server

namespace Peer

variable (c) in
inductive Input where
  | oobInputNoob (noob : Bytes)
  | receive (draws : Draws c) (input : Bytes)

inductive Output where
  | oob (accepted : Bool)
  | received (out : Option Outcome)
  deriving DecidableEq

def step (p : Peer c) : Input c → Peer c × Output
  | .oobInputNoob noob => ((p.oobInputNoob noob).1, .oob (p.oobInputNoob noob).2)
  | .receive draws input => ((p.receive draws input).1, .received (p.receive draws input).2)

-- `Peer::new()`, with or without a PeerInfo.
def Initial (p : Peer c) : Prop := p = new c ∨ ∃ info, p = (new c).withPeerInfo info

variable (c) in
abbrev Step := Entry (Peer c) (Input c) Output

def Receives (e : Step c) (wm : Wire) : Prop :=
  ∃ draws input, e.input = .receive draws input ∧ c.decodeWire input = some wm

theorem Receives.unique {p : Peer c} {draws : Draws c} {bytes : Bytes} {wm w : Wire}
    (received : Receives (entry step p (.receive draws bytes)) wm)
    (decoded : c.decodeWire bytes = some w) : wm = w := by
  obtain ⟨_, _, same, decoded'⟩ := received
  cases same
  exact Option.some.inj (decoded'.symm.trans decoded)

def AcceptsOob (e : Step c) (noob : Bytes) : Prop :=
  e.input = .oobInputNoob noob ∧ e.output = .oob true

/-- The step received a Type 6 message and verified its MACs. -/
def AcceptsMacs (e : Step c) : Prop :=
  ∃ wm, Receives e wm ∧ wm.eap = none ∧ wm.errorCode = none ∧ wm.type = some 6 ∧
    e.before.Verifies wm

def ReportsSuccess (e : Step c) : Prop :=
  ∃ out, e.output = .received (some out) ∧ out.success = true

theorem receive_effect (p : Peer c) (draws : Draws c) (input : Bytes) :
    (p.receive draws input = (p, some (fail c "malformed JSON"))) ∨
      ∃ wm, c.decodeWire input = some wm ∧
        p.Effect draws wm (p.receive draws input).1 (p.receive draws input).2 := by
  unfold receive
  cases decoded : c.decodeWire input with
  | none => exact .inl rfl
  | some wm => exact .inr ⟨wm, rfl, p.dispatch_effect draws wm⟩

theorem step_cases (p : Peer c) (input : Input c) :
    ((p.step input).1 = p ∧ ¬ ReportsSuccess (entry step p input)) ∨
      (∃ noob, AcceptsOob (entry step p input) noob ∧ p.state = .waiting ∧ noob.length = 16 ∧
        (p.dirp = 2 ∨ p.dirp = 3) ∧
        (p.step input).1 = { p with m := p.m.setNoob noob, state := .oobReceived }) ∨
      ∃ draws bytes wm out, input = .receive draws bytes ∧ c.decodeWire bytes = some wm ∧
        (p.step input).2 = .received out ∧ p.Effect draws wm (p.step input).1 out := by
  cases input with
  | oobInputNoob noob =>
    cases accepted : oobRefusal p.state p.dirp noob with
    | none =>
      have outcome := oobInputNoob_accepted accepted
      obtain ⟨waits, direction, long⟩ := (oobRefusal_eq_none _ _ _).mp accepted
      exact .inr (.inl ⟨noob, ⟨rfl, congrArg Output.oob (congrArg Prod.snd outcome)⟩, waits, long,
        direction, congrArg Prod.fst outcome⟩)
    | some e =>
      exact .inl ⟨congrArg Prod.fst (oobInputNoob_refused accepted), fun ⟨_, same, _⟩ => by cases same⟩
  | receive draws bytes =>
    rcases p.receive_effect draws bytes with malformed | ⟨wm, decoded, effect⟩
    · refine .inl ⟨congrArg Prod.fst malformed, ?_⟩
      rintro ⟨out, same, success⟩
      simp only [entry_output, step, malformed, Output.received.injEq, Option.some.injEq] at same
      subst same
      simp at success
    · exact .inr (.inr ⟨draws, bytes, wm, _, rfl, decoded, rfl, effect⟩)

theorem Effect.peerInfo {p q : Peer c} {draws : Draws c} {wm : Wire} {out : Option Outcome}
    (effect : p.Effect draws wm q out) : q.peerInfo = p.peerInfo := by
  cases effect <;> rfl

theorem peerInfo_step (p : Peer c) (input : Input c) :
    (p.step input).1.peerInfo = p.peerInfo := by
  rcases p.step_cases input with ⟨same, -⟩ | ⟨noob, -, -, -, -, after⟩ |
    ⟨draws, bytes, wm, out, rfl, -, -, effect⟩
  · rw [same]
  · rw [after]
  · exact effect.peerInfo

theorem peerInfo_run (p : Peer c) (inputs : List (Input c)) :
    (run step p inputs).peerInfo = p.peerInfo :=
  run_invariant step (P := fun q => q.peerInfo = p.peerInfo)
    (fun q input same => (peerInfo_step q input).trans same) rfl inputs

end Peer

end OpenPair
