import OpenPair.Cluster.Session
import OpenPair.Pairing.Runs

/-! Runs of one session: its calls in any order, on any messages and random draws.

A session drives its machine call by call, so a run of it is a run of the
machine, and beside that it can only capture an identity.
-/

set_option autoImplicit false

namespace OpenPair

open Transition

variable {c : Crates}

theorem parseIdentity_eq_ok {raw : String} {i : PeerIdentity} :
    parseIdentity c raw = .ok i ↔ parsePairingInfo c (utf8 raw) = .ok (i.info, i.certDer) := by
  unfold parseIdentity
  cases parsePairingInfo c (utf8 raw) with
  | error e => simp [Except.map]
  | ok parsed =>
    simp only [Except.map, Except.ok.injEq]
    constructor
    · rintro rfl
      rfl
    · rintro rfl
      rfl

namespace JoinerSession

variable (c) in
inductive Input where
  | initial (draws : Draws c) (blob : Bytes)
  | feedPin (pin : String)
  | completion (draws : Draws c) (blob : Bytes)

inductive Output where
  | initial (reply : Option (Except String Bytes))
  | fed (result : Except String Unit)
  | completion (step : Option OpenPair.Step)

def step (s : JoinerSession c) : Input c → JoinerSession c × Output
  | .initial draws blob => ((s.onInitial draws blob).1, .initial (s.onInitial draws blob).2)
  | .feedPin pin => ((s.feedPin pin).1, .fed (s.feedPin pin).2)
  | .completion draws blob =>
    ((s.onCompletion draws blob).1, .completion (s.onCompletion draws blob).2)

variable (c) in
abbrev Step := Entry (JoinerSession c) (Input c) Output

def Input.machine : Input c → Peer.Input c
  | .initial draws blob => .receive draws blob
  | .feedPin pin => .oobInputNoob (noobFromPin pin).bytes
  | .completion draws blob => .receive draws blob

def machine (e : Step c) : Peer.Step c := entry Peer.step e.before.peer e.input.machine

theorem capture_ok {s t : JoinerSession c} (captured : s.capture = .ok t) :
    t = s ∨ (s.inviter = none ∧
      ∃ i, t = { s with inviter := some i } ∧ parseIdentity c s.peer.serverInfo = .ok i) := by
  unfold capture at captured
  split at captured
  · next waits =>
    split at captured
    · cases captured
    · cases parsed : parseIdentity c s.peer.serverInfo with
      | error e =>
        rw [parsed] at captured
        cases captured
      | ok i =>
        rw [parsed] at captured
        cases captured
        exact .inr ⟨waits.2, i, rfl, rfl⟩
  · cases captured
    exact .inl rfl

theorem step_cases (s : JoinerSession c) (input : Input c) :
    (s.step input).1.peer = (Peer.step s.peer input.machine).1 ∧
      ((s.step input).1.inviter = s.inviter ∨ (s.inviter = none ∧
        ∃ i, (s.step input).1.inviter = some i ∧
          parseIdentity c (s.step input).1.peer.serverInfo = .ok i)) := by
  cases input with
  | initial draws blob =>
    simp only [step, onInitial, Input.machine, Peer.step]
    split
    · exact ⟨rfl, .inl rfl⟩
    · split
      · exact ⟨rfl, .inl rfl⟩
      · split
        · exact ⟨rfl, .inl rfl⟩
        · next t captured =>
          rcases capture_ok captured with rfl | ⟨absent, i, rfl, parsed⟩
          · exact ⟨rfl, .inl rfl⟩
          · exact ⟨rfl, .inr ⟨absent, i, rfl, parsed⟩⟩
  | feedPin pin =>
    simp only [step, feedPin, Input.machine, Peer.step]
    split
    · next e refused =>
      exact ⟨(congrArg Prod.fst (Peer.oobInputNoob_refused refused)).symm, .inl rfl⟩
    · exact ⟨rfl, .inl rfl⟩
  | completion draws blob => exact ⟨rfl, .inl rfl⟩

end JoinerSession

namespace InviterSession

variable (c) in
inductive Input where
  | initial (draws : Draws c) (blob : Bytes)
  | setPin (pin : String)
  | completion (draws : Draws c) (blob : Bytes)

inductive Output where
  | initial (step : Option OpenPair.Step)
  | set (result : Except String Unit)
  | completion (reply : Option (Except String OpenPair.Step))

def step (s : InviterSession c) : Input c → InviterSession c × Output
  | .initial draws blob => ((s.onInitial draws blob).1, .initial (s.onInitial draws blob).2)
  | .setPin pin => ((s.setPin pin).1, .set (s.setPin pin).2)
  | .completion draws blob =>
    ((s.onCompletion draws blob).1, .completion (s.onCompletion draws blob).2)

variable (c) in
abbrev Step := Entry (InviterSession c) (Input c) Output

def Input.machine : Input c → Server.Input c
  | .initial draws blob => .receive draws blob
  | .setPin pin => .oobOutputWith (noobFromPin pin).bytes
  | .completion draws blob => .receive draws blob

def machine (e : Step c) : Server.Step c := entry Server.step e.before.server e.input.machine

theorem capture_ok {s t : InviterSession c} (captured : s.capture = .ok t) :
    (t = s ∧ ¬ (s.state = .registered ∧ s.joiner = none)) ∨ (s.joiner = none ∧
      ∃ j, t = { s with joiner := some j } ∧ parseIdentity c s.server.peerInfo = .ok j) := by
  unfold capture at captured
  split at captured
  · next waits =>
    split at captured
    · cases captured
    · cases parsed : parseIdentity c s.server.peerInfo with
      | error e =>
        rw [parsed] at captured
        cases captured
      | ok j =>
        rw [parsed] at captured
        cases captured
        exact .inr ⟨waits.2, j, rfl, rfl⟩
  · next other =>
    cases captured
    exact .inl ⟨rfl, other⟩

theorem step_cases (s : InviterSession c) (input : Input c) :
    (s.step input).1.server = (Server.step s.server input.machine).1 ∧
      ((s.step input).1.joiner = s.joiner ∨ (s.joiner = none ∧
        ∃ j, (s.step input).1.joiner = some j ∧
          parseIdentity c (s.step input).1.server.peerInfo = .ok j)) := by
  cases input with
  | initial draws blob => exact ⟨rfl, .inl rfl⟩
  | setPin pin =>
    simp only [step, setPin, Input.machine, Server.step]
    split
    · next e refused =>
      exact ⟨(congrArg Prod.fst (Server.oobOutputWith_refused refused)).symm, .inl rfl⟩
    · exact ⟨rfl, .inl rfl⟩
  | completion draws blob =>
    simp only [step, onCompletion, Input.machine, Server.step]
    split
    · exact ⟨rfl, .inl rfl⟩
    · split
      · exact ⟨rfl, .inl rfl⟩
      · next t captured =>
        rcases capture_ok captured with ⟨rfl, -⟩ | ⟨absent, j, rfl, parsed⟩
        · exact ⟨rfl, .inl rfl⟩
        · exact ⟨rfl, .inr ⟨absent, j, rfl, parsed⟩⟩

end InviterSession

end OpenPair
