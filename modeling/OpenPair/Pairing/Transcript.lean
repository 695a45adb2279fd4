import OpenPair.Pairing.Runs

/-! Which messages rewrite the transcript that an out-of-band value confirms.

No handler looks at the state before it writes, so the transcript stays as it
was exactly as long as no negotiation or key exchange message is accepted.
-/

set_option autoImplicit false

namespace OpenPair

open Transition

variable {c : Crates}

/-- The negotiated values: the MAC input without the out-of-band value, the
shared secret, the nonces and the PeerId. -/
structure Negotiated where
  inp : MacInputs
  z : Bytes
  ns : Bytes
  np : Bytes
  peerId : String
  deriving DecidableEq

def Method.negotiated (m : Method c) : Negotiated :=
  { inp := { m.inp with noob := "" }, z := m.z, ns := m.ns, np := m.np, peerId := m.peerId }

@[simp] theorem Method.setNoob_negotiated (m : Method c) (noob : Bytes) :
    (m.setNoob noob).negotiated = m.negotiated := rfl

namespace Server

def Rewrites (s : Server c) (wm : Wire) : Prop :=
  wm.errorCode = none ∧
    ((wm.type = some 1 ∧ (s.heard wm).RestartsNegotiation) ∨
      (wm.type = some 2 ∧ ∃ csp dirp, s.Negotiates wm csp dirp) ∨
      (wm.type = some 3 ∧ ∃ keypair z np, s.Exchanges wm keypair z np))

theorem Effect.negotiated_eq {s t : Server c} {draws : Draws c} {wm : Wire} {out : Option Outcome}
    (effect : s.Effect draws wm t out) (keeps : ¬ s.Rewrites wm) :
    t.m.negotiated = s.m.negotiated := by
  cases effect with
  | offered notice type restarts => exact absurd ⟨notice, .inl ⟨type, restarts⟩⟩ keeps
  | negotiated notice type negotiates =>
    exact absurd ⟨notice, .inr (.inl ⟨type, _, _, negotiates⟩)⟩ keeps
  | exchanged notice type exchanges =>
    exact absurd ⟨notice, .inr (.inr ⟨type, _, _, _, exchanges⟩)⟩ keeps
  | _ => rfl

theorem step_negotiated {s : Server c} {input : Input c}
    (keeps : ∀ wm, Receives (entry step s input) wm → ¬ s.Rewrites wm) :
    (s.step input).1.m.negotiated = s.m.negotiated := by
  rcases s.step_cases input with ⟨same, -⟩ | ⟨noob, -, -, -, -, after⟩ |
    ⟨draws, bytes, wm, out, rfl, decoded, -, effect⟩
  · rw [same]
  · rw [after]
    rfl
  · refine effect.negotiated_eq fun rewrites => ?_
    exact keeps wm ⟨draws, bytes, rfl, decoded, rewrites.1⟩ rewrites

end Server

namespace Peer

/-- A message that writes the transcript; a Type 2 that is refused has
already replaced the PeerId. -/
def Rewrites (p : Peer c) (draws : Draws c) (wm : Wire) : Prop :=
  wm.eap = none ∧ wm.errorCode = none ∧
    ((wm.type = some 2 ∧ ∃ peerId, parseStr c wm.peerId = some peerId ∧
        (peerId ≠ p.m.peerId ∨ ∃ verp csp dirp, p.Negotiates wm peerId verp csp dirp)) ∨
      (wm.type = some 3 ∧ ∃ suite z ns, p.Exchanges draws wm suite z ns))

theorem Effect.negotiated_eq {p q : Peer c} {draws : Draws c} {wm : Wire} {out : Option Outcome}
    (effect : p.Effect draws wm q out) (keeps : ¬ p.Rewrites draws wm) :
    q.m.negotiated = p.m.negotiated := by
  cases effect with
  | @named peerId _ result notice type named =>
    have same : peerId = p.m.peerId := by
      by_contra differs
      exact keeps ⟨result, notice, .inl ⟨type, _, named, .inl differs⟩⟩
    rw [same]
    rfl
  | negotiated result notice type negotiates =>
    exact absurd ⟨result, notice, .inl ⟨type, _, negotiates.peerId, .inr ⟨_, _, _, negotiates⟩⟩⟩
      keeps
  | stalled result notice type exchanges =>
    exact absurd ⟨result, notice, .inr ⟨type, _, _, _, exchanges⟩⟩ keeps
  | exchanged result notice type exchanges =>
    exact absurd ⟨result, notice, .inr ⟨type, _, _, _, exchanges⟩⟩ keeps
  | _ => rfl

theorem step_negotiated {p : Peer c} {input : Input c}
    (keeps : ∀ draws bytes wm, input = .receive draws bytes → c.decodeWire bytes = some wm →
      ¬ p.Rewrites draws wm) :
    (p.step input).1.m.negotiated = p.m.negotiated := by
  rcases p.step_cases input with ⟨same, -⟩ | ⟨noob, -, -, -, -, after⟩ |
    ⟨draws, bytes, wm, out, rfl, decoded, -, effect⟩
  · rw [same]
  · rw [after]
    rfl
  · exact effect.negotiated_eq (keeps draws bytes wm rfl decoded)

end Peer

end OpenPair
