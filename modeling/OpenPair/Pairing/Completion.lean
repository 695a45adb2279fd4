import OpenPair.Pairing.Answers

/-! The Completion Exchange of a Server and a Peer that hold the same transcript,
secrets and out-of-band value, whatever they went through before. -/

set_option autoImplicit false

namespace OpenPair

variable {c : Crates}

theorem decode_discoveryRequest (lawful : c.Lawful) :
    c.decodeWire (c.encodeWire discoveryRequest) = some discoveryRequest :=
  lawful.wire _ (by simp [discoveryRequest, Wire.raws])

namespace Server

variable (s : Server c) (lawful : c.Lawful)
include lawful

theorem decode_noobIdRequest :
    c.decodeWire (c.encodeWire s.noobIdRequest) = some s.noobIdRequest :=
  lawful.wire _ (by simp [noobIdRequest, Wire.raws, lawful.text_jstr])

theorem decode_completionRequest :
    c.decodeWire (c.encodeWire s.completionRequest) = some s.completionRequest :=
  lawful.wire _ (by simp [completionRequest, Wire.raws, lawful.text_jstr])

theorem checkPeerId_named {s : Server c} {wm : Wire} (named : wm.peerId = some (jstr c s.m.peerId)) :
    s.checkPeerId wm = .ok () := by
  unfold checkPeerId
  rw [named, lawful.parseStr_jstr]
  simp

end Server

namespace Peer

variable (p : Peer c) (lawful : c.Lawful)
include lawful

theorem decode_discoveryResponse :
    c.decodeWire (c.encodeWire p.discoveryResponse) = some p.discoveryResponse := by
  refine lawful.wire _ ?_
  simp only [discoveryResponse, Wire.raws]
  split <;> simp [lawful.text_jstr]

theorem decode_noobIdResponse :
    c.decodeWire (c.encodeWire p.noobIdResponse) = some p.noobIdResponse :=
  lawful.wire _ (by simp [noobIdResponse, Wire.raws, lawful.text_jstr])

theorem decode_completionResponse :
    c.decodeWire (c.encodeWire p.completionResponse) = some p.completionResponse :=
  lawful.wire _ (by simp [completionResponse, Wire.raws, lawful.text_jstr])

end Peer

/-- A Server and a Peer that hold the same names, keys and transcript. -/
structure Concordant (s : Server c) (p : Peer c) : Prop where
  peerId : s.m.peerId = p.m.peerId
  noobId : s.m.noobId = p.m.noobId
  keys : s.m.keys = p.m.keys
  inp : s.m.inp = p.m.inp

namespace Concordant

variable {s : Server c} {p : Peer c} (lawful : c.Lawful) (concordant : Concordant s p)
  (draws : Draws c)
include lawful concordant

theorem matches_noobId : s.MatchesNoobId p.noobIdResponse := by
  rw [Server.MatchesNoobId, Peer.noobIdResponse, lawful.parseB64_jstr, concordant.noobId]
  rfl

theorem macs_verify (held : p.m.noob ≠ []) : p.Verifies s.completionRequest := by
  refine ⟨held, ?_, ?_⟩
  · rw [Peer.MatchesNoobId, Server.completionRequest, lawful.parseB64_jstr, concordant.noobId]
    rfl
  · rw [Server.completionRequest, lawful.parseB64_jstr, concordant.keys, concordant.inp]
    rfl

theorem macp_verifies : s.derived.Verifies p.completionResponse s.m.keys := by
  refine ⟨Server.checkPeerId_named lawful ?_, rfl, ?_⟩
  · exact congrArg (fun name => some (jstr c name)) concordant.peerId.symm
  · rw [Peer.completionResponse, lawful.parseB64_jstr, Server.derived_inp, concordant.keys,
      concordant.inp]
    rfl

/-! ### The messages in order -/

theorem server_matches :
    s.receive draws (c.encodeWire p.noobIdResponse) =
      (s.derived, some (sendWire c s.completionRequest)) :=
  Server.receive_matches lawful (p.decode_noobIdResponse lawful) rfl rfl
    (Server.checkPeerId_named lawful
      (congrArg (fun name => some (jstr c name)) concordant.peerId.symm))
    (concordant.matches_noobId lawful)

theorem peer_verifies (held : p.m.noob ≠ []) :
    p.receive draws (c.encodeWire s.completionRequest) =
      (p.derived, some (sendWire c p.completionResponse)) :=
  Peer.receive_verifies lawful (s.decode_completionRequest lawful) rfl rfl rfl
    (concordant.macs_verify lawful held)

theorem server_registers :
    s.derived.receive draws (c.encodeWire p.completionResponse) =
      (s.derived.registered s.m.keys,
        some { send := some (resultBytes c "success"), done := true, success := true }) :=
  Server.receive_verifies (p.decode_completionResponse lawful) rfl rfl
    (concordant.macp_verifies lawful)

end Concordant

end OpenPair
