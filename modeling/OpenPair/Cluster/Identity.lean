import OpenPair.Cluster.Handshake
import OpenPair.Cluster.SessionRuns
import OpenPair.Pairing.PeerAuthentication
import OpenPair.Pairing.ServerAuthentication

/-! Whether the identity that a session holds is the one that the MAC authenticated.

The identity is captured once, while the machine keeps accepting negotiation
messages. The two stay in step in the runs that renegotiate no other identity
after the capture and enter no PIN before it.
-/

set_option autoImplicit false

namespace OpenPair

open Transition

variable {c : Crates}

namespace Peer

theorem Effect.serverInfo {p q : Peer c} {draws : Draws c} {wm : Wire} {out : Option Outcome}
    (effect : p.Effect draws wm q out) :
    q.serverInfo = p.serverInfo ∨
      (wm.eap = none ∧ wm.errorCode = none ∧ wm.type = some 2 ∧
        (∃ peerId verp csp dirp, p.Negotiates wm peerId verp csp dirp) ∧
        q.serverInfo = ensureObj (get wm.serverInfo)) := by
  cases effect with
  | negotiated result notice type negotiates =>
    exact .inr ⟨result, notice, type, ⟨_, _, _, _, negotiates⟩, rfl⟩
  | _ => exact .inl rfl

end Peer

namespace Server

theorem Effect.peerInfo {s t : Server c} {draws : Draws c} {wm : Wire} {out : Option Outcome}
    (effect : s.Effect draws wm t out) :
    t.peerInfo = s.peerInfo ∨
      (wm.errorCode = none ∧ wm.type = some 2 ∧ (∃ csp dirp, s.Negotiates wm csp dirp) ∧
        t.peerInfo = ensureObj (get wm.peerInfo)) := by
  cases effect with
  | negotiated notice type negotiates =>
    exact .inr ⟨notice, type, ⟨_, _, negotiates⟩, rfl⟩
  | _ => exact .inl rfl

end Server

/-! ## The joiner -/

namespace JoinerSession

-- `on_completion` reported success.
def ReportsSuccess (e : Step c) : Prop :=
  ∃ result, e.output = .completion (some result) ∧ result.done = true ∧ result.success = true

/-- On success the inviter is the one named in every MACs that was verified before. -/
def Authenticated (history : List (Step c)) (e : Step c) : Prop :=
  ReportsSuccess e → ∀ v ∈ history, Peer.AcceptsMacs (machine v) →
    ∃ i, e.after.inviter = some i ∧
      parsePairingInfo c (utf8 v.before.peer.m.inp.serverInfo) = .ok (i.info, i.certDer)

/-- A PIN is accepted once the inviter is captured, and from then on no accepted
Type 2 brings another ServerInfo. -/
structure KeepsInviter (_history : List (Step c)) (e : Step c) : Prop where
  fed : ∀ noob, Peer.AcceptsOob (machine e) noob → e.before.inviter ≠ none
  renegotiated : ∀ wm, Peer.Receives (machine e) wm → wm.eap = none → wm.errorCode = none →
    wm.type = some 2 → (∃ peerId verp csp dirp, e.before.peer.Negotiates wm peerId verp csp dirp) →
    e.before.inviter ≠ none → ensureObj (get wm.serverInfo) = e.before.peer.serverInfo

structure Pinned (history : List (Step c)) (s : JoinerSession c) : Prop where
  captured : ∀ i, s.inviter = some i → parseIdentity c s.peer.serverInfo = .ok i
  fed : s.peer.m.noob ≠ [] → s.inviter ≠ none
  macs : ∀ v ∈ history, Peer.AcceptsMacs (machine v) →
    ∃ i, s.inviter = some i ∧ parseIdentity c v.before.peer.m.inp.serverInfo = .ok i

theorem Pinned.new (info : PairingInfo) : Pinned [] (new c info) :=
  ⟨fun _ wrong => (nomatch wrong), fun wrong => absurd rfl wrong,
    fun _ member => (List.not_mem_nil member).elim⟩

theorem Pinned.step (history : List (Step c)) (s : JoinerSession c) (input : Input c)
    (pinned : Pinned history s) (keeps : KeepsInviter history (entry step s input)) :
    Pinned (history ++ [entry JoinerSession.step s input]) (s.step input).1 := by
  obtain ⟨peer, inviter⟩ := s.step_cases input
  -- An identity that is held stays held.
  have stays : ∀ i, s.inviter = some i → (s.step input).1.inviter = some i := by
    intro i held
    rcases inviter with same | ⟨absent, -⟩
    · exact same.trans held
    · rw [absent] at held
      cases held
  have info : s.inviter ≠ none → (s.step input).1.peer.serverInfo = s.peer.serverInfo := by
    intro held
    rw [peer]
    rcases s.peer.step_cases input.machine with ⟨same, -⟩ | ⟨noob, -, -, -, -, after⟩ |
      ⟨draws, bytes, wm, out, called, decoded, -, effect⟩
    · rw [same]
    · rw [after]
      rfl
    · rcases effect.serverInfo with same | ⟨result, notice, type, negotiates, written⟩
      · exact same
      · exact written.trans (keeps.renegotiated wm ⟨draws, bytes, called, decoded⟩ result notice
          type negotiates held)
  refine ⟨fun i held => ?_, fun noob => ?_, fun v member accepts => ?_⟩
  · rcases inviter with same | ⟨absent, j, captured, parsed⟩
    · have before : s.inviter = some i := same.symm.trans held
      rw [info (by rw [before]; nofun)]
      exact pinned.captured i before
    · rw [Option.some.inj (held.symm.trans captured)]
      exact parsed
  · have before : s.inviter ≠ none := by
      rw [peer] at noob
      rcases s.peer.step_cases input.machine with ⟨same, -⟩ | ⟨value, accepts, -⟩ |
        ⟨draws, bytes, wm, out, -, -, -, effect⟩
      · rw [same] at noob
        exact pinned.fed noob
      · exact keeps.fed value accepts
      · rw [effect.noob] at noob
        exact pinned.fed noob
    obtain ⟨i, held⟩ := Option.ne_none_iff_exists'.mp before
    rw [stays i held]
    nofun
  · rcases List.mem_append.mp member with old | last
    · obtain ⟨i, held, parsed⟩ := pinned.macs v old accepts
      exact ⟨i, stays i held, parsed⟩
    · rw [List.mem_singleton.mp last] at accepts ⊢
      obtain ⟨wm, -, -, -, -, verifies⟩ := accepts
      obtain ⟨i, held⟩ := Option.ne_none_iff_exists'.mp (pinned.fed verifies.noob)
      exact ⟨i, stays i held, pinned.captured i held⟩

end JoinerSession

/-! ## The inviter -/

namespace InviterSession

/-- On success the joiner is the one named in the MACp that was just verified. -/
def Authenticated (_history : List (Step c)) (e : Step c) : Prop :=
  ∀ result, e.output = .completion (some (.ok result)) → result.done = true →
    result.success = true →
    ∃ j, e.after.joiner = some j ∧
      parsePairingInfo c (utf8 e.before.server.m.inp.peerInfo) = .ok (j.info, j.certDer)

/-- Once the joiner is captured no accepted Type 2 brings another PeerInfo. -/
def KeepsJoiner (_history : List (Step c)) (e : Step c) : Prop :=
  ∀ wm, Server.Receives (machine e) wm → wm.type = some 2 →
    (∃ csp dirp, e.before.server.Negotiates wm csp dirp) → e.before.joiner ≠ none →
    ensureObj (get wm.peerInfo) = e.before.server.peerInfo

def Pinned (_history : List (Step c)) (s : InviterSession c) : Prop :=
  ∀ j, s.joiner = some j → parseIdentity c s.server.peerInfo = .ok j

theorem Pinned.step (history : List (Step c)) (s : InviterSession c) (input : Input c)
    (pinned : Pinned history s) (keeps : KeepsJoiner history (entry step s input)) :
    Pinned (history ++ [entry InviterSession.step s input]) (s.step input).1 := by
  obtain ⟨server, joiner⟩ := s.step_cases input
  intro j held
  rcases joiner with same | ⟨absent, k, captured, parsed⟩
  · have before : s.joiner = some j := same.symm.trans held
    have info : (s.step input).1.server.peerInfo = s.server.peerInfo := by
      rw [server]
      rcases s.server.step_cases input.machine with ⟨same, -⟩ | ⟨noob, -, -, -, -, after⟩ |
        ⟨draws, bytes, wm, out, called, decoded, -, effect⟩
      · rw [same]
      · rw [after]
        rfl
      · rcases effect.peerInfo with same | ⟨notice, type, negotiates, written⟩
        · exact same
        · exact written.trans (keeps wm ⟨draws, bytes, called, decoded, notice⟩ type negotiates
            (by rw [entry_before, before]; nofun))
    rw [info]
    exact pinned j before
  · rw [Option.some.inj (held.symm.trans captured)]
    exact parsed

/-- A success leaves the transcript as it was verified, and an identity captured from it. -/
theorem success_captures {s : InviterSession c} {draws : Draws c} {blob : Bytes}
    {result : OpenPair.Step} (replied : (s.onCompletion draws blob).2 = some (.ok result))
    (success : result.success = true) :
    (s.onCompletion draws blob).1.server.m.inp = s.server.m.inp ∧
      (s.onCompletion draws blob).1.joiner ≠ none := by
  unfold onCompletion at replied ⊢
  dsimp only at replied ⊢
  split at replied
  · cases replied
  · next out received =>
    split at replied
    · cases replied
    · next t captured =>
      cases replied
      -- Only the effect of a verified Type 6 reports success.
      have registers : (s.server.receive draws blob).1.state = .registered ∧
          (s.server.receive draws blob).1.m.inp = s.server.m.inp := by
        rcases s.server.receive_effect draws blob with malformed | ⟨wm, -, effect⟩
        · rw [malformed] at received
          rw [← Option.some.inj received] at success
          cases success
        · rw [received] at effect
          generalize (s.server.receive draws blob).1 = after at effect
          cases effect with
          | registered => exact ⟨rfl, rfl⟩
          | exchanged => cases success
          | kept quiet | heard _ _ quiet | offered _ _ _ quiet | resumed _ _ _ quiet
          | negotiated _ _ _ _ quiet | matched _ _ _ _ quiet =>
            exact absurd success (by rw [Step.fromOutcome, quiet out rfl]; nofun)
      rcases capture_ok captured with ⟨rfl, held⟩ | ⟨-, j, rfl, -⟩
      · exact ⟨registers.2, fun absent => held ⟨registers.1, absent⟩⟩
      · exact ⟨registers.2, nofun⟩

end InviterSession

/-! ## Honest runs -/

namespace JoinerSession

variable {s : JoinerSession c} {input : Input c} {draws : Draws c} {bytes : Bytes} {w : Wire}

theorem keepsInviter_receive (history : List (Step c)) (called : input.machine = .receive draws bytes)
    (decoded : c.decodeWire bytes = some w) (harmless : w.type ≠ some 2 ∨ s.inviter = none) :
    KeepsInviter history (entry step s input) := by
  constructor
  · rintro noob ⟨wrong, -⟩
    have same : input.machine = .oobInputNoob noob := wrong
    rw [called] at same
    cases same
  · rintro wm ⟨draws', bytes', same, decoded'⟩ - - type - held
    have same : input.machine = .receive draws' bytes' := same
    rw [called] at same
    cases same
    obtain rfl := Option.some.inj (decoded'.symm.trans decoded)
    exact harmless.elim (fun other => absurd type other) (fun absent => absurd absent held)

theorem keepsInviter_feedPin (history : List (Step c)) (pin : String) (held : s.inviter ≠ none) :
    KeepsInviter history (entry step s (.feedPin pin)) := by
  constructor
  · intro _ _
    exact held
  · rintro wm ⟨_, _, wrong, -⟩
    cases wrong

end JoinerSession

namespace Handshake

variable (x : Handshake c)

def joinerInputs (pin : String) (w : Wire) : List (JoinerSession.Input c) :=
  [.initial x.peerDraws (c.encodeWire discoveryRequest),
    .initial x.peerDraws (c.encodeWire x.serverOffering.negotiationRequest),
    .initial x.peerDraws (c.encodeWire x.serverKeyed.keyExchangeRequest),
    .feedPin pin,
    .completion x.peerDraws
      (c.encodeWire (x.serverResumed (noobFromPin pin).bytes w).completionRequest),
    .completion x.peerDraws (resultBytes c "success")]

def inviterInputs (pin : String) (w : Wire) : List (InviterSession.Input c) :=
  [.initial x.naming (c.encodeWire x.peerFresh.discoveryResponse),
    .initial x.serverDraws (c.encodeWire x.negotiationResponse),
    .initial x.serverDraws (c.encodeWire x.peerKeyed.keyExchangeResponse),
    .setPin pin,
    .completion x.serverDraws (c.encodeWire w),
    .completion x.serverDraws (c.encodeWire (x.peerArmed (noobFromPin pin).bytes).noobIdResponse),
    .completion x.serverDraws
      (c.encodeWire (x.peerArmed (noobFromPin pin).bytes).completionResponse)]

variable (lawful : c.Lawful)
include lawful

theorem joinerInputs_keep (pin : String) (w : Wire) :
    EveryStep JoinerSession.KeepsInviter
      (trace JoinerSession.step x.freshJoiner (x.joinerInputs pin w)) := by
  have long := Exchange.ne_nil_of_length (noobFromPin pin).length_eq
  have steps : trace JoinerSession.step x.freshJoiner (x.joinerInputs pin w) =
      List.zipWith (entry JoinerSession.step)
        [answering x.peerFresh, answering x.peerFresh, answering x.peerNegotiated,
          x.joining x.peerWaiting, x.joining (x.peerArmed (noobFromPin pin).bytes),
          x.joining (x.peerArmed (noobFromPin pin).bytes).derived] (x.joinerInputs pin w) := by
    simp only [x.freshJoiner_eq, joinerInputs, trace, JoinerSession.step,
      x.joiner_discovers lawful, x.joiner_negotiates lawful, x.joiner_waits lawful, x.joiner_arms,
      x.joiner_verifies lawful _ w long, List.zipWith_cons_cons, List.zipWith_nil_right]
  intro before middle after split
  have member : middle ∈ trace JoinerSession.step x.freshJoiner (x.joinerInputs pin w) := by
    rw [split]
    simp
  rw [steps] at member
  simp only [joinerInputs, List.zipWith_cons_cons, List.zipWith_nil_right, List.mem_cons,
    List.not_mem_nil, or_false] at member
  rcases member with rfl | rfl | rfl | rfl | rfl | rfl
  · exact JoinerSession.keepsInviter_receive _ rfl (decode_discoveryRequest lawful) (.inr rfl)
  · exact JoinerSession.keepsInviter_receive _ rfl (x.decode_offer lawful) (.inr rfl)
  · exact JoinerSession.keepsInviter_receive _ rfl (x.decode_serverKey lawful) (.inr rfl)
  · exact JoinerSession.keepsInviter_feedPin _ pin (Option.some_ne_none _)
  · exact JoinerSession.keepsInviter_receive _ rfl ((x.serverResumed _ w).decode_completionRequest lawful)
      (.inl fun wrong => absurd (Option.some.inj wrong) (by decide))
  · exact JoinerSession.keepsInviter_receive _ rfl (lawful.wire _ (by simp [Wire.raws]))
      (.inl (Option.some_ne_none _).symm)

theorem inviterInputs_keep (pin : String) :
    EveryStep InviterSession.KeepsJoiner (trace InviterSession.step x.freshInviter
      (x.inviterInputs pin (x.peerArmed (noobFromPin pin).bytes).discoveryResponse)) := by
  have long := Exchange.ne_nil_of_length (noobFromPin pin).length_eq
  have resumes := x.inviter_resumes lawful x.serverDraws
    (x.decode_resumed lawful (noobFromPin pin).bytes) rfl rfl rfl long
  rintro before middle after split wm - - - held
  have member : middle ∈ trace InviterSession.step x.freshInviter
      (x.inviterInputs pin (x.peerArmed (noobFromPin pin).bytes).discoveryResponse) := by
    rw [split]
    simp
  simp only [x.freshInviter_eq, inviterInputs, trace, InviterSession.step,
    x.inviter_offers lawful, x.inviter_keys lawful, x.inviter_waits lawful, x.inviter_arms, resumes,
    x.inviter_matches lawful, List.mem_cons, List.not_mem_nil, or_false] at member
  rcases member with rfl | rfl | rfl | rfl | rfl | rfl | rfl <;> exact absurd rfl held

end Handshake

/-! ## A run that renegotiates -/

namespace Handshake

variable (x : Handshake c) (lawful : c.Lawful) (i : PeerIdentity) (valid : i.info.Valid c i.certDer)

-- Two initial exchanges, with two inviters, and the PIN of the second.
def renegotiatingInputs (pin : String) : List (JoinerSession.Input c) :=
  [.initial x.peerDraws (c.encodeWire x.serverOffering.negotiationRequest),
    .initial x.peerDraws (c.encodeWire x.serverKeyed.keyExchangeRequest),
    .initial x.peerDraws
      (c.encodeWire (x.withInviter lawful i valid).serverOffering.negotiationRequest),
    .initial x.peerDraws
      (c.encodeWire (x.withInviter lawful i valid).serverKeyed.keyExchangeRequest),
    .feedPin pin]

def renegotiatedMacs (pin : String) (w : Wire) : JoinerSession.Input c :=
  .completion x.peerDraws (c.encodeWire
    ((x.withInviter lawful i valid).serverResumed (noobFromPin pin).bytes w).completionRequest)

theorem renegotiated_run (pin : String) :
    run JoinerSession.step x.freshJoiner (x.renegotiatingInputs lawful i valid pin) =
      x.joining ((x.withInviter lawful i valid).peerArmed (noobFromPin pin).bytes) := by
  have feeds : (x.joining (x.withInviter lawful i valid).peerWaiting).feedPin pin =
      (x.joining ((x.withInviter lawful i valid).peerArmed (noobFromPin pin).bytes), .ok ()) :=
    congrArg (fun fed : JoinerSession c × Except String Unit => ({ fed.1 with inviter := some x.inviter }, fed.2))
      ((x.withInviter lawful i valid).joiner_arms pin)
  simp only [x.freshJoiner_eq, renegotiatingInputs, run, JoinerSession.step,
    x.joiner_negotiates lawful, x.joiner_waits lawful, x.joiner_renegotiates lawful,
    x.joiner_rekeys lawful, feeds]

/-- A joiner whose run renegotiates holds an inviter that its MACs does not name. -/
theorem renegotiated_unauthenticated (pin : String) (w : Wire)
    (other : x.inviter.info ≠ i.info) :
    ¬ EveryStep JoinerSession.Authenticated (trace JoinerSession.step x.freshJoiner
      (x.renegotiatingInputs lawful i valid pin ++ [x.renegotiatedMacs lawful i valid pin w,
        .completion x.peerDraws (resultBytes c "success")])) := by
  have long := Exchange.ne_nil_of_length (noobFromPin pin).length_eq
  have macs := (x.withInviter lawful i valid).peer_verifies lawful x.peerDraws w long
  have result := (x.withInviter lawful i valid).peer_registers lawful x.peerDraws
    (noobFromPin pin).bytes
  let armed := (x.withInviter lawful i valid).peerArmed (noobFromPin pin).bytes
  let verifying : JoinerSession.Step c :=
    entry JoinerSession.step (x.joining armed) (x.renegotiatedMacs lawful i valid pin w)
  let last : JoinerSession.Step c :=
    entry JoinerSession.step (x.joining armed.derived)
      (.completion x.peerDraws (resultBytes c "success"))
  have accepts : Peer.AcceptsMacs (JoinerSession.machine verifying) :=
    ⟨_, ⟨_, _, rfl, ((x.withInviter lawful i valid).serverResumed _ w).decode_completionRequest lawful⟩, rfl, rfl, rfl,
      (x.withInviter lawful i valid).macs_verify lawful w long⟩
  have finished : (x.joining armed.derived).onCompletion x.peerDraws (resultBytes c "success") =
      (x.joining ((x.withInviter lawful i valid).peerRegistered (noobFromPin pin).bytes),
        some { done := true, success := true }) := by
    simp only [JoinerSession.onCompletion, joining, armed, result]
    rfl
  have reports : JoinerSession.ReportsSuccess last :=
    ⟨_, congrArg JoinerSession.Output.completion (congrArg Prod.snd finished), rfl, rfl⟩
  have run_eq := x.renegotiated_run lawful i valid pin
  have steps : trace JoinerSession.step x.freshJoiner
      (x.renegotiatingInputs lawful i valid pin ++ [x.renegotiatedMacs lawful i valid pin w,
        .completion x.peerDraws (resultBytes c "success")]) =
      (trace JoinerSession.step x.freshJoiner (x.renegotiatingInputs lawful i valid pin) ++
        [verifying]) ++ last :: [] := by
    rw [trace_append, run_eq, List.append_assoc]
    simp only [trace, renegotiatedMacs, JoinerSession.step, JoinerSession.onCompletion, joining,
      macs]
    rfl
  -- The MACs cover the PairingInfo of the second negotiation, while the session kept the
  -- first.
  intro every
  obtain ⟨j, held, parsed⟩ := every _ last [] steps reports verifying
    (List.mem_append_right _ List.mem_cons_self) accepts
  have kept : last.after.inviter = some x.inviter :=
    congrArg (fun done : JoinerSession c × Option OpenPair.Step => done.1.inviter) finished
  have named : parsePairingInfo c (utf8 armed.m.inp.serverInfo) = .ok (i.info, i.certDer) := by
    rw [show armed.m.inp.serverInfo = (x.withInviter lawful i valid).peerWaiting.serverInfo from rfl,
      (x.withInviter lawful i valid).peerWaiting_serverInfo lawful]
    exact parseIdentity_eq_ok.mp ((x.withInviter lawful i valid).parse_inviter lawful)
  obtain rfl := Option.some.inj (held.symm.trans kept)
  exact other (congrArg Prod.fst (Except.ok.inj (parsed.symm.trans named)))

end Handshake

/-! ## The result -/

/-- In runs that keep what they captured, both sides hold the identities that
the MACs authenticated. -/
theorem captured_identities_authenticated :
    (∀ (info : PairingInfo) (inputs : List (JoinerSession.Input c)),
      EveryStep JoinerSession.KeepsInviter
        (trace JoinerSession.step (JoinerSession.new c info) inputs) →
      EveryStep JoinerSession.Authenticated
        (trace JoinerSession.step (JoinerSession.new c info) inputs)) ∧
    (∀ (info : PairingInfo) (inputs : List (InviterSession.Input c)),
      EveryStep InviterSession.KeepsJoiner
        (trace InviterSession.step (InviterSession.new c info) inputs) →
      EveryStep InviterSession.Authenticated
        (trace InviterSession.step (InviterSession.new c info) inputs)) := by
  constructor
  · intro info inputs keeps
    refine EveryStep.of_invariant JoinerSession.Pinned.step ?_ (JoinerSession.Pinned.new info)
      inputs keeps
    intro history s input pinned guarded _ v member accepts
    have after := JoinerSession.Pinned.step history s input pinned guarded
    obtain ⟨i, held, parsed⟩ := after.macs v (List.mem_append_left _ member) accepts
    exact ⟨i, held, parseIdentity_eq_ok.mp parsed⟩
  · intro info inputs keeps
    have start : InviterSession.Pinned [] (InviterSession.new c info) := by
      intro _ wrong
      cases wrong
    refine EveryStep.of_invariant InviterSession.Pinned.step ?_ start inputs keeps
    intro history s input pinned guarded result replied done success
    cases input with
    | initial draws blob => cases replied
    | setPin pin => cases replied
    | completion draws blob =>
      have completed : (s.onCompletion draws blob).2 = some (.ok result) := by
        simpa [InviterSession.step] using replied
      obtain ⟨inp, present⟩ := InviterSession.success_captures completed success
      obtain ⟨j, held⟩ := Option.ne_none_iff_exists'.mp present
      have parsed := InviterSession.Pinned.step history s _ pinned guarded j held
      refine ⟨j, held, parseIdentity_eq_ok.mp ?_⟩
      rw [entry_before, ← inp]
      exact parsed

/-- The honest runs of the reference parties authenticate what they capture. -/
theorem captured_identities_reference :
    EveryStep JoinerSession.Authenticated (trace JoinerSession.step Reference.handshake.freshJoiner
      (Reference.handshake.joinerInputs "123456" Reference.discovery)) ∧
    EveryStep InviterSession.Authenticated (trace InviterSession.step
      Reference.handshake.freshInviter
      (Reference.handshake.inviterInputs "123456" Reference.discovery)) :=
  ⟨captured_identities_authenticated.1 _ _
      (Reference.handshake.joinerInputs_keep Reference.lawful "123456" Reference.discovery),
    captured_identities_authenticated.2 _ _
      (Reference.handshake.inviterInputs_keep Reference.lawful "123456")⟩

/-- The reference joiner takes one inviter's identity and the PIN of another. -/
theorem renegotiated_inviter_unauthenticated : ¬ EveryStep JoinerSession.Authenticated
    (trace JoinerSession.step Reference.handshake.freshJoiner
      (Reference.handshake.renegotiatingInputs Reference.lawful Reference.stranger
          Reference.stranger_valid "123456" ++
        [Reference.handshake.renegotiatedMacs Reference.lawful Reference.stranger
            Reference.stranger_valid "123456" Reference.discovery,
          .completion Reference.handshake.peerDraws
            (resultBytes Reference.crates "success")])) := by
  refine Reference.handshake.renegotiated_unauthenticated Reference.lawful Reference.stranger
    Reference.stranger_valid "123456" Reference.discovery ?_
  intro same
  exact absurd (congrArg PairingInfo.name same) (by decide)

end OpenPair
