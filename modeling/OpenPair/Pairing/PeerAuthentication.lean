import OpenPair.Pairing.Exchange

/-! When a Peer that reports success has authenticated its server.

The result message is believed in every state, while the MACs is verified by
another handler. The two agree exactly in the runs whose result messages follow
a verified MACs and find its keys still cached.
-/

set_option autoImplicit false

namespace OpenPair

open Transition

variable {c : Crates}

namespace Peer

/-! ## Frames of a message -/

theorem Effect.noob {p q : Peer c} {draws : Draws c} {wm : Wire} {out : Option Outcome}
    (effect : p.Effect draws wm q out) : q.m.noob = p.m.noob := by
  cases effect <;> rfl

theorem Effect.assoc {p q : Peer c} {draws : Draws c} {wm : Wire} {out : Option Outcome}
    (effect : p.Effect draws wm q out) :
    q.assoc = p.assoc ∨ (wm.eap = some "success" ∧ q = p.registered) := by
  cases effect with
  | registered success => exact .inr ⟨success, rfl⟩
  | _ => exact .inl rfl

theorem Effect.state {p q : Peer c} {draws : Draws c} {wm : Wire} {out : Option Outcome}
    (effect : p.Effect draws wm q out) :
    q.state = p.state ∨ q.state = .waiting ∨ (wm.eap = some "success" ∧ q = p.registered) := by
  cases effect with
  | registered success => exact .inr (.inr ⟨success, rfl⟩)
  | exchanged => exact .inr (.inl rfl)
  | _ => exact .inl rfl

theorem Effect.success {p q : Peer c} {draws : Draws c} {wm : Wire} {out : Option Outcome}
    {o : Outcome} (effect : p.Effect draws wm q out) (same : out = some o) (reports : o.success = true) :
    wm.eap = some "success" ∧ q = p.registered := by
  cases effect with
  | registered success => exact ⟨success, rfl⟩
  | kept quiet | named _ _ _ _ quiet | negotiated _ _ _ _ quiet | exchanged _ _ _ _ quiet
  | refused _ _ _ _ _ _ quiet | verified _ _ _ _ quiet =>
    exact absurd (quiet o same) (by simp [reports])
  | stalled => cases same

theorem Effect.keym {p q : Peer c} {draws : Draws c} {wm : Wire} {out : Option Outcome}
    (effect : p.Effect draws wm q out) :
    q.m.keym = p.m.keym ∨ q.m.keym = some p.m.keys := by
  cases effect with
  | refused | verified => exact .inr rfl
  | _ => exact .inl rfl

theorem receive_verified {p : Peer c} {draws : Draws c} {bytes : Bytes} {wm : Wire}
    (decoded : c.decodeWire bytes = some wm) (result : wm.eap = none) (notice : wm.errorCode = none)
    (type : wm.type = some 6) (verifies : p.Verifies wm) : (p.receive draws bytes).1 = p.derived := by
  have noob : p.m.noob.isEmpty = false := by simpa using verifies.noob
  have macs : macEqual ((parseB64 c wm.macs).getD [])
      (computeMac c p.m.keys.kms.bytes 2 p.m.inp).bytes = true :=
    (macEqual_iff _ _).mpr verifies.macs
  simp [receive, decoded, dispatch, result, notice, type, onCompletion, noob, verifies.noobId, macs]

/-! ## What runs keep -/

/-- A step that succeeds, or leaves the Peer registered or with an association,
comes after a Type 6 whose MACs verified under keys of a Noob accepted before
it, and the association holds the Kz of those keys. -/
def Authenticated (history : List (Step c)) (e : Step c) : Prop :=
  (ReportsSuccess e ∨ e.after.state = .registered ∨ e.after.assoc.isSome = true) →
    ∃ earlier t later, history = earlier ++ t :: later ∧ AcceptsMacs t ∧
      (∃ o ∈ earlier, AcceptsOob o t.before.m.noob) ∧
      ∃ a, e.after.assoc = some a ∧ a.kz = t.before.m.keys.kz

/-- A success result comes after a verified Type 6 and finds the Kz of that
verification cached. -/
def ResultFollowsMacs (history : List (Step c)) (e : Step c) : Prop :=
  ∀ wm, Receives e wm → wm.eap = some "success" →
    ∃ t ∈ history, AcceptsMacs t ∧
      e.before.m.keym.map DerivedKeys.kz = some t.before.m.keys.kz

/-- Facts of the history that hold in every run. -/
structure Remembers (history : List (Step c)) (p : Peer c) : Prop where
  noob : p.m.noob ≠ [] → ∃ o ∈ history, AcceptsOob o p.m.noob
  keym : (∃ t ∈ history, AcceptsMacs t) → p.m.keym.isSome = true
  macs : EveryStep (fun earlier t => AcceptsMacs t → ∃ o ∈ earlier, AcceptsOob o t.before.m.noob)
    history

theorem exists_mem_concat {α : Type} {q : α → Prop} {list : List α} {last : α}
    (found : ∃ x ∈ list, q x) : ∃ x ∈ list ++ [last], q x := by
  obtain ⟨x, member, holds⟩ := found
  exact ⟨x, List.mem_append_left _ member, holds⟩

theorem remembers_step (history : List (Step c)) (p : Peer c) (input : Input c)
    (remembers : Remembers history p) :
    Remembers (history ++ [entry step p input]) (p.step input).1 := by
  have macs : EveryStep
      (fun earlier t => AcceptsMacs t → ∃ o ∈ earlier, AcceptsOob o t.before.m.noob)
      (history ++ [entry step p input]) := by
    refine EveryStep.concat.mpr ⟨remembers.macs, ?_⟩
    rintro ⟨wm, -, -, -, -, verifies⟩
    exact remembers.noob verifies.noob
  -- The keys are derived with the first MACs that verifies and are never dropped.
  have keym : (p.m.keym.isSome = true → (p.step input).1.m.keym.isSome = true) →
      (∃ t ∈ history ++ [entry step p input], AcceptsMacs t) →
      (p.step input).1.m.keym.isSome = true := by
    rintro grows ⟨t, member, accepts⟩
    rcases List.mem_append.mp member with old | last
    · exact grows (remembers.keym ⟨t, old, accepts⟩)
    · obtain ⟨wm, ⟨draws, bytes, same, decoded⟩, result, notice, type, verifies⟩ := accepts
      rw [List.mem_singleton.mp last] at same verifies
      rw [entry_input] at same
      subst same
      rw [entry_before] at verifies
      change (p.receive draws bytes).1.m.keym.isSome = true
      rw [receive_verified decoded result notice type verifies]
      rfl
  rcases p.step_cases input with ⟨same, -⟩ | ⟨noob, accepts, -, -, -, after⟩ |
    ⟨draws, bytes, wm, out, rfl, decoded, -, effect⟩
  · refine ⟨fun some => ?_, keym (by rw [same]; exact id), macs⟩
    rw [same] at some ⊢
    exact exists_mem_concat (remembers.noob some)
  · refine ⟨fun _ => ⟨_, List.mem_append_right _ (List.mem_singleton_self _), ?_⟩,
      keym (by rw [after]; exact id), macs⟩
    rw [after]
    exact accepts
  · refine ⟨fun some => ?_, keym (fun cached => ?_), macs⟩
    · rw [effect.noob] at some ⊢
      exact exists_mem_concat (remembers.noob some)
    · rcases effect.keym with kept | derived
      · rw [kept]; exact cached
      · rw [derived]; rfl

theorem remembers_initial {p : Peer c} (initial : p.Initial) : Remembers [] p := by
  have noob : p.m.noob = [] := by
    rcases initial with rfl | ⟨info, rfl⟩ <;> rfl
  exact ⟨fun some => absurd noob some, fun ⟨_, member, _⟩ => (List.not_mem_nil member).elim,
    EveryStep.nil⟩

/-- An association or the registered state comes from a verified Type 6 with the same Kz. -/
def Vouched (history : List (Step c)) (p : Peer c) : Prop :=
  p.state = .registered ∨ p.assoc.isSome = true →
    ∃ t ∈ history, AcceptsMacs t ∧ ∃ a, p.assoc = some a ∧ a.kz = t.before.m.keys.kz

theorem registered_kz {p : Peer c} {kz : ByteArr 32}
    (cached : p.m.keym.map DerivedKeys.kz = some kz) :
    p.registered.assoc = some p.finish ∧ p.finish.kz = kz :=
  ⟨rfl, by rw [finish, cached]; rfl⟩

theorem Vouched.concat {history : List (Step c)} {last : Step c} {p : Peer c}
    (vouched : Vouched history p) : Vouched (history ++ [last]) p :=
  fun granted => exists_mem_concat (vouched granted)

/-- The step itself vouches for nothing: only the steps before it do. -/
theorem vouched_step (history : List (Step c)) (p : Peer c) (input : Input c)
    (vouched : Vouched history p) (follows : ResultFollowsMacs history (entry step p input)) :
    Vouched history (p.step input).1 := by
  intro granted
  rcases p.step_cases input with ⟨same, -⟩ | ⟨noob, -, -, -, -, after⟩ |
    ⟨draws, bytes, wm, out, rfl, decoded, -, effect⟩
  · rw [same] at granted ⊢
    exact vouched granted
  · rw [after] at granted ⊢
    exact vouched (granted.imp (fun wrong => nomatch wrong) id)
  · by_cases success : wm.eap = some "success" ∧ (p.step (.receive draws bytes)).1 = p.registered
    · obtain ⟨t, member, accepts, cached⟩ := follows wm ⟨draws, bytes, rfl, decoded⟩ success.1
      rw [success.2]
      exact ⟨t, member, accepts, _, (registered_kz cached).1, (registered_kz cached).2⟩
    · have kept := effect.assoc.resolve_right success
      rw [kept] at granted ⊢
      refine vouched (granted.imp_left fun registered => ?_)
      rcases effect.state with same | waits | again
      · exact same ▸ registered
      · rw [waits] at registered
        cases registered
      · exact absurd again success

theorem reportsSuccess_registered {p : Peer c} {input : Input c}
    (reports : ReportsSuccess (entry step p input)) : (p.step input).1 = p.registered := by
  rcases p.step_cases input with ⟨-, silent⟩ | ⟨noob, ⟨-, output⟩, -⟩ |
    ⟨draws, bytes, wm, out, rfl, -, output, effect⟩
  · exact absurd reports silent
  · obtain ⟨o, same, -⟩ := reports
    rw [output] at same
    cases same
  · obtain ⟨o, same, success⟩ := reports
    rw [entry_output, output] at same
    exact (effect.success (Output.received.inj same) success).2

/-! ## The condition is exact -/

/-- A run authenticates every success it reports exactly when its success
results follow a verified MACs. -/
theorem authenticated_iff_resultFollowsMacs {p : Peer c} (initial : p.Initial) (inputs : List (Input c)) :
    EveryStep Authenticated (trace step p inputs) ↔
      EveryStep ResultFollowsMacs (trace step p inputs) := by
  constructor
  · intro every before middle after split
    obtain ⟨first, input, rest, same, rfl, rfl, -⟩ := trace_split step split
    intro wm received success
    have remembers := run_history remembers_step (remembers_initial initial) first
    obtain ⟨draws, bytes, input_eq, decoded⟩ := received
    rw [entry_input] at input_eq
    subst input_eq
    have after_eq : ((run step p first).step (.receive draws bytes)) =
        ((run step p first).registered, .received (some { done := true, success := true })) := by
      simp [step, receive, decoded, dispatch, success, onResult]
    -- The result leaves the Peer registered, so that a MACs has verified before.
    obtain ⟨earlier, t, later, found, accepts, -, a, assoc, kz⟩ :=
      every _ _ _ split (.inr (.inl (by rw [entry_after, after_eq]; rfl)))
    have member : t ∈ trace step p first := by rw [found]; simp
    obtain ⟨keys, cached⟩ := Option.isSome_iff_exists.mp (remembers.keym ⟨t, member, accepts⟩)
    refine ⟨t, member, accepts, ?_⟩
    rw [entry_after, after_eq] at assoc
    rw [entry_before, cached, ← kz, ← Option.some.inj assoc, finish, cached]
    rfl
  · intro follows
    refine EveryStep.of_invariant
      (P := fun history p => Remembers history p ∧ Vouched history p)
      (fun history p input kept follows => ⟨remembers_step history p input kept.1,
        (vouched_step history p input kept.2 follows).concat⟩) ?_
      ⟨remembers_initial initial, ?_⟩ inputs follows
    · rintro history p input ⟨remembers, vouched⟩ follows granted
      have registered :=
        granted.elim (fun reports => .inl (congrArg Peer.state (reportsSuccess_registered reports))) id
      obtain ⟨t, member, accepts, a, assoc, kz⟩ := vouched_step history p input vouched follows registered
      obtain ⟨earlier, later, split⟩ := List.append_of_mem member
      exact ⟨earlier, t, later, split, accepts, remembers.macs _ _ _ split accepts, a, assoc, kz⟩
    · rcases initial with rfl | ⟨info, rfl⟩ <;> rintro (wrong | wrong) <;> cases wrong

theorem exchange_resultFollowsMacs (lawful : c.Lawful) (x : Exchange c) {noob : Bytes} (w : Wire)
    (long : noob.length = 16) :
    EveryStep ResultFollowsMacs (trace step x.peerFresh (x.peerInputs noob w ++ [x.peerResult])) := by
  rw [trace_append, x.peer_run lawful w long]
  refine EveryStep.concat.mpr ⟨?_, ?_⟩
  · intro before middle after split wm received success
    have member : middle ∈ trace step x.peerFresh (x.peerInputs noob w) := by
      rw [split]
      simp
    rw [x.peer_trace lawful w long] at member
    rw [(x.peer_receives lawful member received).1] at success
    cases success
  · rintro wm - -
    refine ⟨entry step (x.peerArmed noob)
      (.receive x.peerDraws (c.encodeWire (x.serverResumed noob w).completionRequest)), ?_,
      ⟨_, ⟨_, _, rfl, (x.serverResumed noob w).decode_completionRequest lawful⟩, rfl, rfl, rfl,
        x.macs_verify lawful w (Exchange.ne_nil_of_length long)⟩, rfl⟩
    rw [x.peer_trace lawful w long]
    simp [Exchange.peerStates, Exchange.peerInputs]

/-- The exchange of the reference parties is authenticated, and ends in the registered state. -/
theorem authenticated_exchange :
    EveryStep Authenticated (trace step Reference.exchange.peerFresh
      (Reference.exchange.peerInputs Reference.noob Reference.discovery ++
        [Reference.exchange.peerResult])) ∧
    (run step Reference.exchange.peerFresh
      (Reference.exchange.peerInputs Reference.noob Reference.discovery ++
        [Reference.exchange.peerResult])).state = .registered := by
  constructor
  · exact (authenticated_iff_resultFollowsMacs (.inr ⟨_, rfl⟩) _).mpr
      (exchange_resultFollowsMacs Reference.lawful _ _ Reference.length_noob)
  · rw [run_append, Reference.exchange.peer_run Reference.lawful _ Reference.length_noob]
    exact congrArg (fun result => result.1.state)
      (Reference.exchange.peer_registers Reference.lawful Reference.exchange.peerDraws
        Reference.noob)

def successResult : Bytes := Reference.crates.encodeWire { eap := some "success" }

/-- A fresh Peer that receives nothing else is registered. -/
theorem success_without_macs : ¬ EveryStep Authenticated
    (trace step (new Reference.crates) [.receive (Reference.draws .peer) successResult]) := by
  intro every
  have decoded : Reference.crates.decodeWire successResult = some { eap := some "success" } :=
    Reference.lawful.wire _ (by simp [Wire.raws])
  have registered : ((new Reference.crates).step
      (.receive (Reference.draws .peer) successResult)).1.state = .registered := by
    simp [step, receive, decoded, dispatch, onResult, Peer.registered]
  obtain ⟨earlier, t, later, found, -⟩ := every [] _ [] rfl (.inr (.inl registered))
  simp at found

end Peer

end OpenPair
