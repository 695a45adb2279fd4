import OpenPair.Pairing.Exchange

/-! When a Server that registers a peer has authenticated it.

Discovery resumes a completion only with an out-of-band value, while a Type 5
is answered whenever it matches the held NoobId, which is all zeros before any
out-of-band value. The runs whose matching Type 5 messages find one are sound.
-/

set_option autoImplicit false

namespace OpenPair

open Transition

variable {c : Crates}

namespace Server

/-! ## Frames of a message -/

theorem Effect.noob {s t : Server c} {draws : Draws c} {wm : Wire} {out : Option Outcome}
    (effect : s.Effect draws wm t out) : t.m.noob = s.m.noob := by
  cases effect <;> rfl

theorem Effect.state {s t : Server c} {draws : Draws c} {wm : Wire} {out : Option Outcome}
    (effect : s.Effect draws wm t out) :
    t.state = s.state ∨
      (t.state = .waiting ∧ wm.errorCode = none ∧ wm.type = some 3 ∧
        ∃ keypair z np, s.Exchanges wm keypair z np) ∨
      (t.state = .registered ∧ wm.errorCode = none ∧ wm.type = some 6 ∧
        ∃ keym, s.Verifies wm keym) := by
  cases effect with
  | exchanged notice type exchanges => exact .inr (.inl ⟨rfl, notice, type, _, _, _, exchanges⟩)
  | registered notice type verifies => exact .inr (.inr ⟨rfl, notice, type, _, verifies⟩)
  | _ => exact .inl rfl

theorem Effect.assoc {s t : Server c} {draws : Draws c} {wm : Wire} {out : Option Outcome}
    (effect : s.Effect draws wm t out) :
    t.assoc = s.assoc ∨ (wm.errorCode = none ∧ wm.type = some 6 ∧ ∃ keym, s.Verifies wm keym) := by
  cases effect with
  | registered notice type verifies => exact .inr ⟨notice, type, _, verifies⟩
  | _ => exact .inl rfl

theorem Effect.success {s t : Server c} {draws : Draws c} {wm : Wire} {out : Option Outcome}
    {o : Outcome} (effect : s.Effect draws wm t out) (same : out = some o)
    (reports : o.success = true) :
    wm.errorCode = none ∧ wm.type = some 6 ∧ ∃ keym, s.Verifies wm keym := by
  cases effect with
  | registered notice type verifies => exact ⟨notice, type, _, verifies⟩
  | kept quiet | heard _ _ quiet | offered _ _ _ quiet | resumed _ _ _ quiet
  | negotiated _ _ _ _ quiet | matched _ _ _ _ quiet =>
    exact absurd (quiet o same) (by simp [reports])
  | exchanged =>
    cases same
    cases reports

/-- The cached keys change only to those of the values held, with an
out-of-band value or after a Type 5 that matched. -/
theorem Effect.keym {s t : Server c} {draws : Draws c} {wm : Wire} {out : Option Outcome}
    (effect : s.Effect draws wm t out) :
    t.m.keym = s.m.keym ∨
      (t.m.keym = some s.m.keys ∧ (s.m.noob ≠ [] ∨
        (wm.errorCode = none ∧ wm.type = some 5 ∧ s.checkPeerId wm = .ok () ∧
          s.MatchesNoobId wm))) := by
  cases effect with
  | resumed _ _ noob => exact .inr ⟨rfl, .inl noob⟩
  | matched notice type same matched => exact .inr ⟨rfl, .inr ⟨notice, type, same, matched⟩⟩
  | _ => exact .inl rfl

/-! ## What runs keep -/

/-- The step received a Type 6 message and verified its MACp. -/
def AcceptsMacp (e : Step c) (keym : DerivedKeys) : Prop :=
  ∃ wm, Receives e wm ∧ wm.type = some 6 ∧ e.before.Verifies wm keym

/-- The step cached the keys of the values it found. -/
def Derives (e : Step c) (keym : DerivedKeys) : Prop :=
  e.before.m.keys = keym ∧ e.after.m.keym = some keym

/-- The out-of-band value was accepted, after a completed key exchange. -/
def OobFrom (history : List (Step c)) (noob : Bytes) : Prop :=
  ∃ start o rest, history = start ++ o :: rest ∧ AcceptsOob o noob ∧ noob.length = 16 ∧
    ∃ x ∈ start, CompletesKeyExchange x

/-- The keys were derived, after such a value was accepted and with it. -/
def KeysFrom (history : List (Step c)) (keym : DerivedKeys) : Prop :=
  ∃ early d late, history = early ++ d :: late ∧ Derives d keym ∧ OobFrom early d.before.m.noob

def MacpFrom (history : List (Step c)) : Prop :=
  ∃ before t after keym, history = before ++ t :: after ∧ AcceptsMacp t keym ∧
    KeysFrom before keym

/-- What success promises about the run up to it: a step that reports it has accepted
the MACp itself, and one that leaves the Server registered, or an earlier one. -/
structure Authenticated (history : List (Step c)) (e : Step c) : Prop where
  reports : ReportsSuccess e → ∃ keym, AcceptsMacp e keym ∧ KeysFrom history keym
  registered : e.after.state = .registered ∨ e.after.assoc.isSome = true →
    MacpFrom (history ++ [e])

/-- A Type 5 that matches the held NoobId finds an out-of-band value. -/
def NoobIdNeedsNoob (_history : List (Step c)) (e : Step c) : Prop :=
  ∀ wm, Receives e wm → wm.type = some 5 → e.before.checkPeerId wm = .ok () →
    e.before.MatchesNoobId wm → e.before.m.noob ≠ []

theorem OobFrom.concat {history : List (Step c)} {noob : Bytes} {last : Step c} :
    OobFrom history noob → OobFrom (history ++ [last]) noob := by
  rintro ⟨start, o, rest, rfl, found⟩
  exact ⟨start, o, rest ++ [last], by simp, found⟩

theorem KeysFrom.concat {history : List (Step c)} {keym : DerivedKeys} {last : Step c} :
    KeysFrom history keym → KeysFrom (history ++ [last]) keym := by
  rintro ⟨early, d, late, rfl, found⟩
  exact ⟨early, d, late ++ [last], by simp, found⟩

theorem MacpFrom.concat {history : List (Step c)} {last : Step c} :
    MacpFrom history → MacpFrom (history ++ [last]) := by
  rintro ⟨before, t, after, keym, rfl, found⟩
  exact ⟨before, t, after ++ [last], keym, by simp, found⟩

/-- Where each thing a Server holds comes from. -/
structure Sourced (history : List (Step c)) (s : Server c) : Prop where
  waiting : s.state = .waiting → ∃ x ∈ history, CompletesKeyExchange x
  noob : s.m.noob ≠ [] → OobFrom history s.m.noob
  keym : ∀ keym, s.m.keym = some keym → KeysFrom history keym
  registered : s.state = .registered ∨ s.assoc.isSome = true → MacpFrom history

theorem Sourced.concat {history : List (Step c)} {s : Server c} {last : Step c}
    (sourced : Sourced history s) : Sourced (history ++ [last]) s where
  waiting waits := by
    obtain ⟨x, member, completes⟩ := sourced.waiting waits
    exact ⟨x, List.mem_append_left _ member, completes⟩
  noob some := (sourced.noob some).concat
  keym keym cached := (sourced.keym keym cached).concat
  registered granted := (sourced.registered granted).concat

theorem Sourced.initial {s : Server c} (initial : s.Initial) : Sourced [] s := by
  rcases initial with rfl | ⟨info, rfl⟩ <;>
    refine ⟨(nomatch ·), fun wrong => absurd rfl wrong, fun _ wrong => (nomatch wrong), ?_⟩ <;>
    rintro (wrong | wrong) <;> cases wrong

theorem Sourced.step (history : List (Step c)) (s : Server c) (input : Input c)
    (sourced : Sourced history s) (guarded : NoobIdNeedsNoob history (entry step s input)) :
    Sourced (history ++ [entry step s input]) (s.step input).1 := by
  rcases s.step_cases input with ⟨same, -⟩ | ⟨noob, accepts, waits, long, -, after⟩ |
    ⟨draws, bytes, wm, out, rfl, decoded, -, effect⟩
  · rw [same]
    exact sourced.concat
  · have kept : Sourced (history ++ [entry Server.step s input]) s := sourced.concat
    rw [after]
    exact ⟨kept.waiting, fun _ => ⟨history, _, [], rfl, accepts, long, sourced.waiting waits⟩,
      kept.keym, kept.registered⟩
  · have kept : Sourced (history ++ [entry Server.step s (.receive draws bytes)]) s := sourced.concat
    have received : wm.errorCode = none → Receives (entry Server.step s (.receive draws bytes)) wm :=
      fun notice => ⟨draws, bytes, rfl, decoded, notice⟩
    have accepted : (wm.errorCode = none ∧ wm.type = some 6 ∧ ∃ keym, s.Verifies wm keym) →
        MacpFrom (history ++ [entry Server.step s (.receive draws bytes)]) := by
      rintro ⟨notice, type, keym, verifies⟩
      exact ⟨history, _, [], keym, rfl, ⟨wm, received notice, type, verifies⟩,
        sourced.keym keym verifies.cached⟩
    -- What holds after the step held before it, or this is the step that it goes back to.
    refine ⟨fun waits => ?_, fun some => ?_, fun keym cached => ?_, fun granted => ?_⟩
    · rcases effect.state with same | ⟨-, notice, type, keypair, z, np, exchanges⟩ | ⟨registered, -⟩
      · exact kept.waiting (same ▸ waits)
      · exact ⟨_, List.mem_append_right _ (List.mem_singleton_self _), wm, keypair, z, np,
          received notice, type, exchanges⟩
      · rw [registered] at waits
        cases waits
    · rw [effect.noob] at some ⊢
      exact kept.noob some
    · rcases effect.keym with same | ⟨derived, reason⟩
      · exact kept.keym keym (same ▸ cached)
      · have noob : s.m.noob ≠ [] :=
          reason.elim id fun ⟨notice, type, same, matched⟩ =>
            guarded wm (received notice) type same matched
        refine ⟨history, _, [], rfl, ⟨?_, cached⟩, sourced.noob noob⟩
        exact Option.some.inj (derived.symm.trans cached)
    · rcases granted with registered | some
      · rcases effect.state with same | ⟨waits, -⟩ | ⟨-, verified⟩
        · exact kept.registered (.inl (same ▸ registered))
        · rw [waits] at registered
          cases registered
        · exact accepted verified
      · rcases effect.assoc with same | verified
        · exact kept.registered (.inr (same ▸ some))
        · exact accepted verified

theorem ReportsSuccess.acceptsMacp {s : Server c} {input : Input c}
    (reports : ReportsSuccess (entry Server.step s input)) :
    ∃ keym, AcceptsMacp (entry Server.step s input) keym ∧ s.m.keym = some keym := by
  rcases s.step_cases input with ⟨-, silent⟩ | ⟨noob, ⟨-, output⟩, -⟩ |
    ⟨draws, bytes, wm, out, rfl, decoded, output, effect⟩
  · exact absurd reports silent
  · obtain ⟨o, same, -⟩ := reports
    rw [output] at same
    cases same
  · obtain ⟨o, same, success⟩ := reports
    rw [entry_output, output] at same
    obtain ⟨notice, type, keym, verifies⟩ := effect.success (Output.received.inj same) success
    exact ⟨keym, ⟨wm, ⟨draws, bytes, rfl, decoded, notice⟩, type, verifies⟩, verifies.cached⟩

/-- In a run whose matching Type 5 messages find an out-of-band value, every
success follows a verified MACp, its keys an accepted out-of-band value, and
that value a completed key exchange. -/
theorem macp_authenticates {s : Server c} (initial : s.Initial) (inputs : List (Input c))
    (guarded : EveryStep NoobIdNeedsNoob (trace Server.step s inputs)) :
    EveryStep Authenticated (trace Server.step s inputs) := by
  refine EveryStep.of_invariant Sourced.step ?_ (Sourced.initial initial) inputs guarded
  intro history s input sourced guarded
  refine ⟨fun reports => ?_, (Sourced.step history s input sourced guarded).registered⟩
  obtain ⟨keym, accepts, cached⟩ := reports.acceptsMacp
  exact ⟨keym, accepts, sourced.keym keym cached⟩

theorem exchange_noobIdNeedsNoob (lawful : c.Lawful) (x : Exchange c) {noob discovery : Bytes}
    {w : Wire} (long : noob.length = 16) (decoded : c.decodeWire discovery = some w)
    (notice : w.errorCode = none) (type : w.type = some 1) (peerState : w.peerState = some 2) :
    EveryStep NoobIdNeedsNoob
      (trace Server.step x.serverFresh (x.serverInputs noob discovery)) := by
  rw [x.server_trace lawful long decoded notice type peerState]
  refine EveryStep.of_forall fun e member wm received noobId _ _ => ?_
  rw [(x.server_receives lawful decoded type member received).1 noobId]
  exact Exchange.ne_nil_of_length long

/-- The exchange of the reference parties. -/
theorem macp_authenticates_exchange :
    EveryStep Authenticated (trace Server.step Reference.exchange.serverFresh
      (Reference.exchange.serverInputs Reference.noob
        (Reference.crates.encodeWire Reference.discovery))) :=
  macp_authenticates (.inr ⟨_, rfl⟩) _
    (exchange_noobIdNeedsNoob Reference.lawful _ Reference.length_noob
      (Reference.exchange.decode_resumed Reference.lawful _) rfl rfl rfl)

variable (c) in
def zeroNoobId : Wire :=
  { type := some 5, noobId := some (jstr c (c.b64Encode (ByteArr.zeros 16).bytes)) }

variable (c) in
/-- The Type 6 under the keys that anyone can derive from the default values. -/
def defaultMacp : Wire :=
  { type := some 6
    macp := some (jstr c (c.b64Encode (computeMac c (new c).m.keys.kmp.bytes 1 {}).bytes)) }

variable (c) in
def withoutOob (draws : Draws c) : List (Input c) :=
  [.receive draws (c.encodeWire (zeroNoobId c)), .receive draws (c.encodeWire (defaultMacp c))]

theorem withoutOob_registers (lawful : c.Lawful) (draws : Draws c) :
    (run step (new c) (withoutOob c draws)).state = .registered := by
  have first : ((new c).step (.receive draws (c.encodeWire (zeroNoobId c)))).1 = (new c).derived := by
    refine congrArg Prod.fst (receive_matches lawful (lawful.wire _ ?_) rfl rfl rfl ?_)
    · simpa [zeroNoobId, Wire.raws] using lawful.text_jstr _
    · rw [MatchesNoobId, zeroNoobId, lawful.parseB64_jstr]
      rfl
  have second : ((new c).derived.step (.receive draws (c.encodeWire (defaultMacp c)))).1 =
      (new c).derived.registered (new c).m.keys := by
    refine congrArg Prod.fst (receive_verifies (lawful.wire _ ?_) rfl rfl ⟨rfl, rfl, ?_⟩)
    · simpa [defaultMacp, Wire.raws] using lawful.text_jstr _
    · rw [defaultMacp, lawful.parseB64_jstr]
      rfl
  rw [withoutOob, run, run, run, first, second]
  rfl

theorem MacpFrom.oob {history : List (Step c)} (found : MacpFrom history) :
    ∃ o ∈ history, ∃ noob, AcceptsOob o noob := by
  obtain ⟨before, t, after, keym, rfl, -, early, d, late, rfl, -, start, o, rest, rfl, oob, -⟩ :=
    found
  exact ⟨o, by simp, _, oob⟩

theorem withoutOob_unauthenticated (lawful : c.Lawful) (draws : Draws c) :
    ¬ EveryStep Authenticated (trace step (new c) (withoutOob c draws)) := by
  have registers := withoutOob_registers lawful draws
  intro every
  obtain ⟨o, member, noob, oob, -⟩ := ((every [_] _ [] rfl).registered (.inl registers)).oob
  simp only [List.cons_append, List.nil_append, List.mem_cons, List.not_mem_nil, or_false] at member
  rcases member with rfl | rfl <;> cases oob

/-- A fresh Server registers whoever sends these two messages. -/
theorem success_without_oob : ¬ EveryStep Authenticated
    (trace step (new Reference.crates) (withoutOob Reference.crates (Reference.draws .server))) :=
  withoutOob_unauthenticated Reference.lawful _

end Server

end OpenPair
