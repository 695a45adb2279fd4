import OpenPair.Cluster.Guesses
import OpenPair.Pairing.Agreement
import OpenPair.Trust.Pem

/-! What an inviter asks of a joiner before it pins it: a MACp over the PIN that
`create_invite` gave its caller.

The keys of that MAC may be older than the PIN, as `on_noob_id` derives keys in
every state. The transcript that it covers is not: it ends with the PIN's
out-of-band value from the first completion request on.
-/

set_option autoImplicit false

namespace OpenPair

open Tasks Transition

variable {c : Crates} {T : Type} {sink : TrustSink T}

/-! ## The PIN -/

theorem isValidPin_mintPin (draw : Fin 1000000) : isValidPin (mintPin draw) = true := by
  have digits : (toString draw.val).toList = Nat.toDigits 10 draw.val := Nat.toList_repr
  have short : (Nat.toDigits 10 draw.val).length ≤ 6 :=
    (Nat.length_toDigits_le_iff (by decide) (by decide)).mpr draw.isLt
  have written : mintPin draw = String.ofList
      (List.replicate (6 - (Nat.toDigits 10 draw.val).length) '0' ++ Nat.toDigits 10 draw.val) := by
    apply String.toList_inj.mp
    simp only [mintPin, String.toList_append, String.toList_ofList, digits, ← String.length_toList]
  have decimal : ∀ ch ∈ List.replicate (6 - (Nat.toDigits 10 draw.val).length) '0' ++
      Nat.toDigits 10 draw.val, ch.isDigit = true := by
    intro ch member
    rcases List.mem_append.mp member with zero | digit
    · rw [List.eq_of_mem_replicate zero]
      rfl
    · exact Nat.isDigit_of_mem_toDigits (by decide) (by decide) digit
  have range (ch : Char) (digit : ch.isDigit = true) : 0x30 ≤ ch.toNat ∧ ch.toNat ≤ 0x39 := by
    simpa [Char.isDigit, UInt32.le_iff_toNat_le] using digit
  rw [isValidPin_iff, written,
    utf8_ascii fun ch member => Nat.lt_of_le_of_lt (range ch (decimal ch member)).2 (by decide)]
  refine ⟨by simp only [List.length_map, List.length_append, List.length_replicate]; omega, ?_⟩
  intro b member
  obtain ⟨ch, inside, rfl⟩ := List.mem_map.mp member
  obtain ⟨low, high⟩ := range ch (decimal ch inside)
  have byte : ch.toUInt8.toNat = ch.toNat := by
    rw [Char.toUInt8, UInt32.toNat_toUInt8]
    exact Nat.mod_eq_of_lt (Nat.lt_of_le_of_lt high (by decide))
  simp only [isAsciiDigit, Bool.and_eq_true, decide_eq_true_eq, UInt8.le_iff_toNat_le, byte]
  exact ⟨low, high⟩

variable (c) in
def pinElement (pin : String) : String := c.jsonStr (c.b64Encode (noobFromPin pin).bytes)

theorem pinElement_injective (lawful : c.Lawful) {p q : String} (valid : isValidPin p = true)
    (valid' : isValidPin q = true) (same : pinElement c p = pinElement c q) : p = q := by
  have texts := congrArg c.readStr same
  rw [pinElement, pinElement, lawful.str, lawful.str] at texts
  have bytes := congrArg c.b64Decode (Option.some.inj texts)
  rw [lawful.b64, lawful.b64] at bytes
  exact noobFromPin_injective valid valid' (Option.some.inj bytes)

/-! ## The transcript of a session -/

theorem Server.Effect.covers {s t : Server c} {draws : Draws c} {wm : Wire} {out : Option Outcome}
    (effect : s.Effect draws wm t out) : t.m.inp.noob = s.m.inp.noob := by
  cases effect <;> rfl

theorem Server.receive_covers (s : Server c) (draws : Draws c) (bytes : Bytes) :
    (s.receive draws bytes).1.m.inp.noob = s.m.inp.noob := by
  rcases s.receive_effect draws bytes with malformed | ⟨wm, decoded, effect⟩
  · rw [malformed]
  · exact effect.covers

variable (c) in
/-- Two different inputs of HMAC-SHA256 with the same MAC. -/
def HmacCollides (key data key' data' : Bytes) : Prop :=
  data ≠ data' ∧ c.hmacSha256 key data = c.hmacSha256 key' data'

namespace InviterSession

variable {s t : InviterSession c} {draws : Draws c} {blob : Bytes} {pin inviteId : String}

/-- The MACs of the Server cover the PIN's out-of-band value. -/
structure Covers (s : InviterSession c) (pin : String) : Prop where
  element : s.server.m.inp.noob = pinElement c pin
  consistent : s.server.Consistent
  minted : ∃ draw, pin = mintPin draw

/-- A Type 6 whose MAC covers the PIN, and no other PIN in whatever transcript and
under whatever key, unless the two MACs are a collision. -/
def Proves (s : InviterSession c) (blob : Bytes) (pin : String) : Prop :=
  ∃ wm held, c.decodeWire blob = some wm ∧ wm.type = some 6 ∧
    s.server.m.inp.noob = pinElement c pin ∧
    (parseB64 c wm.macp).getD [] = (computeMac c held 1 s.server.m.inp).bytes ∧
    ∀ key inp other, inp.Embedded c → isValidPin other = true → inp.noob = pinElement c other →
      (parseB64 c wm.macp).getD [] = (computeMac c key 1 inp).bytes →
      other = pin ∨ HmacCollides c held (noobArray (toString (1 : Int64)) s.server.m.inp) key
        (noobArray (toString (1 : Int64)) inp)

theorem step_consistent (lawful : c.Lawful) (consistent : s.server.Consistent) (input : Input c) :
    (s.step input).1.server.Consistent := by
  rw [(s.step_cases input).1]
  exact Server.Consistent.step lawful consistent input.machine

theorem invite_covers (lawful : c.Lawful) (consistent : s.server.Consistent)
    {draw : Fin 1000000} (invited : s.invite (mintPin draw) = .ok t) : t.Covers (mintPin draw) := by
  unfold invite at invited
  split at invited
  · cases invited
  · have kept := step_consistent lawful consistent (.setPin (mintPin draw))
    simp only [step] at kept
    unfold setPin at invited kept
    split at invited
    · cases invited
    · next accepted =>
      cases invited
      rw [accepted] at kept
      refine ⟨?_, kept, draw, rfl⟩
      rw [Server.oobOutputWith_accepted accepted]
      rfl

theorem Covers.completionRequest (lawful : c.Lawful) (covers : s.Covers pin) (draws : Draws c)
    (inviteId : String) (blob : Bytes) :
    (s.completionRequest draws inviteId blob).1.Covers pin := by
  unfold InviterSession.completionRequest
  split
  · exact covers
  · have machine : (s.onCompletion draws blob).1.server = (s.server.receive draws blob).1 :=
      (s.step_cases (.completion draws blob)).1
    have element : (s.onCompletion draws blob).1.server.m.inp.noob = pinElement c pin := by
      rw [machine, s.server.receive_covers draws blob]
      exact covers.element
    exact ⟨element, step_consistent lawful covers.consistent (.completion draws blob), covers.minted⟩

/-- One array has one PIN. -/
theorem Covers.only (lawful : c.Lawful) (covers : s.Covers pin) {inp : MacInputs} {other : String}
    (embedded : inp.Embedded c) (valid : isValidPin other = true)
    (element : inp.noob = pinElement c other)
    (same : noobArray (toString (1 : Int64)) s.server.m.inp = noobArray (toString (1 : Int64)) inp) :
    other = pin := by
  have lists := noobParts_injective (closed_noobParts lawful covers.consistent.embedded)
    (closed_noobParts lawful embedded) same
  have last := congrArg MacInputs.noob (emitted_of_noobParts lists).2
  have some (p : String) : pinElement c p ≠ "" := (lawful.text_str _).ne_empty lawful
  simp only [MacInputs.emitted, covers.element, element, el_of_ne (some _)] at last
  obtain ⟨draw, rfl⟩ := covers.minted
  exact pinElement_injective lawful valid (isValidPin_mintPin draw) last.symm

theorem Covers.proves (lawful : c.Lawful) (covers : s.Covers pin) {out : Outcome}
    (answered : (s.server.receive draws blob).2 = some out) (success : out.success = true) :
    s.Proves blob pin := by
  obtain ⟨wm, keym, decoded, -, type, verifies⟩ := Server.receive_success_verifies answered success
  refine ⟨wm, keym.kmp.bytes, decoded, type, covers.element, verifies.macp, ?_⟩
  intro key inp other embedded valid element mac
  by_cases same : noobArray (toString (1 : Int64)) s.server.m.inp =
      noobArray (toString (1 : Int64)) inp
  · exact .inl (covers.only lawful embedded valid element same)
  · exact .inr ⟨same, ByteArr.ext (verifies.macp.symm.trans mac)⟩

end InviterSession

/-! ## Runs -/

/-- The turn in which `create_invite` returns the PIN of its invite. -/
def Offers (e : NodeStep c T) (id : CallId) (pin : String) : Prop :=
  ∃ io seen, e.input = .resume id io ∧ e.output = some seen ∧
    seen.returned = some (.invited (.ok (id.inviteId, pin)))

/-- The peer that a completion request pins has proved the PIN of its invite. -/
def PinsProved (before : List (NodeStep c T)) (e : NodeStep c T) : Prop :=
  ∀ inviteId handle, CompletionPins e inviteId handle → handle.inviteId = inviteId ∧
    ∃ pin id s draws blob, (∃ f ∈ before, Offers f handle pin) ∧
      Hands e id handle s draws blob ∧ s.Proves blob pin

def Point.Arming : Point c → Prop
  | .createAwait _ s => s.server.Consistent
  | .createInsert s pin => s.Covers pin
  | _ => True

theorem Point.Ended.arming {point : Point c} (ended : point.Ended) : point.Arming := by
  cases point <;> trivial

namespace PairingNode

variable {n : PairingNode c T} {id : CallId} {io : Io c} {addr : String} {s : InviterSession c}

theorem createAwait_arming (lawful : c.Lawful) (consistent : s.server.Consistent) :
    (n.createAwait id io addr s).point.Arming := by
  unfold createAwait
  split
  · trivial
  · next resp answered =>
    have heard : (s.initialResponse io.draws resp).1.server.Consistent := by
      unfold InviterSession.initialResponse
      split
      · exact consistent
      · exact InviterSession.step_consistent lawful consistent (.initial io.draws (resp.blob c))
    split
    · trivial
    · trivial
    · next t msg stepped =>
      rw [stepped] at heard
      exact heard
    · next t stepped =>
      rw [stepped] at heard
      split
      · trivial
      · next invited => exact InviterSession.invite_covers lawful heard invited

theorem start_arming (lawful : c.Lawful) (call : Call) : (n.start call).point.Arming := by
  cases call with
  | request env =>
    simp only [start]
    repeat' split
    all_goals trivial
  | createInvite inviteId addr =>
    exact Server.Consistent.initial (.inr ⟨_, rfl⟩) (lawful.text_info _)
  | submitPin inviteId pin =>
    simp only [start]
    split <;> trivial

theorem Effect.arming {m : PairingNode c T} {point after : Point c} {pinned : Option Paired}
    (effect : n.Effect sink id point m after pinned) (arming : point.Arming)
    (other : ∀ addr s, point ≠ .createAwait addr s) : after.Arming := by
  cases effect with
  | stays => exact arming
  | leaves more settled ended => exact ended.arming
  | joinerStepped held ended => exact ended.arming
  | inviterStepped found answered quiet ended => exact ended.arming
  | offering => exact absurd rfl (other _ _)
  | inviting => exact absurd rfl (other _ _)
  | _ => trivial

theorem advance_arming (lawful : c.Lawful) {point : Point c} (arming : point.Arming) :
    (n.advance sink id io point).point.Arming := by
  by_cases creating : ∃ addr s, point = .createAwait addr s
  · obtain ⟨addr, s, rfl⟩ := creating
    exact createAwait_arming lawful arming
  · exact (n.advance_turned sink id io point).arming arming fun addr s same =>
      creating ⟨addr, s, same⟩

end PairingNode

/-- Every session in the table, or on its way there, covers the PIN of its invite. -/
structure Covered (history : List (NodeStep c T)) (w : World c T) : Prop where
  keyed : w.Keyed
  invited : w.Invited
  sessions : ∀ {handle s}, w.shared.inviterSessions handle = some s →
    ∃ pin, (∃ f ∈ history, Offers f handle pin) ∧ s.Covers pin
  arming : ∀ {id task}, w.tasks id = some task → task.point.Arming

namespace Covered

variable {history : List (NodeStep c T)} {w : World c T} {e : NodeStep c T} {handle : CallId}
  {s : InviterSession c}

theorem fresh (profile : NodeProfile) (trust : T) : Covered [] (World.fresh c profile trust) where
  keyed := .fresh profile trust
  invited := .fresh profile trust
  sessions wrong := by cases wrong
  arming wrong := by cases wrong

theorem kept (covered : Covered history w) (session : w.shared.inviterSessions handle = some s) :
    ∃ pin, (∃ f ∈ history ++ [e], Offers f handle pin) ∧ s.Covers pin := by
  obtain ⟨pin, ⟨f, member, offers⟩, covers⟩ := covered.sessions session
  exact ⟨pin, ⟨f, List.mem_append_left _ member, offers⟩, covers⟩

theorem turn (lawful : c.Lawful) (covered : Covered history w) {id : CallId} {io : Io c}
    {task : Task Call (Point c)} (found : w.tasks id = some task)
    (session : (w.shared.advance sink id io task.point).shared.inviterSessions handle = some s) :
    ∃ pin, (∃ f ∈ history ++ [entry (nodeStep c sink) w (.resume id io)], Offers f handle pin) ∧
      s.Covers pin := by
  have turned : w.shared.Effect sink id task.point _ _ _ :=
    w.shared.advance_turned sink id io task.point
  rcases World.session_effect handle turned with same | ⟨t, pin, here, rfl, -, set⟩ |
    ⟨blob, t, u, draws, answer, -, before, answered, set⟩
  · exact covered.kept (same.symm.trans session)
  · -- The session gets into the table in the turn that returns its PIN.
    obtain rfl := Option.some.inj (set.symm.trans session)
    obtain ⟨call, point⟩ := task
    obtain rfl : point = .createInsert t pin := here
    have stepped : nodeStep c sink w (.resume handle io) = _ := step_resume (p := pairing c sink) found
    exact ⟨pin, ⟨_, List.mem_append_right _ (List.mem_singleton_self _), io, _, rfl,
      congrArg Prod.snd stepped, rfl⟩, covered.arming found⟩
  · obtain rfl := Option.some.inj (set.symm.trans session)
    obtain ⟨pin, offered, covers⟩ := covered.kept before
    have stepped := covers.completionRequest lawful draws id.inviteId blob
    rw [answered] at stepped
    exact ⟨pin, offered, stepped⟩

theorem step (lawful : c.Lawful) (history : List (NodeStep c T)) (w : World c T)
    (event : NodeEvent c) (covered : Covered history w) :
    Covered (history ++ [entry (nodeStep c sink) w event]) (nodeStep c sink w event).1 := by
  refine ⟨covered.keyed.step event, covered.invited.step event, fun session => ?_,
    fun {id task} found => ?_⟩
  · rcases nodeStep_cases sink w event with idle | ⟨serial, made, rfl, new, started⟩ |
      ⟨id, io, task, rfl, found, turned, advanced⟩
    · rw [idle] at session
      exact covered.kept session
    · rw [started, put_shared, w.shared.start_shared made] at session
      exact covered.kept session
    · rw [advanced] at session
      exact covered.turn lawful found session
  · rcases nodeStep_cases sink w event with idle | ⟨serial, made, rfl, new, started⟩ |
      ⟨own, io, task, rfl, running, turned, advanced⟩
    · rw [idle] at found
      exact covered.arming found
    · rw [started] at found
      rcases put_tasks found with ⟨-, rfl⟩ | ⟨-, old⟩
      · exact PairingNode.start_arming lawful made
      · exact covered.arming old
    · rw [advanced] at found
      rcases put_tasks found with ⟨-, rfl⟩ | ⟨-, old⟩
      · exact PairingNode.advance_arming lawful (covered.arming running)
      · exact covered.arming old

theorem gives (lawful : c.Lawful) (covered : Covered history w) (event : NodeEvent c) :
    PinsProved history (entry (nodeStep c sink) w event) := by
  intro inviteId handle pins
  obtain ⟨own, s, draws, blob, out, t, named, hands, some, received, success, -⟩ :=
    pins.hands covered.invited
  obtain ⟨same, -⟩ :=
    Completes.held covered.keyed ⟨own, s, draws, blob, named, hands, some, received⟩
  have session : w.shared.inviterSessions handle = .some s := by
    obtain ⟨io, call, -, -, -, session⟩ := hands
    exact session
  obtain ⟨pin, offered, covers⟩ := covered.sessions session
  exact ⟨same, pin, own, s, draws, blob, offered, hands, covers.proves lawful received success⟩

end Covered

/-- Whatever is sent to an inviter, and in whichever order its calls make their
turns, a completion request that pins its sender carries a MAC that covers the PIN
which `create_invite` returned for the invite. -/
theorem pins_proved (lawful : c.Lawful) (sink : TrustSink T) (profile : NodeProfile) (trust : T)
    (events : List (NodeEvent c)) :
    EveryStep PinsProved (trace (nodeStep c sink) (World.fresh c profile trust) events) := by
  have every : EveryStep (fun _ _ => True)
      (trace (nodeStep c sink) (World.fresh c profile trust) events) := fun _ _ _ _ => trivial
  exact EveryStep.of_invariant
    (fun history w event covered _ => Covered.step lawful history w event covered)
    (fun _ _ event covered _ => covered.gives lawful event) (.fresh profile trust) events every

/-- The run of one pairing. -/
theorem pins_proved_reference :
    (∃ f ∈ trace (nodeStep Reference.crates Reference.keeping) Reference.inviterNode
        Reference.pairing, CompletionPins f "invite" ⟨"invite", 0⟩) ∧
      EveryStep PinsProved
        (trace (nodeStep Reference.crates Reference.keeping) Reference.inviterNode
          Reference.pairing) :=
  ⟨Reference.paired.1, pins_proved Reference.lawful Reference.keeping Reference.inviterProfile []
    Reference.pairing⟩

end OpenPair
