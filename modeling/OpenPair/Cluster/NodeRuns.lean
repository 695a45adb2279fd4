import OpenPair.Cluster.Node

/-! Runs of the endpoint: any calls, and their turns in any order. -/

set_option autoImplicit false

namespace OpenPair

open Tasks Transition

variable {c : Crates} {T : Type} {sink : TrustSink T}

variable (c T) in
abbrev World := Executor (PairingNode c T) CallId Call (Point c)

variable (c) in
abbrev NodeEvent := Tasks.Event CallId Call (Io c)

variable (c T) in
abbrev NodeStep := Entry (World c T) (NodeEvent c) (Option Observed)

variable (c) in
def World.fresh (profile : NodeProfile) (trust : T) : World c T :=
  { shared := { profile := profile, trust := trust } }

variable (c) in
def PairingNode.pendingInvites (n : PairingNode c T) : List PendingInvite :=
  n.pending.entries.map Sigma.snd

variable (c) in
def nodeStep (sink : TrustSink T) : World c T → NodeEvent c → World c T × Option Observed :=
  (pairing c sink).step

def inviteOf : NodeEvent c → String
  | .call _ call => call.inviteId
  | .resume id _ => id.inviteId

/-! ## What a turn does -/

def Point.joinerHandle : Point c → Option CallId
  | .initialSession _ handle | .initialEvict handle _ | .submitFeed _ handle | .submitAwait _ handle
  | .submitSession _ handle _ | .submitPaired _ handle => some handle
  | _ => none

def Point.Ended : Point c → Prop
  | .returned | .panicked => True
  | _ => False

/-- A point that a call reaches before its first turn. -/
def Point.First : Point c → Prop
  | .initialLookup _ | .completionLookup _ | .cancelJoiner | .endInvite | .createAwait _ _
  | .submitLookup _ | .returned => True
  | _ => False

/-- A point whose turn does the same whatever it finds. -/
def Point.Settled : Point c → Prop
  | .initialEvict _ _ | .initialPending _ _ | .cancelJoiner | .cancelPending | .endInvite
  | .createInsert _ _ | .submitForget _ _ | .submitForgetPending _ _ | .failAwait _
  | .failForget _ | .failForgetPending _ => True
  | _ => False

namespace PairingNode

/-- Everything a turn can do: the node, the point and the peer pinned. -/
inductive Effect (sink : TrustSink T) (n : PairingNode c T) (id : CallId) :
    Point c → PairingNode c T → Point c → Option Paired → Prop where
  | stays {point} : ¬ point.Settled → Effect sink n id point n point none
  | leaves {point after} : ¬ point.Ended → ¬ point.Settled → after.Ended →
      Effect sink n id point n after none
  | joinerFound {msg handle} : n.joiners.lookup id.inviteId = some handle →
      Effect sink n id (.initialLookup msg) n (.initialSession msg handle) none
  | opened {msg session} : n.joiners.lookup id.inviteId = none → firstType c msg = some 1 →
      sink.isClustered n.trust = false → Effect sink n id (.initialLookup msg)
        ({ n with joiners := n.joiners.insert id.inviteId id }.setJoiner id session false)
        (.initialSession msg id) none
  | joinerStepped {point handle session after} : point.joinerHandle = some handle → after.Ended →
      Effect sink n id point (n.setJoiner handle session false) after none
  | refused {msg handle session reply} : Effect sink n id (.initialSession msg handle)
      (n.setJoiner handle session true) (.initialEvict handle reply) none
  | evicted {handle reply sessions} :
      (∀ other, other ≠ handle → sessions other = n.joinerSessions other) →
      Effect sink n id (.initialEvict handle reply)
        { n.forgetJoiner id.inviteId with joinerSessions := sessions } .returned none
  | waiting {msg handle session invite reply} : invite.inviteId = id.inviteId →
      Effect sink n id (.initialSession msg handle) (n.setJoiner handle session false)
        (.initialPending invite reply) none
  | shown {invite reply} : Effect sink n id (.initialPending invite reply)
      { n with pending := n.pending.insert invite.inviteId invite } .returned none
  | inviterFound {blob handle} : n.inviters.lookup id.inviteId = some handle →
      Effect sink n id (.completionLookup blob) n (.completionSession blob handle) none
  | inviterStepped {blob handle s t draws answer after} : n.inviterSessions handle = some s →
      s.completionRequest draws id.inviteId blob = (t, answer) →
      (∀ reply paired, answer ≠ some (reply, some paired)) → after.Ended →
      Effect sink n id (.completionSession blob handle) (n.setInviter handle t) after none
  | inviterPinned {blob handle s t draws reply paired} : n.inviterSessions handle = some s →
      s.completionRequest draws id.inviteId blob = (t, some (reply, some paired)) →
      Effect sink n id (.completionSession blob handle)
        { n.setInviter handle t with trust := sink.pinPeer n.trust paired } .returned (some paired)
  | cancelled : Effect sink n id .cancelJoiner (n.forgetJoiner id.inviteId) .cancelPending none
  | cancelledPending : Effect sink n id .cancelPending (n.forgetPending id.inviteId) .returned none
  | ended : Effect sink n id .endInvite (n.forgetInviter id.inviteId) .returned none
  | offering {addr s t} : Effect sink n id (.createAwait addr s) n (.createAwait addr t) none
  | inviting {addr s t pin} : Effect sink n id (.createAwait addr s) n (.createInsert t pin) none
  | invited {s pin} : Effect sink n id (.createInsert s pin)
      ({ n with inviters := n.inviters.insert id.inviteId id }.setInviter id s) .returned none
  | submitting {pin handle} : n.joiners.lookup id.inviteId = some handle →
      Effect sink n id (.submitLookup pin) n (.submitFeed pin handle) none
  | fed {pin handle session addr} : Effect sink n id (.submitFeed pin handle)
      (n.setJoiner handle session false) (.submitAwait addr handle) none
  | heard {addr handle resp} : Effect sink n id (.submitAwait addr handle) n
      (.submitSession addr handle resp) none
  | sending {addr handle resp session} : Effect sink n id (.submitSession addr handle resp)
      (n.setJoiner handle session false) (.submitAwait addr handle) none
  | succeeded {addr handle resp s t draws step} : n.joiner handle = some s →
      s.completionResponse draws resp = (t, some (.ok (.done step))) → step.success = true →
      Effect sink n id (.submitSession addr handle resp) (n.setJoiner handle t false)
        (.submitPaired addr handle) none
  | failed {addr handle resp session step} : Effect sink n id (.submitSession addr handle resp)
      (n.setJoiner handle session false) (.failAwait step) none
  | joinerPinned {addr handle s paired} : n.joiner handle = some s → s.paired = .ok paired →
      Effect sink n id (.submitPaired addr handle)
        { n with trust := sink.pinPeer n.trust paired } (.submitForget addr paired) (some paired)
  | forgotten {addr paired} : Effect sink n id (.submitForget addr paired)
      (n.forgetJoiner id.inviteId) (.submitForgetPending addr paired) none
  | forgottenPending {addr paired} : Effect sink n id (.submitForgetPending addr paired)
      (n.forgetPending id.inviteId) (.submitAck paired) none
  | notified {step} : Effect sink n id (.failAwait step) n (.failForget step) none
  | failForgotten {step} : Effect sink n id (.failForget step)
      (n.forgetJoiner id.inviteId) (.failForgetPending step) none
  | failForgottenPending {step} : Effect sink n id (.failForgetPending step)
      (n.forgetPending id.inviteId) .returned none

theorem Effect.of_ended {sink : TrustSink T} {n m : PairingNode c T} {id : CallId}
    {point after : Point c} {pinned : Option Paired}
    (effect : Effect sink n id point m after pinned) (ended : point.Ended) :
    m = n ∧ after = point ∧ pinned = none := by
  cases effect with
  | stays => exact ⟨rfl, rfl, rfl⟩
  | leaves more => exact absurd ended more
  | joinerStepped handle => cases point <;> first | exact ended.elim | cases handle
  | _ => cases ended

def Turned (sink : TrustSink T) (n : PairingNode c T) (id : CallId) (point : Point c)
    (turn : Turn c T) : Prop :=
  Effect sink n id point turn.shared turn.point turn.seen.pinned

variable (sink) (n : PairingNode c T) (id : CallId) (io : Io c)

theorem initialLookup_turned (msg : Bytes) :
    Turned sink n id (.initialLookup msg) (n.initialLookup sink id msg) := by
  unfold initialLookup
  split
  · next handle found => exact .joinerFound found
  · next absent =>
    split
    · exact .leaves not_false not_false trivial
    · next first =>
      split
      · exact .leaves not_false not_false trivial
      · next free => exact .opened absent (not_not.mp first) (eq_false_of_ne_true free)

theorem withJoiner_turned {point : Point c} {handle : CallId} {turn : JoinerSession c → Turn c T}
    (unsettled : ¬ point.Settled) (turns : ∀ s, n.joiner handle = some s → Turned sink n id point (turn s)) :
    Turned sink n id point (n.withJoiner handle point turn) := by
  unfold withJoiner
  split
  · exact .stays unsettled
  · next s free => exact turns s free

theorem initialRequest_invite {s t : JoinerSession c} {draws : Draws c} {inviteId : String}
    {msg : Bytes} {reply : Reply} {invite : PendingInvite}
    (answered : s.initialRequest draws inviteId msg = (t, some (.ok (reply, some invite)))) :
    invite.inviteId = inviteId := by
  obtain ⟨rfl, answer⟩ := Prod.mk.inj answered
  obtain ⟨result, -, shown⟩ := Option.map_eq_some_iff.mp answer
  cases result with
  | error e => cases shown
  | ok bytes =>
    simp only [Except.map, Except.ok.injEq, Prod.mk.injEq] at shown
    have found := shown.2
    split at found
    · obtain ⟨inviter, -, rfl⟩ := Option.map_eq_some_iff.mp found
      rfl
    · cases found

theorem initialSession_turned (draws : Draws c) (msg : Bytes) (handle : CallId)
    (s : JoinerSession c) : Turned sink n id (.initialSession msg handle)
      (n.initialSession id draws msg handle s) := by
  unfold initialSession
  split
  · exact .joinerStepped rfl trivial
  · exact .refused
  · exact .joinerStepped rfl trivial
  · next answered => exact .waiting (initialRequest_invite answered)

theorem completionSession_turned (draws : Draws c) (blob : Bytes) (handle : CallId)
    {s : InviterSession c} (found : n.inviterSessions handle = some s) :
    Turned sink n id (.completionSession blob handle)
      (n.completionSession sink id draws blob handle s) := by
  unfold completionSession
  split
  · next answered =>
    exact .inviterStepped found answered (fun _ _ wrong => by cases wrong) trivial
  · next answered =>
    exact .inviterStepped found answered (fun _ _ wrong => by cases wrong) trivial
  · next answered => exact .inviterPinned found answered

theorem createAwait_turned (joinerAddr : String) (s : InviterSession c) :
    Turned sink n id (.createAwait joinerAddr s) (n.createAwait id io joinerAddr s) := by
  unfold createAwait
  split
  · exact .leaves not_false not_false trivial
  · split
    · exact .leaves not_false not_false trivial
    · exact .leaves not_false not_false trivial
    · exact .offering
    · split
      · exact .leaves not_false not_false trivial
      · exact .inviting

theorem submitFeed_turned (pin : String) (handle : CallId) (s : JoinerSession c) :
    Turned sink n id (.submitFeed pin handle) (n.submitFeed id pin handle s) := by
  unfold submitFeed
  split
  · exact .joinerStepped rfl trivial
  · exact .fed

theorem submitSession_turned (draws : Draws c) (addr : String) {handle : CallId}
    (resp : PairingEnvelope) {s : JoinerSession c} (free : n.joiner handle = some s) :
    Turned sink n id (.submitSession addr handle resp)
      (n.submitSession id draws addr handle resp s) := by
  unfold submitSession
  split
  · exact .joinerStepped rfl trivial
  · exact .joinerStepped rfl trivial
  · exact .sending
  · next stepped =>
    split
    · next success => exact .succeeded free stepped success
    · exact .failed

theorem submitPaired_turned (addr : String) {handle : CallId} {s : JoinerSession c}
    (free : n.joiner handle = some s) :
    Turned sink n id (.submitPaired addr handle) (n.submitPaired sink addr s) := by
  unfold submitPaired
  split
  · exact .leaves not_false not_false trivial
  · next paired => exact .joinerPinned free paired

/-- What a turn does, at every point. -/
theorem advance_turned (point : Point c) :
    Turned sink n id point (n.advance sink id io point) := by
  -- One case for each await point. Where a turn looks up a table, what it found is kept for the
  -- later turns of the call.
  cases point with
  | initialLookup msg => exact initialLookup_turned sink n id msg
  | initialSession msg handle =>
    exact withJoiner_turned sink n id not_false fun s _ => initialSession_turned sink n id io.draws msg handle s
  | initialEvict handle reply =>
    exact .evicted fun other differs => Function.update_of_ne differs _ _
  | initialPending invite reply => exact .shown
  | completionLookup blob =>
    simp only [advance, completionLookup]
    split
    · next found => exact .inviterFound found
    · exact .leaves not_false not_false trivial
  | completionSession blob handle =>
    simp only [advance]
    split
    · exact .stays not_false
    · next s found => exact completionSession_turned sink n id io.draws blob handle found
  | cancelJoiner => exact .cancelled
  | cancelPending => exact .cancelledPending
  | endInvite => exact .ended
  | createAwait addr s => exact createAwait_turned sink n id io addr s
  | createInsert s pin => exact .invited
  | submitLookup pin =>
    simp only [advance, submitLookup]
    split
    · next found => exact .submitting found
    · exact .leaves not_false not_false trivial
  | submitFeed pin handle =>
    exact withJoiner_turned sink n id not_false fun s _ => submitFeed_turned sink n id pin handle s
  | submitAwait addr handle =>
    simp only [advance]
    split
    · exact .leaves not_false not_false trivial
    · exact .heard
  | submitSession addr handle resp =>
    exact withJoiner_turned sink n id not_false fun s free =>
      submitSession_turned sink n id io.draws addr resp free
  | submitPaired addr handle =>
    exact withJoiner_turned sink n id not_false fun s free => submitPaired_turned sink n id addr free
  | submitForget addr paired => exact .forgotten
  | submitForgetPending addr paired => exact .forgottenPending
  | submitAck paired => exact .leaves not_false not_false trivial
  | failAwait step => exact .notified
  | failForget step => exact .failForgotten
  | failForgetPending step => exact .failForgottenPending
  | returned => exact .stays not_false
  | panicked => exact .stays not_false

theorem start_shared (call : Call) : (n.start call).shared = n := by
  cases call with
  | request env =>
    simp only [start]
    repeat' split
    all_goals rfl
  | createInvite inviteId addr => rfl
  | submitPin inviteId pin =>
    simp only [start]
    split <;> rfl

theorem start_first (call : Call) : (n.start call).point.First := by
  cases call with
  | request env =>
    simp only [start]
    repeat' split
    all_goals trivial
  | createInvite inviteId addr => trivial
  | submitPin inviteId pin =>
    simp only [start]
    split <;> trivial

end PairingNode

/-! ## Every table and every call keeps to its invite -/

/-- What a call holds at a point is of this invite. -/
def Point.For (inviteId : String) : Point c → Prop
  | .initialSession _ handle => handle.inviteId = inviteId
  | .initialEvict handle _ => handle.inviteId = inviteId
  | .initialPending invite _ => invite.inviteId = inviteId
  | .completionSession _ handle => handle.inviteId = inviteId
  | .submitFeed _ handle => handle.inviteId = inviteId
  | .submitAwait _ handle => handle.inviteId = inviteId
  | .submitSession _ handle _ => handle.inviteId = inviteId
  | .submitPaired _ handle => handle.inviteId = inviteId
  | _ => True

structure PairingNode.Keyed (n : PairingNode c T) : Prop where
  joiners : ∀ {inviteId handle}, n.joiners.lookup inviteId = some handle →
    handle.inviteId = inviteId
  inviters : ∀ {inviteId handle}, n.inviters.lookup inviteId = some handle →
    handle.inviteId = inviteId
  pending : ∀ {inviteId invite}, n.pending.lookup inviteId = some invite →
    invite.inviteId = inviteId

structure World.Keyed (x : World c T) : Prop where
  node : x.shared.Keyed
  tasks : ∀ {id task}, x.tasks id = some task →
    task.call.inviteId = id.inviteId ∧ task.point.For id.inviteId

theorem lookup_insert_cases {V : Type} {table : Table V} {key other : String} {value found : V}
    (lookup : (table.insert key value).lookup other = some found) :
    (other = key ∧ found = value) ∨ table.lookup other = some found := by
  by_cases same : other = key
  · subst same
    rw [AList.lookup_insert] at lookup
    exact .inl ⟨rfl, (Option.some.inj lookup).symm⟩
  · rw [AList.lookup_insert_ne same] at lookup
    exact .inr lookup

theorem lookup_erase_some {V : Type} {table : Table V} {key other : String} {found : V}
    (lookup : (table.erase key).lookup other = some found) :
    other ≠ key ∧ table.lookup other = some found := by
  by_cases same : other = key
  · subst same
    rw [AList.lookup_erase] at lookup
    cases lookup
  · rw [AList.lookup_erase_ne same] at lookup
    exact ⟨same, lookup⟩

namespace PairingNode

variable {n : PairingNode c T} {id handle : CallId} {io : Io c}

theorem Keyed.insertJoiner (keyed : n.Keyed) :
    Keyed { n with joiners := n.joiners.insert id.inviteId id } where
  joiners lookup := by
    rcases lookup_insert_cases lookup with ⟨rfl, rfl⟩ | old
    · rfl
    · exact keyed.joiners old
  inviters := keyed.inviters
  pending := keyed.pending

theorem Keyed.insertInviter (keyed : n.Keyed) :
    Keyed { n with inviters := n.inviters.insert id.inviteId id } where
  joiners := keyed.joiners
  inviters lookup := by
    rcases lookup_insert_cases lookup with ⟨rfl, rfl⟩ | old
    · rfl
    · exact keyed.inviters old
  pending := keyed.pending

theorem Keyed.insertPending (keyed : n.Keyed) (invite : PendingInvite) :
    Keyed { n with pending := n.pending.insert invite.inviteId invite } where
  joiners := keyed.joiners
  inviters := keyed.inviters
  pending lookup := by
    rcases lookup_insert_cases lookup with ⟨rfl, rfl⟩ | old
    · rfl
    · exact keyed.pending old

theorem Keyed.forgetJoiner (keyed : n.Keyed) (inviteId : String) :
    (n.forgetJoiner inviteId).Keyed where
  joiners lookup := keyed.joiners (lookup_erase_some lookup).2
  inviters := keyed.inviters
  pending := keyed.pending

theorem Keyed.forgetInviter (keyed : n.Keyed) (inviteId : String) :
    (n.forgetInviter inviteId).Keyed where
  joiners := keyed.joiners
  inviters lookup := keyed.inviters (lookup_erase_some lookup).2
  pending := keyed.pending

theorem Keyed.forgetPending (keyed : n.Keyed) (inviteId : String) :
    (n.forgetPending inviteId).Keyed where
  joiners := keyed.joiners
  inviters := keyed.inviters
  pending lookup := keyed.pending (lookup_erase_some lookup).2

theorem Keyed.of_tables {m : PairingNode c T} (keyed : n.Keyed) (joiners : m.joiners = n.joiners)
    (inviters : m.inviters = n.inviters) (pending : m.pending = n.pending) : m.Keyed where
  joiners lookup := keyed.joiners (joiners ▸ lookup)
  inviters lookup := keyed.inviters (inviters ▸ lookup)
  pending lookup := keyed.pending (pending ▸ lookup)

end PairingNode

theorem Point.First.for {point : Point c} (first : point.First) (inviteId : String) :
    point.For inviteId := by
  cases point <;> trivial

theorem Point.Ended.for {point : Point c} (ended : point.Ended) (inviteId : String) :
    point.For inviteId := by
  cases point <;> trivial

namespace PairingNode

theorem Keyed.effect {n m : PairingNode c T} {id : CallId} {point after : Point c}
    {pinned : Option Paired} (keyed : n.Keyed) (effect : Effect sink n id point m after pinned) :
    m.Keyed := by
  cases effect with
  | opened => exact keyed.insertJoiner.of_tables rfl rfl rfl
  | evicted others => exact (keyed.forgetJoiner _).of_tables rfl rfl rfl
  | shown => exact keyed.insertPending _
  | cancelled => exact keyed.forgetJoiner _
  | cancelledPending => exact keyed.forgetPending _
  | ended => exact keyed.forgetInviter _
  | invited => exact keyed.insertInviter.of_tables rfl rfl rfl
  | forgotten => exact keyed.forgetJoiner _
  | forgottenPending => exact keyed.forgetPending _
  | failForgotten => exact keyed.forgetJoiner _
  | failForgottenPending => exact keyed.forgetPending _
  | _ => exact keyed.of_tables rfl rfl rfl

theorem Keyed.point {n m : PairingNode c T} {id : CallId} {point after : Point c}
    {pinned : Option Paired} (keyed : n.Keyed) (held : point.For id.inviteId)
    (effect : Effect sink n id point m after pinned) : after.For id.inviteId := by
  cases effect with
  | stays => exact held
  | leaves more settled ended => exact ended.for _
  | joinerFound found => exact keyed.joiners found
  | opened => exact rfl
  | joinerStepped handle ended => exact ended.for _
  | waiting same => exact same
  | inviterFound found => exact keyed.inviters found
  | inviterStepped found answered quiet ended => exact ended.for _
  | submitting found => exact keyed.joiners found
  | _ => trivial

end PairingNode

/-- The step is a turn of this call at this point. -/
def TurnAt (e : NodeStep c T) (id : CallId) (point : Point c) : Prop :=
  ∃ io call, e.input = .resume id io ∧ e.before.tasks id = some ⟨call, point⟩

theorem TurnAt.unique {e : NodeStep c T} {id other : CallId} {point last : Point c}
    (first : TurnAt e id point) (second : TurnAt e other last) : other = id ∧ last = point := by
  obtain ⟨io, call, input, found⟩ := first
  obtain ⟨io', call', input', found'⟩ := second
  obtain ⟨rfl, -⟩ := Event.resume.inj (input'.symm.trans input)
  exact ⟨rfl, congrArg Task.point (Option.some.inj (found'.symm.trans found))⟩

theorem not_turnAt_call {w : World c T} {serial : Nat} {call : Call} {id : CallId} {point : Point c} :
    ¬ TurnAt (entry (nodeStep c sink) w (.call serial call)) id point := by
  rintro ⟨io, made, wrong, -⟩
  cases wrong

theorem TurnAt.of_put {w : World c T} {own id : CallId} {call : Call}
    {turn : PairingNode.Turn c T} {io : Io c} {point : Point c}
    (at_ : TurnAt (entry (nodeStep c sink) (w.put own call turn) (.resume own io)) id point) :
    id = own ∧ point = turn.point := by
  have here : TurnAt (entry (nodeStep c sink) (w.put own call turn) (.resume own io)) own
      turn.point := ⟨io, call, rfl, put_self _ _ _⟩
  exact here.unique at_

theorem nodeStep_cases (sink : TrustSink T) (x : World c T) (event : NodeEvent c) :
    nodeStep c sink x event = (x, none) ∨
      (∃ serial call, event = .call serial call ∧ x.tasks ⟨call.inviteId, serial⟩ = none ∧
        nodeStep c sink x event =
          (x.put ⟨call.inviteId, serial⟩ call (x.shared.start call),
            some (x.shared.start call).seen)) ∨
      ∃ id io task, event = .resume id io ∧ x.tasks id = some task ∧
        x.shared.Turned sink id task.point (x.shared.advance sink id io task.point) ∧
        nodeStep c sink x event =
          (x.put id task.call (x.shared.advance sink id io task.point),
            some (x.shared.advance sink id io task.point).seen) := by
  rcases step_cases (pairing c sink) x event with idle | ⟨serial, call, rfl, new, started⟩ |
    ⟨id, io, task, rfl, found, advanced⟩
  · exact .inl idle
  · exact .inr (.inl ⟨serial, call, rfl, new, started⟩)
  · exact .inr (.inr ⟨id, io, task, rfl, found,
      PairingNode.advance_turned sink x.shared id io task.point, advanced⟩)

/-- What holds of a world after a new call and after a turn holds after an event. -/
theorem nodeStep_keep {P : World c T → Prop} {w : World c T} {event : NodeEvent c} (holds : P w)
    (starts : ∀ serial call, event = .call serial call → w.tasks ⟨call.inviteId, serial⟩ = none →
      P (w.put ⟨call.inviteId, serial⟩ call (w.shared.start call)))
    (turns : ∀ id io task, event = .resume id io → w.tasks id = some task →
      w.shared.Turned sink id task.point (w.shared.advance sink id io task.point) →
      P (w.put id task.call (w.shared.advance sink id io task.point))) :
    P (nodeStep c sink w event).1 := by
  rcases nodeStep_cases sink w event with idle | ⟨serial, call, same, new, started⟩ |
    ⟨id, io, task, same, found, turned, advanced⟩
  · rw [idle]
    exact holds
  · rw [started]
    exact starts serial call same new
  · rw [advanced]
    exact turns id io task same found turned

theorem put_tasks {x : World c T} {id other : CallId} {call : Call} {turn : PairingNode.Turn c T}
    {task : Task Call (Point c)} (found : (x.put id call turn).tasks other = some task) :
    (other = id ∧ task = ⟨call, turn.point⟩) ∨ (other ≠ id ∧ x.tasks other = some task) := by
  by_cases same : other = id
  · subst same
    rw [put_self] at found
    exact .inl ⟨rfl, (Option.some.inj found).symm⟩
  · rw [put_other call turn same] at found
    exact .inr ⟨same, found⟩

section

variable {w : World c T} {event : NodeEvent c}

theorem shared_step (sink : TrustSink T) (w : World c T) (event : NodeEvent c) :
    ((nodeStep c sink w event).1.shared = w.shared ∧
        ∀ id point, ¬ TurnAt (entry (nodeStep c sink) w event) id point) ∨
      ∃ id point after pinned, TurnAt (entry (nodeStep c sink) w event) id point ∧
        w.shared.Effect sink id point (nodeStep c sink w event).1.shared after pinned := by
  rcases nodeStep_cases sink w event with idle | ⟨serial, call, rfl, new, started⟩ |
    ⟨id, io, ⟨call, point⟩, rfl, found, turned, advanced⟩
  · refine .inl ⟨by rw [idle], ?_⟩
    rintro id point ⟨io, call, rfl, found⟩
    have running : w.tasks id = some ⟨call, point⟩ := found
    rw [nodeStep, step_resume running] at idle
    cases congrArg Prod.snd idle
  · refine .inl ⟨by rw [started, put_shared, w.shared.start_shared call], ?_⟩
    rintro id point ⟨io, made, wrong, -⟩
    cases wrong
  · let turn := w.shared.advance sink id io point
    refine .inr ⟨id, point, turn.point, turn.seen.pinned, ⟨io, call, rfl, found⟩, ?_⟩
    rw [advanced]
    exact turned

theorem tasks_step {id : CallId} {task : Task Call (Point c)}
    (found : (nodeStep c sink w event).1.tasks id = some task) :
    w.tasks id = some task ∨ task.point.First ∨
      ∃ point pinned, TurnAt (entry (nodeStep c sink) w event) id point ∧
        w.tasks id = some ⟨task.call, point⟩ ∧
        w.shared.Effect sink id point (nodeStep c sink w event).1.shared task.point pinned := by
  rcases nodeStep_cases sink w event with idle | ⟨serial, call, rfl, new, started⟩ |
    ⟨own, io, ⟨call, point⟩, rfl, running, turned, advanced⟩
  · rw [idle] at found
    exact .inl found
  · rw [started] at found
    rcases put_tasks found with ⟨-, rfl⟩ | ⟨-, old⟩
    · exact .inr (.inl (w.shared.start_first call))
    · exact .inl old
  · rw [advanced] at found ⊢
    rcases put_tasks found with ⟨rfl, rfl⟩ | ⟨-, old⟩
    · exact .inr (.inr ⟨point, _, ⟨io, call, rfl, running⟩, running, turned⟩)
    · exact .inl old

end

namespace World

theorem Keyed.put {x : World c T} {id : CallId} {call : Call} {turn : PairingNode.Turn c T}
    (keyed : x.Keyed) (node : turn.shared.Keyed) (named : call.inviteId = id.inviteId)
    (held : turn.point.For id.inviteId) : World.Keyed (x.put id call turn) where
  node := node
  tasks found := by
    rcases put_tasks found with ⟨rfl, rfl⟩ | ⟨-, old⟩
    · exact ⟨named, held⟩
    · exact keyed.tasks old

theorem Keyed.step {x : World c T} (keyed : x.Keyed) (event : NodeEvent c) :
    (nodeStep c sink x event).1.Keyed := by
  refine nodeStep_keep keyed (fun serial call _ _ => ?_) fun id io task _ found turned => ?_
  · have node : (x.shared.start call).shared.Keyed := by
      rw [x.shared.start_shared call]
      exact keyed.node
    exact keyed.put node rfl ((x.shared.start_first call).for call.inviteId)
  · obtain ⟨named, held⟩ := keyed.tasks found
    exact keyed.put (keyed.node.effect turned) named (keyed.node.point held turned)

theorem Keyed.fresh (profile : NodeProfile) (trust : T) : (World.fresh c profile trust).Keyed where
  node :=
    { joiners := fun wrong => by cases wrong
      inviters := fun wrong => by cases wrong
      pending := fun wrong => by cases wrong }
  tasks wrong := by cases wrong

theorem Keyed.run (sink : TrustSink T) (profile : NodeProfile) (trust : T)
    (events : List (NodeEvent c)) :
    (run (nodeStep c sink) (World.fresh c profile trust) events).Keyed :=
  run_invariant (nodeStep c sink) (P := Keyed) (fun _ event keyed => keyed.step event)
    (.fresh profile trust) events

end World

end OpenPair
