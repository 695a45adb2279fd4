import OpenPair.Cluster.NodeExchange
import OpenPair.Library.Unwinding

/-! Calls for one invite do not disturb another.

What the endpoint has for an invite is the observer's view: its entries in the
three tables, the sessions that its calls made, and its calls. Everything else
reaches those calls through `is_clustered` only.
-/

set_option autoImplicit false

namespace OpenPair

open Tasks Transition Unwinding

variable {c : Crates} {T : Type} {sink : TrustSink T} {y : String}

/-- The same entries and sessions for an invite. -/
structure PairingNode.AgreesOn (y : String) (n m : PairingNode c T) : Prop where
  profile : n.profile = m.profile
  joiners : n.joiners.lookup y = m.joiners.lookup y
  inviters : n.inviters.lookup y = m.inviters.lookup y
  pending : n.pending.lookup y = m.pending.lookup y
  joinerSessions : ∀ {handle : CallId}, handle.inviteId = y →
    n.joinerSessions handle = m.joinerSessions handle
  inviterSessions : ∀ {handle : CallId}, handle.inviteId = y →
    n.inviterSessions handle = m.inviterSessions handle

structure World.AgreesOn (y : String) (x z : World c T) : Prop where
  node : x.shared.AgreesOn y z.shared
  tasks : ∀ {id : CallId}, id.inviteId = y → x.tasks id = z.tasks id

namespace PairingNode

variable {n m k : PairingNode c T} {id handle : CallId} {io : Io c}

theorem AgreesOn.refl (n : PairingNode c T) : n.AgreesOn y n :=
  ⟨rfl, rfl, rfl, rfl, fun _ => rfl, fun _ => rfl⟩

theorem AgreesOn.symm (agree : n.AgreesOn y m) : m.AgreesOn y n :=
  ⟨agree.profile.symm, agree.joiners.symm, agree.inviters.symm, agree.pending.symm,
    fun own => (agree.joinerSessions own).symm, fun own => (agree.inviterSessions own).symm⟩

theorem AgreesOn.trans (first : n.AgreesOn y m) (second : m.AgreesOn y k) : n.AgreesOn y k :=
  ⟨first.profile.trans second.profile, first.joiners.trans second.joiners,
    first.inviters.trans second.inviters, first.pending.trans second.pending,
    fun own => (first.joinerSessions own).trans (second.joinerSessions own),
    fun own => (first.inviterSessions own).trans (second.inviterSessions own)⟩

/-! ## Turns for other invites -/

theorem update_other {V : Type} {sessions : CallId → V} {value : V} {other : CallId}
    (differs : handle.inviteId ≠ y) (own : other.inviteId = y) :
    Function.update sessions handle value other = sessions other := by
  refine Function.update_of_ne (fun same => ?_) _ _
  exact differs (same ▸ own)

theorem setJoiner_other (differs : handle.inviteId ≠ y) (s : JoinerSession c) (held : Bool) :
    (n.setJoiner handle s held).AgreesOn y n :=
  ⟨rfl, rfl, rfl, rfl, fun own => update_other differs own, fun _ => rfl⟩

theorem setInviter_other (differs : handle.inviteId ≠ y) (s : InviterSession c) :
    (n.setInviter handle s).AgreesOn y n :=
  ⟨rfl, rfl, rfl, rfl, fun _ => rfl, fun own => update_other differs own⟩

theorem forgetJoiner_other {x : String} (differs : x ≠ y) : (n.forgetJoiner x).AgreesOn y n :=
  ⟨rfl, AList.lookup_erase_ne differs.symm, rfl, rfl, fun _ => rfl, fun _ => rfl⟩

theorem forgetInviter_other {x : String} (differs : x ≠ y) : (n.forgetInviter x).AgreesOn y n :=
  ⟨rfl, rfl, AList.lookup_erase_ne differs.symm, rfl, fun _ => rfl, fun _ => rfl⟩

theorem forgetPending_other {x : String} (differs : x ≠ y) : (n.forgetPending x).AgreesOn y n :=
  ⟨rfl, rfl, rfl, AList.lookup_erase_ne differs.symm, fun _ => rfl, fun _ => rfl⟩

theorem Effect.other {point after : Point c} {pinned : Option Paired}
    (effect : Effect sink n id point m after pinned) (held : point.For id.inviteId)
    (differs : id.inviteId ≠ y) : m.AgreesOn y n := by
  have apart {handle : CallId} (own : handle.inviteId = id.inviteId) : handle.inviteId ≠ y :=
    own ▸ differs
  -- Each table is written under the call's own invite, and each session under its own handle.
  cases effect with
  | opened =>
    refine (setJoiner_other differs _ _).trans ?_
    exact ⟨rfl, AList.lookup_insert_ne differs.symm, rfl, rfl, fun _ => rfl, fun _ => rfl⟩
  | joinerStepped handle ended =>
    refine setJoiner_other (apart ?_) _ _
    cases point <;> cases handle <;> exact held
  | refused => exact setJoiner_other (apart held) _ _
  | evicted others =>
    refine ⟨rfl, AList.lookup_erase_ne differs.symm, rfl, rfl, fun own => others _ ?_, fun _ => rfl⟩
    intro same
    exact apart held (same ▸ own)
  | waiting same => exact setJoiner_other (apart held) _ _
  | shown =>
    have key {invite : PendingInvite} (named : invite.inviteId = id.inviteId) :
        y ≠ invite.inviteId := fun same => differs (same.trans named).symm
    exact ⟨rfl, rfl, rfl, AList.lookup_insert_ne (key held), fun _ => rfl, fun _ => rfl⟩
  | inviterStepped found answered quiet ended => exact setInviter_other (apart held) _
  | @inviterPinned blob handle s t draws reply paired found answered =>
    have set : (n.setInviter handle t).AgreesOn y n := setInviter_other (apart held) t
    exact ⟨set.profile, set.joiners, set.inviters, set.pending, set.joinerSessions,
      set.inviterSessions⟩
  | cancelled => exact forgetJoiner_other differs
  | cancelledPending => exact forgetPending_other differs
  | ended => exact forgetInviter_other differs
  | invited =>
    refine (setInviter_other differs _).trans ?_
    exact ⟨rfl, rfl, AList.lookup_insert_ne differs.symm, rfl, fun _ => rfl, fun _ => rfl⟩
  | fed => exact setJoiner_other (apart held) _ _
  | sending => exact setJoiner_other (apart held) _ _
  | succeeded free stepped success => exact setJoiner_other (apart held) _ _
  | failed => exact setJoiner_other (apart held) _ _
  | joinerPinned free paired => exact ⟨rfl, rfl, rfl, rfl, fun _ => rfl, fun _ => rfl⟩
  | forgotten => exact forgetJoiner_other differs
  | forgottenPending => exact forgetPending_other differs
  | failForgotten => exact forgetJoiner_other differs
  | failForgottenPending => exact forgetPending_other differs
  | _ => exact .refl n

/-! ## Turns for this invite -/

theorem lookup_insert_congr {V : Type} {first second : Table V} (x : String) (value : V)
    (same : first.lookup y = second.lookup y) :
    (first.insert x value).lookup y = (second.insert x value).lookup y := by
  by_cases key : y = x
  · rw [key, AList.lookup_insert, AList.lookup_insert]
  · rw [AList.lookup_insert_ne key, AList.lookup_insert_ne key, same]

theorem lookup_erase_congr {V : Type} {first second : Table V} (x : String)
    (same : first.lookup y = second.lookup y) :
    (first.erase x).lookup y = (second.erase x).lookup y := by
  by_cases key : y = x
  · rw [key, AList.lookup_erase, AList.lookup_erase]
  · rw [AList.lookup_erase_ne key, AList.lookup_erase_ne key, same]

theorem update_congr {V : Type} {first second : CallId → V} (handle : CallId) (value : V)
    (same : ∀ {other : CallId}, other.inviteId = y → first other = second other) {other : CallId}
    (own : other.inviteId = y) :
    Function.update first handle value other = Function.update second handle value other := by
  by_cases key : other = handle
  · rw [key, Function.update_self, Function.update_self]
  · rw [Function.update_of_ne key, Function.update_of_ne key, same own]

section

variable (agree : n.AgreesOn y m)
include agree

theorem AgreesOn.setJoiner (handle : CallId) (s : JoinerSession c) (held : Bool) :
    (n.setJoiner handle s held).AgreesOn y (m.setJoiner handle s held) :=
  ⟨agree.profile, agree.joiners, agree.inviters, agree.pending,
    update_congr handle _ agree.joinerSessions, agree.inviterSessions⟩

theorem AgreesOn.setInviter (handle : CallId) (s : InviterSession c) :
    (n.setInviter handle s).AgreesOn y (m.setInviter handle s) :=
  ⟨agree.profile, agree.joiners, agree.inviters, agree.pending, agree.joinerSessions,
    update_congr handle _ agree.inviterSessions⟩

theorem AgreesOn.forgetJoiner (x : String) : (n.forgetJoiner x).AgreesOn y (m.forgetJoiner x) :=
  ⟨agree.profile, lookup_erase_congr x agree.joiners, agree.inviters, agree.pending,
    agree.joinerSessions, agree.inviterSessions⟩

theorem AgreesOn.forgetInviter (x : String) : (n.forgetInviter x).AgreesOn y (m.forgetInviter x) :=
  ⟨agree.profile, agree.joiners, lookup_erase_congr x agree.inviters, agree.pending,
    agree.joinerSessions, agree.inviterSessions⟩

theorem AgreesOn.forgetPending (x : String) : (n.forgetPending x).AgreesOn y (m.forgetPending x) :=
  ⟨agree.profile, agree.joiners, agree.inviters, lookup_erase_congr x agree.pending,
    agree.joinerSessions, agree.inviterSessions⟩

theorem AgreesOn.joiner (own : handle.inviteId = y) : n.joiner handle = m.joiner handle := by
  rw [PairingNode.joiner, PairingNode.joiner, agree.joinerSessions own]

end

/-- Turns that an invite cannot tell apart. -/
structure Alike (y : String) (t u : Turn c T) : Prop where
  shared : t.shared.AgreesOn y u.shared
  point : t.point = u.point
  seen : t.seen = u.seen

theorem AgreesOn.waits (agree : n.AgreesOn y m) (point : Point c) :
    Alike y (n.waits point) (m.waits point) := ⟨agree, rfl, rfl⟩

theorem AgreesOn.returns (agree : n.AgreesOn y m) (result : Result) :
    Alike y (n.returns (c := c) result) (m.returns result) := ⟨agree, rfl, rfl⟩

theorem AgreesOn.posts (agree : n.AgreesOn y m) (addr : String) (env : PairingEnvelope)
    (point : Point c) : Alike y (n.posts addr env point) (m.posts addr env point) :=
  ⟨agree, rfl, rfl⟩

theorem start_alike (agree : n.AgreesOn y m) (call : Call) :
    Alike y (n.start call) (m.start call) := by
  cases call with
  | request env =>
    simp only [start]
    repeat' split
    all_goals first | exact agree.returns _ | exact agree.waits _
  | createInvite inviteId addr =>
    simp only [start, ← agree.profile]
    exact agree.posts _ _ _
  | submitPin inviteId pin =>
    simp only [start]
    split
    · exact agree.returns _
    · exact agree.waits _

variable (agree : n.AgreesOn id.inviteId m)
include agree

theorem initialLookup_alike (asked : sink.isClustered n.trust = sink.isClustered m.trust)
    (msg : Bytes) :
    Alike id.inviteId (n.initialLookup sink id msg) (m.initialLookup sink id msg) := by
  unfold initialLookup
  rw [← agree.joiners, ← asked, ← agree.profile]
  split
  · exact agree.waits _
  · split
    · exact agree.returns _
    · split
      · exact agree.returns _
      · have inserted : AgreesOn id.inviteId
            { n with joiners := n.joiners.insert id.inviteId id }
            { m with profile := n.profile, joiners := m.joiners.insert id.inviteId id } :=
          ⟨rfl, lookup_insert_congr _ id agree.joiners, agree.inviters, agree.pending,
            agree.joinerSessions, agree.inviterSessions⟩
        exact (inserted.setJoiner id _ false).waits _

theorem initialSession_alike (draws : Draws c) (msg : Bytes) (handle : CallId)
    (s : JoinerSession c) : Alike id.inviteId (n.initialSession id draws msg handle s)
      (m.initialSession id draws msg handle s) := by
  unfold initialSession
  split
  · exact (agree.setJoiner _ _ _).waits _
  · exact (agree.setJoiner _ _ _).waits _
  · exact (agree.setJoiner _ _ _).returns _
  · exact (agree.setJoiner _ _ _).waits _

theorem initialEvict_alike (own : handle.inviteId = id.inviteId) (reply : Reply) :
    Alike id.inviteId (n.initialEvict id handle reply) (m.initialEvict id handle reply) := by
  refine ⟨?_, rfl, rfl⟩
  have forgotten := agree.forgetJoiner id.inviteId
  refine ⟨forgotten.profile, forgotten.joiners, forgotten.inviters, forgotten.pending, ?_,
    forgotten.inviterSessions⟩
  have cell : n.joinerSessions handle = m.joinerSessions handle := agree.joinerSessions own
  intro other same
  simp only [initialEvict, returns, PairingNode.forgetJoiner, cell]
  exact update_congr handle _ agree.joinerSessions same

theorem initialPending_alike (invite : PendingInvite) (reply : Reply) :
    Alike id.inviteId (n.initialPending (c := c) invite reply) (m.initialPending invite reply) :=
  ⟨⟨agree.profile, agree.joiners, agree.inviters, lookup_insert_congr _ invite agree.pending,
    agree.joinerSessions, agree.inviterSessions⟩, rfl, rfl⟩

theorem completionSession_alike (draws : Draws c) (blob : Bytes) (handle : CallId)
    (s : InviterSession c) : Alike id.inviteId (n.completionSession sink id draws blob handle s)
      (m.completionSession sink id draws blob handle s) := by
  unfold completionSession
  split
  · exact (agree.setInviter _ _).waits _
  · exact (agree.setInviter _ _).returns _
  · next t reply paired answered =>
    have set := agree.setInviter handle t
    exact ⟨⟨set.profile, set.joiners, set.inviters, set.pending, set.joinerSessions,
      set.inviterSessions⟩, rfl, rfl⟩

theorem createAwait_alike (joinerAddr : String) (s : InviterSession c) :
    Alike id.inviteId (n.createAwait id io joinerAddr s) (m.createAwait id io joinerAddr s) := by
  unfold createAwait
  split
  · exact agree.returns _
  · split
    · exact agree.waits _
    · exact agree.returns _
    · exact agree.posts _ _ _
    · split
      · exact agree.returns _
      · exact agree.waits _

theorem createInsert_alike (s : InviterSession c) (pin : String) :
    Alike id.inviteId (n.createInsert id s pin) (m.createInsert id s pin) := by
  have inserted : AgreesOn id.inviteId
      { n with inviters := n.inviters.insert id.inviteId id }
      { m with inviters := m.inviters.insert id.inviteId id } :=
    ⟨agree.profile, agree.joiners, lookup_insert_congr _ id agree.inviters, agree.pending,
      agree.joinerSessions, agree.inviterSessions⟩
  exact (inserted.setInviter id s).returns _

theorem submitFeed_alike (pin : String) (handle : CallId) (s : JoinerSession c) :
    Alike id.inviteId (n.submitFeed id pin handle s) (m.submitFeed id pin handle s) := by
  unfold submitFeed
  split
  · exact (agree.setJoiner _ _ _).returns _
  · exact (agree.setJoiner _ _ _).posts _ _ _

theorem submitSession_alike (draws : Draws c) (addr : String) (handle : CallId)
    (resp : PairingEnvelope) (s : JoinerSession c) :
    Alike id.inviteId (n.submitSession id draws addr handle resp s)
      (m.submitSession id draws addr handle resp s) := by
  unfold submitSession
  split
  · exact (agree.setJoiner _ _ _).waits _
  · exact (agree.setJoiner _ _ _).returns _
  · exact (agree.setJoiner _ _ _).posts _ _ _
  · split
    · exact (agree.setJoiner _ _ _).waits _
    · exact (agree.setJoiner _ _ _).posts _ _ _

theorem submitPaired_alike (addr : String) (s : JoinerSession c) :
    Alike id.inviteId (n.submitPaired sink addr s) (m.submitPaired sink addr s) := by
  unfold submitPaired
  split
  · exact agree.returns _
  · exact ⟨⟨agree.profile, agree.joiners, agree.inviters, agree.pending, agree.joinerSessions,
      agree.inviterSessions⟩, rfl, rfl⟩

theorem withJoiner_alike {point : Point c} {first second : JoinerSession c → Turn c T}
    (own : handle.inviteId = id.inviteId)
    (alike : ∀ s, Alike id.inviteId (first s) (second s)) :
    Alike id.inviteId (n.withJoiner handle point first) (m.withJoiner handle point second) := by
  unfold withJoiner
  rw [← agree.joiner own]
  split
  · exact agree.waits _
  · exact alike _

/-- A turn of a call for the invite, at two nodes that agree on it. -/
theorem advance_alike {point : Point c} (held : point.For id.inviteId)
    (asked : ∀ msg, point = .initialLookup msg →
      sink.isClustered n.trust = sink.isClustered m.trust) :
    Alike id.inviteId (n.advance sink id io point) (m.advance sink id io point) := by
  -- Only the first look-up reads what no invite owns, which is whether the node is clustered.
  cases point with
  | initialLookup msg => exact initialLookup_alike agree (asked msg rfl) msg
  | initialSession msg handle =>
    exact withJoiner_alike agree held fun s => initialSession_alike agree io.draws msg handle s
  | initialEvict handle reply => exact initialEvict_alike agree held reply
  | initialPending invite reply => exact initialPending_alike agree invite reply
  | completionLookup blob =>
    simp only [advance, completionLookup, ← agree.inviters]
    split
    · exact agree.waits _
    · exact agree.returns _
  | completionSession blob handle =>
    have own : handle.inviteId = id.inviteId := held
    simp only [advance, ← agree.inviterSessions own]
    split
    · exact agree.waits _
    · exact completionSession_alike agree io.draws blob handle _
  | cancelJoiner => exact (agree.forgetJoiner _).waits _
  | cancelPending => exact (agree.forgetPending _).returns _
  | endInvite => exact (agree.forgetInviter _).returns _
  | createAwait addr s => exact createAwait_alike agree addr s
  | createInsert s pin => exact createInsert_alike agree s pin
  | submitLookup pin =>
    simp only [advance, submitLookup, ← agree.joiners]
    split
    · exact agree.waits _
    · exact agree.returns _
  | submitFeed pin handle =>
    exact withJoiner_alike agree held fun s => submitFeed_alike agree pin handle s
  | submitAwait addr handle =>
    simp only [advance]
    split
    · exact agree.returns _
    · exact agree.waits _
  | submitSession addr handle resp =>
    exact withJoiner_alike agree held fun s =>
      submitSession_alike agree io.draws addr handle resp s
  | submitPaired addr handle =>
    exact withJoiner_alike agree held fun s => submitPaired_alike agree addr s
  | submitForget addr paired => exact (agree.forgetJoiner _).waits _
  | submitForgetPending addr paired => exact (agree.forgetPending _).posts _ _ _
  | submitAck paired => exact agree.returns _
  | failAwait step => exact agree.waits _
  | failForget step => exact (agree.forgetJoiner _).waits _
  | failForgetPending step => exact (agree.forgetPending _).returns _
  | returned => exact agree.waits _
  | panicked => exact agree.waits _

end PairingNode

/-! ## Runs -/

-- The value of `is_clustered` at an event that can read it.
def asksClustered (sink : TrustSink T) (x : World c T) : NodeEvent c → Option Bool
  | .call _ _ => none
  | .resume id _ =>
    match x.tasks id with
    | some ⟨_, .initialLookup _⟩ => some (sink.isClustered x.shared.trust)
    | _ => none

namespace World

variable {x z w : World c T}

theorem AgreesOn.refl (x : World c T) : World.AgreesOn y x x := ⟨.refl x.shared, fun _ => rfl⟩

theorem AgreesOn.symm (agree : World.AgreesOn y x z) : World.AgreesOn y z x :=
  ⟨agree.node.symm, fun own => (agree.tasks own).symm⟩

theorem AgreesOn.trans (first : World.AgreesOn y x z) (second : World.AgreesOn y z w) :
    World.AgreesOn y x w :=
  ⟨first.node.trans second.node, fun own => (first.tasks own).trans (second.tasks own)⟩

theorem AgreesOn.put_other {id : CallId} {call : Call} {turn : PairingNode.Turn c T}
    (node : turn.shared.AgreesOn y x.shared) (differs : id.inviteId ≠ y) :
    World.AgreesOn y (x.put id call turn) x :=
  ⟨node, fun own => PairingNode.update_other differs own⟩

theorem AgreesOn.put {id : CallId} {call : Call} {t u : PairingNode.Turn c T}
    (agree : World.AgreesOn y x z) (alike : PairingNode.Alike y t u) :
    World.AgreesOn y (x.put id call t) (z.put id call u) := by
  refine ⟨alike.shared, fun own => ?_⟩
  simp only [Executor.put, alike.point]
  exact PairingNode.update_congr id _ agree.tasks own

theorem Keyed.other {event : NodeEvent c} (keyed : x.Keyed) (differs : inviteOf event ≠ y) :
    World.AgreesOn y (nodeStep c sink x event).1 x := by
  rcases nodeStep_cases sink x event with idle | ⟨serial, call, rfl, -, started⟩ |
    ⟨id, io, task, rfl, found, turned, advanced⟩
  · rw [idle]
    exact .refl x
  · rw [started]
    have node : (x.shared.start call).shared.AgreesOn y x.shared := by
      rw [x.shared.start_shared call]
      exact .refl x.shared
    exact .put_other node differs
  · rw [advanced]
    obtain ⟨named, held⟩ := keyed.tasks found
    exact .put_other (turned.other held differs) differs

theorem AgreesOn.own {event : NodeEvent c} (keyed : x.Keyed) (agree : World.AgreesOn y x z)
    (own : inviteOf event = y) (asked : asksClustered sink x event = asksClustered sink z event) :
    World.AgreesOn y (nodeStep c sink x event).1 (nodeStep c sink z event).1 ∧
      (nodeStep c sink x event).2 = (nodeStep c sink z event).2 := by
  subst own
  unfold nodeStep
  cases event with
  | call serial call =>
    have task : z.tasks ⟨call.inviteId, serial⟩ = x.tasks ⟨call.inviteId, serial⟩ :=
      (agree.tasks rfl).symm
    cases found : x.tasks ⟨call.inviteId, serial⟩ with
    | some taken =>
      rw [step_taken found, step_taken (task.trans found)]
      exact ⟨agree, rfl⟩
    | none =>
      rw [step_call found, step_call (task.trans found)]
      have alike := PairingNode.start_alike agree.node call
      exact ⟨agree.put alike, congrArg some alike.seen⟩
  | resume id io =>
    have task : z.tasks id = x.tasks id := (agree.tasks rfl).symm
    cases found : x.tasks id with
    | none =>
      rw [step_unknown found, step_unknown (task.trans found)]
      exact ⟨agree, rfl⟩
    | some running =>
      rw [step_resume found, step_resume (task.trans found)]
      have gate (msg : Bytes) (point : running.point = .initialLookup msg) :
          sink.isClustered x.shared.trust = sink.isClustered z.shared.trust := by
        obtain ⟨call, at_⟩ := running
        cases point
        simpa only [asksClustered, task, found, Option.some.injEq] using asked
      have alike : PairingNode.Alike id.inviteId (x.shared.advance sink id io running.point)
          (z.shared.advance sink id io running.point) :=
        PairingNode.advance_alike agree.node (keyed.tasks found).2 gate
      exact ⟨agree.put alike, congrArg some alike.seen⟩

/-- What an invite's calls see of the endpoint. -/
theorem unwinds (sink : TrustSink T) (y : String) :
    Unwinds (nodeStep c sink) (World.AgreesOn y) World.Keyed (fun event => inviteOf event = y)
      (asksClustered sink) where
  keep keyed event := keyed.step event
  refl := .refl
  trans := .trans
  symm := .symm
  other keyed differs := keyed.other differs
  own keyed _ agree own asked := agree.own keyed own asked

end World

/-- Events for other invites leave what the endpoint has for an invite as it is.
What its own events are answered depends on them, the profile and the values
of `is_clustered` that they read. -/
theorem invites_isolated (sink : TrustSink T) (profile : NodeProfile) (y : String) :
    (∀ (trust : T) (events others : List (NodeEvent c)),
      (∀ event ∈ others, inviteOf event ≠ y) →
      World.AgreesOn y (run (nodeStep c sink) (World.fresh c profile trust) (events ++ others))
        (run (nodeStep c sink) (World.fresh c profile trust) events)) ∧
    (∀ (first second : T) (left right : List (NodeEvent c)),
      dealings (fun event => inviteOf event = y) (asksClustered sink)
          (trace (nodeStep c sink) (World.fresh c profile first) left) =
        dealings (fun event => inviteOf event = y) (asksClustered sink)
          (trace (nodeStep c sink) (World.fresh c profile second) right) →
      answers (fun event => inviteOf event = y)
          (trace (nodeStep c sink) (World.fresh c profile first) left) =
        answers (fun event => inviteOf event = y)
          (trace (nodeStep c sink) (World.fresh c profile second) right)) := by
  have unwinds : Unwinds (nodeStep c sink) (World.AgreesOn y) World.Keyed _ _ :=
    World.unwinds sink y
  constructor
  · intro trust events others apart
    rw [run_append]
    exact run_others unwinds (World.Keyed.run sink profile trust events) apart
  · intro first second left right alike
    have start : World.AgreesOn y (World.fresh c profile first) (World.fresh c profile second) :=
      ⟨⟨rfl, rfl, rfl, rfl, fun _ => rfl, fun _ => rfl⟩, fun _ => rfl⟩
    exact (answers_eq unwinds (.fresh profile first) (.fresh profile second) start alike).1

namespace Reference

def cancelling : List (NodeEvent crates) :=
  [.call 0 (.request (.signal "a" Phase.cancel "")), .resume ⟨"a", 0⟩ nodeIo,
    .resume ⟨"a", 0⟩ nodeIo]

def inviting : List (NodeEvent crates) :=
  [.call 0 (.request (.withMsg crates "b" Phase.initial (crates.encodeWire discoveryRequest))),
    .resume ⟨"b", 0⟩ nodeIo, .resume ⟨"b", 0⟩ nodeIo]

theorem cancelling_apart : ∀ event ∈ cancelling, inviteOf event ≠ "b" := by
  intro event member
  simp only [cancelling, List.mem_cons, List.not_mem_nil, or_false] at member
  rcases member with rfl | rfl | rfl
  · exact (by decide : "a" ≠ "b")
  · exact (by decide : "a" ≠ "b")
  · exact (by decide : "a" ≠ "b")

theorem dealings_alike : dealings (fun event => inviteOf event = "b") (asksClustered keeping)
      (trace (nodeStep crates keeping) (World.fresh crates joinerProfile []) inviting) =
    dealings (fun event => inviteOf event = "b") (asksClustered keeping)
      (trace (nodeStep crates keeping) (World.fresh crates joinerProfile [])
        (cancelling ++ inviting)) := by
  rfl

end Reference

/-- An invite whose messages meet a cancel of another. -/
theorem invites_isolated_reference :
    World.AgreesOn "b"
        (run (nodeStep Reference.crates Reference.keeping)
          (World.fresh Reference.crates Reference.joinerProfile [])
          (Reference.inviting ++ Reference.cancelling))
        (run (nodeStep Reference.crates Reference.keeping)
          (World.fresh Reference.crates Reference.joinerProfile []) Reference.inviting) ∧
      answers (fun event => inviteOf event = "b")
          (trace (nodeStep Reference.crates Reference.keeping)
            (World.fresh Reference.crates Reference.joinerProfile []) Reference.inviting) =
        answers (fun event => inviteOf event = "b")
          (trace (nodeStep Reference.crates Reference.keeping)
            (World.fresh Reference.crates Reference.joinerProfile [])
            (Reference.cancelling ++ Reference.inviting)) := by
  have isolated := invites_isolated (c := Reference.crates) Reference.keeping Reference.joinerProfile "b"
  exact ⟨isolated.1 [] _ _ Reference.cancelling_apart,
    isolated.2 [] [] _ _ Reference.dealings_alike⟩

end OpenPair
