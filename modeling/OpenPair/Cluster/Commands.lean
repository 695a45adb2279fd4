import OpenPair.Cluster.OfferedPins
import OpenPair.Cluster.SingleCluster
import OpenPair.Daemon.Discovery
import OpenPair.Library.Operated

/-! The commands `openpair-node invite` and `openpair-node join` (`main.rs`).

Each runs an endpoint of its own, which serves whoever calls it, and takes its
operator through one pairing.
-/

set_option autoImplicit false

namespace OpenPair

open Tasks Transition Operated

variable {c : Crates} {T : Type} {sink : TrustSink T}

def defaultPairingPort : UInt16 := 14321

def normalizePairingAddr (input : String) : String :=
  if (rsplitOnce input ':').map (fun parts => (parseU16 parts.2).isSome) = some true then input
  else s!"{input}:{defaultPairingPort}"

variable (c) in
/-- What reaches the endpoint of a command: requests, and the turns of its calls. -/
inductive Arrival where
  | request (serial : Nat) (env : PairingEnvelope)
  | resume (id : CallId) (io : Io c)

def Arrival.event : Arrival c → NodeEvent c
  | .request serial env => .call serial (.request env)
  | .resume id io => .resume id io

/-! ## `invite` -/

inductive InviteStage where
  | starting
  | creating (own : CallId)
  /-- Once the PIN is printed; with the polls that are left. -/
  | waiting (inviteId pin : String) (polls : Nat)
  | joined (inviteId pin : String)
  | failed (error : String)

inductive InviteTurn where
  /-- With the UUID that `create_invite` draws. -/
  | create (serial : Nat) (inviteId : String)
  | poll

def InviteStage.heard (stage : InviteStage) : Option Result → InviteStage
  | some (.invited (.ok (inviteId, pin))) => .waiting inviteId pin 600
  | some (.invited (.error e)) => .failed e
  | _ => stage

-- `run_invite`, from the endpoint's start on.
variable (c) in
def runInvite (sink : TrustSink T) (joiner : String) :
    Operator (World c T) (NodeEvent c) (Option Observed) (Arrival c) InviteTurn InviteStage where
  deliver := Arrival.event
  hears stage event seen :=
    match stage with
    | .creating own =>
      if (pairing c sink).id event = own then stage.heard (seen.bind Observed.returned) else stage
    | _ => stage
  acts w stage turn :=
    match stage, turn with
    | .starting, .create serial inviteId => (.creating ⟨inviteId, serial⟩,
        some (.call serial (.createInvite inviteId (normalizePairingAddr joiner))))
    | .waiting inviteId pin (polls + 1), .poll =>
      if sink.isClustered w.shared.trust then (.joined inviteId pin, none)
      else (.waiting inviteId pin polls, none)
    | .waiting _ _ 0, .poll => (.failed "timed out waiting for the joiner to enter the PIN", none)
    | stage, _ => (stage, none)

/-! ## `join` -/

inductive JoinStage where
  | polling
  /-- Past the gate. -/
  | listing
  | prompted (invite : PendingInvite)
  | submitting (own : CallId)
  /-- `none` where the node was in a cluster. -/
  | ended (result : Except String (Option Paired))

inductive JoinTurn where
  | poll
  /-- With the place at which the map's iteration begins. -/
  | list (place : Nat)
  /-- With what `read_line` gives. -/
  | enter (serial : Nat) (line : Except String String)

def JoinStage.heard (stage : JoinStage) : Option Result → JoinStage
  | some (.submitted (.ok paired)) => .ended (.ok (some paired))
  | some (.submitted (.error e)) => .ended (.error e)
  | _ => stage

def promptPin (line : Except String String) : Except String String :=
  line.map fun line => String.ofList (trim line.toList)

-- `run_join`, from the endpoint's start on.
variable (c) in
def runJoin (sink : TrustSink T) :
    Operator (World c T) (NodeEvent c) (Option Observed) (Arrival c) JoinTurn JoinStage where
  deliver := Arrival.event
  hears stage event seen :=
    match stage with
    | .submitting own =>
      if (pairing c sink).id event = own then stage.heard (seen.bind Observed.returned) else stage
    | _ => stage
  acts w stage turn :=
    match stage, turn with
    | .polling, .poll =>
      if sink.isClustered w.shared.trust then (.ended (.ok none), none) else (.listing, none)
    | .listing, .list place =>
      match (w.shared.pendingInvites.rotate place).head? with
      | some invite => (.prompted invite, none)
      | none => (.polling, none)
    | .prompted invite, .enter serial line =>
      match promptPin line with
      | .error e => (.ended (.error e), none)
      | .ok pin => (.submitting ⟨invite.inviteId, serial⟩,
          some (.call serial (.submitPin invite.inviteId pin)))
    | stage, _ => (stage, none)

/-! ## The endpoint under a command -/

section

variable {n : PairingNode c T} {id : CallId} {io : Io c} {point : Point c} {w : World c T}
  {event : NodeEvent c}

/-- A turn that returns is the last of its call. -/
def PairingNode.LastReturns (turn : PairingNode.Turn c T) : Prop :=
  ∀ result, turn.seen.returned = some result → turn.point.Ended

theorem start_lastReturns (call : Call) : PairingNode.LastReturns (n.start call) := by
  intro result
  cases call with
  | request env =>
    simp only [PairingNode.start]
    repeat' split
    all_goals
      intro returns
      trivial
  | createInvite inviteId addr =>
    intro returns
    cases returns
  | submitPin inviteId pin =>
    simp only [PairingNode.start]
    split
    all_goals
      intro returns
      trivial

theorem advance_lastReturns (sink : TrustSink T) (n : PairingNode c T) (id : CallId) (io : Io c)
    (point : Point c) : PairingNode.LastReturns (n.advance sink id io point) := by
  intro result
  -- A turn waits, posts or returns, whichever branch it takes.
  cases point
  all_goals
    simp only [PairingNode.advance, PairingNode.withJoiner, PairingNode.initialLookup,
      PairingNode.initialSession, PairingNode.completionLookup, PairingNode.completionSession,
      PairingNode.createAwait, PairingNode.submitLookup, PairingNode.submitFeed,
      PairingNode.submitSession, PairingNode.submitPaired]
    repeat' split
    all_goals
      intro returns
      trivial

theorem PairingNode.LastReturns.quiet {turn : PairingNode.Turn c T} (last : LastReturns turn)
    (more : ¬ turn.point.Ended) : turn.seen.returned = none := by
  cases returned : turn.seen.returned with
  | none => rfl
  | some result => exact absurd (last result returned) more

theorem nodeStep_quiet {task : Task Call (Point c)}
    (found : (nodeStep c sink w event).1.tasks ((pairing c sink).id event) = some task)
    (more : ¬ task.point.Ended) : (nodeStep c sink w event).2.bind Observed.returned = none := by
  rcases nodeStep_cases sink w event with idle | ⟨serial, call, rfl, new, started⟩ |
    ⟨id, io, running, rfl, old, turned, advanced⟩
  · rw [idle]
    rfl
  · rw [started] at found ⊢
    obtain rfl := Option.some.inj ((put_self _ _ _).symm.trans found)
    exact (start_lastReturns call).quiet more
  · rw [advanced] at found ⊢
    obtain rfl := Option.some.inj ((put_self _ _ _).symm.trans found)
    exact (advance_lastReturns sink _ _ _ _).quiet more

theorem creating_ended (creating : point.Creating) (ended : point.Ended) : False := by
  cases point <;> first | exact creating | exact ended

theorem advance_invites {inviteId pin : String}
    (returns : (n.advance sink id io point).seen.returned = some (.invited (.ok (inviteId, pin)))) :
    ∃ s, point = .createInsert s pin ∧ inviteId = id.inviteId := by
  cases point
  case createInsert s drawn =>
    cases returns
    exact ⟨s, rfl, rfl⟩
  all_goals
    simp only [PairingNode.advance, PairingNode.withJoiner, PairingNode.initialLookup,
      PairingNode.initialSession, PairingNode.completionLookup, PairingNode.completionSession,
      PairingNode.createAwait, PairingNode.submitLookup, PairingNode.submitFeed,
      PairingNode.submitSession, PairingNode.submitPaired] at returns
    repeat' split at returns
    all_goals cases returns

-- The step calls `pin_peer`.
def Pins (e : NodeStep c T) (paired : Paired) : Prop :=
  ∃ seen, e.output = some seen ∧ seen.pinned = some paired

theorem start_pins (call : Call) : (n.start call).seen.pinned = none := by
  cases call with
  | request env =>
    simp only [PairingNode.start]
    repeat' split
    all_goals rfl
  | createInvite inviteId addr => rfl
  | submitPin inviteId pin =>
    simp only [PairingNode.start]
    split <;> rfl

theorem pins_effect {m : PairingNode c T} {after : Point c} {paired : Paired}
    (effect : n.Effect sink id point m after (some paired)) :
    (∃ addr handle, point = .submitPaired addr handle) ∨
      ∃ blob handle, point = .completionSession blob handle := by
  cases effect with
  | inviterPinned => exact .inr ⟨_, _, rfl⟩
  | joinerPinned => exact .inl ⟨_, _, rfl⟩

theorem trust_step (sink : TrustSink T) (w : World c T) (event : NodeEvent c) :
    ((nodeStep c sink w event).1.shared.trust = w.shared.trust ∧
        ∀ paired, ¬ Pins (entry (nodeStep c sink) w event) paired) ∨
      (∃ inviteId handle, CompletionPins (entry (nodeStep c sink) w event) inviteId handle) ∨
      ∃ id, JoinPins (entry (nodeStep c sink) w event) id := by
  rcases nodeStep_cases sink w event with idle | ⟨serial, call, rfl, new, started⟩ |
    ⟨id, io, ⟨call, point⟩, rfl, found, turned, advanced⟩
  · refine .inl ⟨by rw [idle], ?_⟩
    rintro paired ⟨seen, shown, -⟩
    rw [entry_output, idle] at shown
    cases shown
  · refine .inl ⟨by rw [started, put_shared, w.shared.start_shared call], ?_⟩
    rintro paired ⟨seen, shown, pinned⟩
    rw [entry_output, started] at shown
    cases shown
    cases (start_pins call).symm.trans pinned
  · have output := congrArg Prod.snd advanced
    have effect : w.shared.Effect sink id point _ _ _ := turned
    cases pinned : (w.shared.advance sink id io point).seen.pinned with
    | none =>
      rw [pinned] at effect
      refine .inl ⟨?_, ?_⟩
      · rw [advanced, put_shared]
        exact (trust_effect effect).resolve_right fun ⟨_, wrong, _⟩ => by cases wrong
      · rintro paired ⟨seen, shown, some⟩
        cases output.symm.trans shown
        cases pinned.symm.trans some
    | some paired =>
      have pins : (w.shared.advance sink id io point).seen.pinned ≠ none :=
        ne_of_eq_of_ne pinned (Option.some_ne_none paired)
      rw [pinned] at effect
      rcases pins_effect effect with ⟨addr, handle, rfl⟩ | ⟨blob, handle, rfl⟩
      · exact .inr (.inr ⟨id, addr, handle, _, ⟨io, call, rfl, found⟩, output, pins⟩)
      · exact .inr (.inl ⟨id.inviteId, handle, id, io, call, blob, _, rfl, rfl, found, output, pins⟩)

end

/-! ## What the operators hear -/

section

variable {seen : Option Observed} {event : NodeEvent c} {own : CallId}

theorem runInvite_hears_own (joiner : String) {inviteId pin : String}
    (named : (pairing c sink).id event = own)
    (returned : seen.bind Observed.returned = some (.invited (.ok (inviteId, pin)))) :
    (runInvite c sink joiner).hears (.creating own) event seen = .waiting inviteId pin 600 := by
  simp only [runInvite, named, returned, if_true, InviteStage.heard]

theorem runJoin_hears_own {paired : Paired} (named : (pairing c sink).id event = own)
    (returned : seen.bind Observed.returned = some (.submitted (.ok paired))) :
    (runJoin c sink).hears (.submitting own) event seen = .ended (.ok (some paired)) := by
  simp only [runJoin, named, returned, if_true, JoinStage.heard]

theorem runInvite_hears_quiet (joiner : String) (stage : InviteStage) (event : NodeEvent c)
    (quiet : seen.bind Observed.returned = none) :
    (runInvite c sink joiner).hears stage event seen = stage := by
  cases stage with
  | creating own =>
    simp only [runInvite, quiet]
    split <;> rfl
  | _ => rfl

theorem runJoin_hears_quiet (stage : JoinStage) (event : NodeEvent c)
    (quiet : seen.bind Observed.returned = none) :
    (runJoin c sink).hears stage event seen = stage := by
  cases stage with
  | submitting own =>
    simp only [runJoin, quiet]
    split <;> rfl
  | _ => rfl

end

end OpenPair
