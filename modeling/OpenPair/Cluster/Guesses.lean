import OpenPair.Cluster.NodeExchange

/-! What an invite allows: one guess of the PIN, and one pairing. -/

set_option autoImplicit false

namespace OpenPair

open Tasks Transition

variable {c : Crates} {T : Type} {sink : TrustSink T}

/-! ## After a wrong PIN -/

/-- Once a completion step of an invite has failed authentication, no completion
request brings its Server to Registered or pins a peer. -/
def OneGuess (before : List (NodeStep c T)) (e : NodeStep c T) : Prop :=
  ∀ inviteId, (∃ f ∈ before, ∃ handle, FailsAuthentication f inviteId handle) →
    ∀ handle, ¬ Registers e inviteId handle ∧ ¬ CompletionPins e inviteId handle

/-- The session of a wrong guess is given up: no other call holds it, and a
completion request that looks the invite up later does not find it. -/
def GivesUp (before : List (NodeStep c T)) (e : NodeStep c T) : Prop :=
  World.DrawsFreshUuid e ∧
    (∀ inviteId handle, FailsAuthentication e inviteId handle →
      ∀ id, (∀ io, e.input ≠ .resume id io) →
        ∀ call blob, e.before.tasks id ≠ some ⟨call, .completionSession blob handle⟩) ∧
    (∀ id io call blob handle, e.input = .resume id io →
      e.before.tasks id = some ⟨call, .completionLookup blob⟩ →
      e.before.shared.inviters.lookup id.inviteId = some handle →
      ∀ f ∈ before, ∀ inviteId, ¬ FailsAuthentication f inviteId handle)

/-- What holds in a run that gives up after wrong guesses. -/
structure GivenUp (history : List (NodeStep c T)) (w : World c T) : Prop where
  keyed : w.Keyed
  invited : w.Invited
  distinct : w.Distinct
  failed : ∀ {f inviteId handle}, f ∈ history → FailsAuthentication f inviteId handle →
    handle.inviteId = inviteId ∧ (∃ s, w.shared.inviterSessions handle = some s) ∧
      ∀ id call blob, w.tasks id ≠ some ⟨call, .completionSession blob handle⟩

section

variable {w : World c T} {event : NodeEvent c} {history : List (NodeStep c T)}

theorem Completes.held (keyed : w.Keyed) {inviteId : String} {handle : CallId} {out : Outcome}
    (completes : Completes (entry (nodeStep c sink) w event) inviteId handle out) :
    handle.inviteId = inviteId ∧ ∃ id io call blob s, event = .resume id io ∧
      w.tasks id = some ⟨call, .completionSession blob handle⟩ ∧
      w.shared.inviterSessions handle = some s := by
  obtain ⟨id, s, draws, blob, rfl, ⟨io, call, same, -, found, session⟩, -⟩ := completes
  exact ⟨(keyed.tasks found).2, id, io, call, blob, s, same, found, session⟩

theorem Completes.releases {inviteId : String} {handle : CallId} {out : Outcome}
    (completes : Completes (entry (nodeStep c sink) w event) inviteId handle out)
    (alone : ∀ id, (∀ io, event ≠ .resume id io) →
      ∀ call blob, w.tasks id ≠ some ⟨call, .completionSession blob handle⟩)
    (id : CallId) (call : Call) (blob : Bytes) :
    (nodeStep c sink w event).1.tasks id ≠ some ⟨call, .completionSession blob handle⟩ := by
  obtain ⟨own, s, draws, msg, -, hands, -⟩ := completes
  obtain ⟨made, stepped⟩ := hands.step
  have ended : (w.shared.completionSession sink own draws msg handle s).point.Ended :=
    completionSession_ended w.shared
  rw [stepped]
  intro holds
  rcases put_tasks holds with ⟨rfl, after⟩ | ⟨differs, old⟩
  · rw [show (w.shared.completionSession sink id draws msg handle s).point =
      .completionSession blob handle from (congrArg Task.point after).symm] at ended
    exact ended
  · obtain ⟨io, -, same, -⟩ := hands
    refine alone id (fun other wrong => ?_) call blob old
    rw [show event = .resume own io from same] at wrong
    exact differs (Event.resume.inj wrong).1.symm

theorem holds_step {handle : CallId} {id : CallId} {call : Call} {blob : Bytes}
    (holds : (nodeStep c sink w event).1.tasks id = some ⟨call, .completionSession blob handle⟩) :
    w.tasks id = some ⟨call, .completionSession blob handle⟩ ∨
      (TurnAt (entry (nodeStep c sink) w event) id (.completionLookup blob) ∧
        w.shared.inviters.lookup id.inviteId = some handle) := by
  rcases tasks_step holds with old | first | ⟨point, pinned, turn, before, effect⟩
  · exact .inl old
  · exact first.elim
  · rcases World.held_effect effect rfl with rfl | ⟨rfl, entry⟩
    · exact .inl before
    · exact .inr ⟨turn, entry⟩

theorem session_step {handle : CallId} {s : InviterSession c}
    (session : w.shared.inviterSessions handle = some s) :
    ∃ s, (nodeStep c sink w event).1.shared.inviterSessions handle = some s := by
  refine nodeStep_keep (P := fun w => ∃ s, w.shared.inviterSessions handle = some s) ⟨s, session⟩
    (fun serial call _ _ => ⟨s, ?_⟩) fun id io task _ _ turned => World.session_mono turned session
  rw [put_shared, w.shared.start_shared call, session]

theorem GivenUp.step (history : List (NodeStep c T)) (w : World c T) (event : NodeEvent c)
    (givenUp : GivenUp history w) (guarded : GivesUp history (entry (nodeStep c sink) w event)) :
    GivenUp (history ++ [entry (nodeStep c sink) w event]) (nodeStep c sink w event).1 := by
  obtain ⟨fresh, alone, gone⟩ := guarded
  refine ⟨givenUp.keyed.step event, givenUp.invited.step event, givenUp.distinct.step fresh, ?_⟩
  intro f inviteId handle member fails
  rcases List.mem_append.mp member with old | new
  · obtain ⟨named, ⟨s, session⟩, free⟩ := givenUp.failed old fails
    refine ⟨named, session_step session, fun id call blob holds => ?_⟩
    rcases holds_step holds with before | ⟨⟨io, running, same, looking⟩, entry⟩
    · exact free id call blob before
    · exact gone id io running blob handle same looking entry f old inviteId fails
  · obtain rfl := List.mem_singleton.mp new
    have released := alone inviteId handle fails
    obtain ⟨out, completes, -⟩ := fails
    obtain ⟨named, -, -, -, -, s, -, -, session⟩ := completes.held givenUp.keyed
    exact ⟨named, session_step session, completes.releases released⟩

end

/-! ### A second guess -/

namespace Handshake

variable (x : Handshake c) (io : Io c) (inviteId addr : String) (pin guess : Fin 1000000)

def guessEvents : List (NodeEvent c) :=
  x.inviteEvents inviteId addr pin ++ (completionEvents inviteId 1 io (x.resumingMsg guess) ++
    completionEvents inviteId 2 io (x.noobIdMsg guess))

-- The rest of the Completion Exchange with the PIN of the invite.
def secondGuessEvents : List (NodeEvent c) :=
  completionEvents inviteId 3 io (x.noobIdMsg pin) ++ completionEvents inviteId 4 io (x.macpMsg pin)

variable (lawful : c.Lawful) {profile : NodeProfile}
  (own : profile.pairingInfo c none = x.inviter.info) (named : inviteId.isEmpty = false)
include lawful own named

section

variable (differ : computeNoobId c (c.jsonStr (c.b64Encode (noob guess))) ≠
  computeNoobId c (c.jsonStr (c.b64Encode (noob pin))))
include differ

theorem guess_serves (sink : TrustSink T) (trust : T) :
    World.Serves (run (nodeStep c sink) (World.fresh c profile trust)
      (x.guessEvents io inviteId addr pin guess)) ⟨inviteId, 0⟩ (x.resumed pin guess) 3 := by
  obtain ⟨reply, resumes⟩ := x.request_resumes lawful io.draws inviteId pin guess
  obtain ⟨refusal, refuses⟩ := x.request_mismatches lawful io.draws inviteId pin guess differ
  have invited := x.serves lawful own sink trust inviteId addr pin
  have resumed := invited.completes lawful named sink io (x.resumingMsg guess) resumes
  rw [guessEvents, run_append, run_append]
  exact resumed.completes lawful named sink io (x.noobIdMsg guess) refuses

theorem guess_fails (sink : TrustSink T) (trust : T) :
    ∃ f ∈ trace (nodeStep c sink) (World.fresh c profile trust)
      (x.guessEvents io inviteId addr pin guess), FailsAuthentication f inviteId ⟨inviteId, 0⟩ := by
  obtain ⟨reply, resumes⟩ := x.request_resumes lawful io.draws inviteId pin guess
  have invited := x.serves lawful own sink trust inviteId addr pin
  have resumed := invited.completes lawful named sink io (x.resumingMsg guess) resumes
  refine ⟨_, ?_, _, ⟨_, _, _, _, rfl, resumed.hands sink io (x.noobIdMsg guess), ?_,
    congrArg Prod.snd (x.server_mismatches lawful io.draws (x.takesUp guess) differ)⟩, ?_⟩
  · rw [guessEvents, trace_append, trace_append]
    exact List.mem_append_right _ (List.mem_append_right _
      (resumed.mem_completing lawful named sink io (x.noobIdMsg guess)))
  · exact List.isEmpty_eq_false_iff.mpr (ne_nil_of_decode lawful (x.decode_noobId lawful _))
  · exact (by decide : isWrongPinCode ErrorCode.unrecognizedOobMsgId = true)

end

omit own in
theorem second_guess_matches (sink : TrustSink T) {w : World c T}
    (serves : w.Serves ⟨inviteId, 0⟩ (x.resumed pin guess) 3) :
    ∃ e ∈ trace (nodeStep c sink) w (x.secondGuessEvents io inviteId pin),
      Registers e inviteId ⟨inviteId, 0⟩ := by
  obtain ⟨reply, matches'⟩ := x.request_matches lawful io.draws inviteId pin guess
  have matched := serves.completes lawful named sink io (x.noobIdMsg pin) matches'
  refine ⟨_, ?_, _, ⟨_, _, _, _, rfl, matched.hands sink io (x.macpMsg pin), ?_,
    congrArg Prod.snd (x.server_registers lawful io.draws (noob pin) (x.takesUp guess))⟩, rfl⟩
  · rw [secondGuessEvents, trace_append]
    exact List.mem_append_right _ (matched.mem_completing lawful named sink io (x.macpMsg pin))
  · exact List.isEmpty_eq_false_iff.mpr (ne_nil_of_decode lawful (x.decode_macp lawful _))

end Handshake

section

variable {w : World c T} {id : CallId} {call : Call} {turn : PairingNode.Turn c T} {io : Io c}
  {before : List (NodeStep c T)}

theorem GivesUp.of_turn (idle : w.Idle)
    (gone : ∀ blob handle, turn.point = .completionLookup blob →
      turn.shared.inviters.lookup id.inviteId = some handle →
      ∀ f ∈ before, ∀ inviteId, ¬ FailsAuthentication f inviteId handle) :
    GivesUp before (entry (nodeStep c sink) (w.put id call turn) (.resume id io)) := by
  refine ⟨fun _ _ _ wrong => (by cases wrong), ?_, ?_⟩
  · intro inviteId handle fails other differs running blob held
    rcases put_tasks held with ⟨rfl, -⟩ | ⟨-, old⟩
    · exact differs io rfl
    · exact idle other _ old
  · intro other io' running blob handle same looking found
    obtain ⟨rfl, rfl⟩ := Event.resume.inj same
    have point := congrArg Task.point (Option.some.inj ((put_self _ _ _).symm.trans looking))
    exact gone blob handle point found

theorem GivesUp.of_call {serial : Nat}
    (fresh : World.DrawsFreshUuid (entry (nodeStep c sink) w (.call serial call))) :
    GivesUp before (entry (nodeStep c sink) w (.call serial call)) := by
  refine ⟨fresh, ?_, fun _ _ _ _ _ wrong => by cases wrong⟩
  rintro inviteId handle ⟨out, ⟨other, s, draws, blob, -, hands, -⟩, -⟩
  exact absurd hands not_hands_call

end

section

variable {w : World c T} {id handle : CallId} {call : Call} {turn : PairingNode.Turn c T} {io : Io c}
  {inviteId : String}

theorem not_fails_call {serial : Nat} :
    ¬ FailsAuthentication (entry (nodeStep c sink) w (.call serial call)) inviteId handle := by
  rintro ⟨out, ⟨own, s, draws, blob, -, hands, -⟩, -⟩
  exact not_hands_call hands

theorem not_fails_turn (point : ∀ blob handle, turn.point ≠ .completionSession blob handle) :
    ¬ FailsAuthentication (entry (nodeStep c sink) (w.put id call turn) (.resume id io)) inviteId
      handle := by
  rintro ⟨out, ⟨own, s, draws, blob, -, hands, -⟩, -⟩
  exact point blob handle hands.of_put.1

theorem not_fails_answered {s : InviterSession c} {next : Nat} {blob : Bytes} {out : Outcome}
    (serves : w.Serves id s next) (received : (s.server.receive io.draws blob).2 = some out)
    (right : out.errorCode.any isWrongPinCode = false) :
    ¬ FailsAuthentication (entry (nodeStep c sink) (w.completing id next blob)
      (.resume ⟨id.inviteId, next⟩ io)) inviteId handle := by
  rintro ⟨other, ⟨own, t, draws, bytes, -, hands, -, answered⟩, wrong⟩
  obtain ⟨point, session, rfl⟩ := hands.of_put
  obtain ⟨rfl, rfl⟩ := Point.completionSession.inj point
  obtain rfl : s = t := Option.some.inj (serves.session.symm.trans session)
  obtain rfl : out = other := Option.some.inj (received.symm.trans answered)
  rw [right] at wrong
  cases wrong

end

namespace Handshake

variable (x : Handshake c) (io : Io c) (inviteId addr : String) (pin guess : Fin 1000000)
  (lawful : c.Lawful) {profile : NodeProfile} (own : profile.pairingInfo c none = x.inviter.info)
include lawful own

theorem not_fails_invite (sink : TrustSink T) (trust : T) {f : NodeStep c T}
    (member : f ∈ trace (nodeStep c sink) (World.fresh c profile trust)
      (x.inviteEvents inviteId addr pin)) (other : String) (handle : CallId) :
    ¬ FailsAuthentication f other handle := by
  rcases x.invite_steps lawful own sink trust inviteId addr pin member with
    rfl | ⟨turn, io, rfl, creating⟩
  · exact not_fails_call
  · refine not_fails_turn fun blob handle wrong => ?_
    rw [wrong] at creating
    exact creating

theorem invite_gives_up (sink : TrustSink T) (trust : T) {e : NodeStep c T}
    (member : e ∈ trace (nodeStep c sink) (World.fresh c profile trust)
      (x.inviteEvents inviteId addr pin)) (before : List (NodeStep c T)) : GivesUp before e := by
  rcases x.invite_steps lawful own sink trust inviteId addr pin member with
    rfl | ⟨turn, io, rfl, creating⟩
  · refine .of_call fun serial name host same other creates => ?_
    obtain ⟨addr, point, wrong⟩ := creates
    cases wrong
  · refine .of_turn (.fresh profile trust) fun blob handle wrong => ?_
    rw [wrong] at creating
    exact creating.elim

end Handshake

theorem completion_gives_up (lawful : c.Lawful) {w : World c T} {id : CallId} {s : InviterSession c}
    {next : Nat} (serves : w.Serves id s next) (named : id.inviteId.isEmpty = false)
    {past : List (NodeStep c T)}
    (quiet : ∀ f ∈ past, ∀ inviteId handle, ¬ FailsAuthentication f inviteId handle)
    (sink : TrustSink T) (io : Io c) (blob : Bytes) :
    EveryStep (fun before e => GivesUp (past ++ before) e)
      (trace (nodeStep c sink) w (completionEvents id.inviteId next io blob)) := by
  have called {f : NodeStep c T} (member : f ∈ past ++ [entry (nodeStep c sink) w
      (.call next (completionRequest (c := c) id.inviteId blob))]) (inviteId : String)
      (handle : CallId) : ¬ FailsAuthentication f inviteId handle := by
    rcases List.mem_append.mp member with old | new
    · exact quiet f old inviteId handle
    · rw [List.mem_singleton.mp new]
      exact not_fails_call
  rw [serves.trace_completion lawful named, EveryStep.cons, EveryStep.cons, EveryStep.singleton]
  refine ⟨.of_call fun _ _ _ wrong => (by cases wrong), ?_, ?_⟩
  · exact .of_turn serves.idle fun _ handle _ _ f member name => called member name handle
  · exact .of_turn serves.idle fun _ _ wrong => by cases wrong

theorem late_gives_up (lawful : c.Lawful) {w : World c T} {id : CallId} {s : InviterSession c}
    {next : Nat} (serves : w.Serves id s next) (named : id.inviteId.isEmpty = false)
    (past : List (NodeStep c T)) (sink : TrustSink T) (io : Io c) (blob : Bytes) :
    EveryStep (fun before e => GivesUp (past ++ before) e)
      (trace (nodeStep c sink) w (lateEvents id.inviteId next io blob)) := by
  obtain ⟨declines, declined⟩ := trace_decline id (serves.free next le_rfl) named sink io
  have apart : (⟨id.inviteId, next + 1⟩ : CallId) ≠ ⟨id.inviteId, next⟩ := by
    intro same
    have equal := (CallId.mk.inj same).2
    omega
  rw [lateEvents, trace_append, EveryStep.append, declines, declined, EveryStep.cons,
    EveryStep.singleton, trace, call_completion lawful ?_ named, trace, trace, EveryStep.cons,
    EveryStep.singleton]
  · refine ⟨⟨.of_call fun _ _ _ wrong => (by cases wrong), ?_⟩,
      .of_call fun _ _ _ wrong => (by cases wrong), ?_⟩
    · exact .of_turn serves.idle fun _ _ wrong => by cases wrong
    · refine .of_turn (World.Idle.put serves.idle trivial) fun _ _ _ found => ?_
      cases (AList.lookup_erase id.inviteId w.shared.inviters).symm.trans found
  · rw [put_other _ _ apart]
    exact serves.free _ (Nat.le_succ next)

namespace Handshake

variable (x : Handshake c) (io : Io c) (inviteId addr : String) (pin guess : Fin 1000000)
  (lawful : c.Lawful) {profile : NodeProfile} (own : profile.pairingInfo c none = x.inviter.info)
  (named : inviteId.isEmpty = false)
include lawful own named

theorem guess_gives_up (sink : TrustSink T) (trust : T) :
    EveryStep GivesUp (trace (nodeStep c sink) (World.fresh c profile trust)
      (x.guessEvents io inviteId addr pin guess)) := by
  obtain ⟨reply, resumes⟩ := x.request_resumes lawful io.draws inviteId pin guess
  have invited := x.serves lawful own sink trust inviteId addr pin
  have resumed := invited.completes lawful named sink io (x.resumingMsg guess) resumes
  have invites {f : NodeStep c T} := x.not_fails_invite inviteId addr pin lawful own sink trust (f := f)
  rw [guessEvents, trace_append, trace_append, EveryStep.append, EveryStep.append]
  refine ⟨fun before e after split => ?_, ?_, ?_⟩
  · exact x.invite_gives_up inviteId addr pin lawful own sink trust (by rw [split]; simp) before
  · exact completion_gives_up lawful invited named (fun f member => invites member) sink io _
  · simp only [← List.append_assoc]
    refine completion_gives_up lawful resumed named (fun f member name handle => ?_) sink io _
    rcases List.mem_append.mp member with old | new
    · exact invites old name handle
    · rw [invited.trace_completion lawful named] at new
      simp only [List.mem_cons, List.not_mem_nil, or_false] at new
      rcases new with rfl | rfl | rfl
      · exact not_fails_call
      · exact not_fails_turn fun _ _ wrong => by cases wrong
      · exact not_fails_answered invited (congrArg Prod.snd (x.server_resumes lawful io.draws
          (x.decode_resumed lawful (noob guess)) rfl rfl rfl (noob_ne_nil pin))) rfl

end Handshake

namespace Reference

def guess : List (NodeEvent crates) := endpoints.guessEvents nodeIo "invite" "b:1" rightPin wrongPin

def secondGuess : List (NodeEvent crates) := endpoints.secondGuessEvents nodeIo "invite" rightPin

theorem guess_differs :
    computeNoobId crates (crates.jsonStr (crates.b64Encode (Handshake.noob wrongPin))) ≠
      computeNoobId crates (crates.jsonStr (crates.b64Encode (Handshake.noob rightPin))) := by
  decide +kernel

theorem guessed : ∃ f ∈ trace (nodeStep crates keeping) inviterNode guess,
    FailsAuthentication f "invite" ⟨"invite", 0⟩ :=
  endpoints.guess_fails nodeIo "invite" "b:1" rightPin wrongPin lawful rfl (by decide)
    guess_differs keeping []

theorem guessed_again :
    ∃ e ∈ trace (nodeStep crates keeping) (run (nodeStep crates keeping) inviterNode guess)
      secondGuess, Registers e "invite" ⟨"invite", 0⟩ :=
  endpoints.second_guess_matches nodeIo "invite" rightPin wrongPin lawful (by decide) keeping
    (endpoints.guess_serves nodeIo "invite" "b:1" rightPin wrongPin lawful rfl (by decide)
      guess_differs keeping [])

/-- After the guess the invite is declined; the right PIN comes too late. -/
def lateGuess : List (NodeEvent crates) :=
  lateEvents "invite" 3 nodeIo (endpoints.noobIdMsg rightPin)

theorem guess_given_up :
    EveryStep GivesUp (trace (nodeStep crates keeping) inviterNode (guess ++ lateGuess)) := by
  have served := endpoints.guess_serves nodeIo "invite" "b:1" rightPin wrongPin lawful rfl (by decide)
    guess_differs keeping ([] : List Paired)
  rw [trace_append, EveryStep.append]
  exact ⟨endpoints.guess_gives_up nodeIo "invite" "b:1" rightPin wrongPin lawful rfl (by decide)
    keeping [], late_gives_up lawful served (by decide) _ keeping nodeIo _⟩

end Reference

/-- In a run that gives up the session of every wrong guess, an invite allows one guess. -/
theorem one_guess_when_given_up (sink : TrustSink T) (profile : NodeProfile) (trust : T)
    (events : List (NodeEvent c))
    (guarded : EveryStep GivesUp
      (trace (nodeStep c sink) (World.fresh c profile trust) events)) :
    EveryStep OneGuess (trace (nodeStep c sink) (World.fresh c profile trust) events) := by
  refine EveryStep.of_invariant GivenUp.step ?_
    ⟨.fresh profile trust, .fresh profile trust, .fresh profile trust, ?_⟩ events guarded
  · intro history w event givenUp guarded inviteId wrong handle
    obtain ⟨f, member, failed, fails⟩ := wrong
    obtain ⟨named, ⟨s, session⟩, free⟩ := givenUp.failed member fails
    have none {out : Outcome}
        (completes : Completes (entry (nodeStep c sink) w event) inviteId handle out) : False := by
      obtain ⟨same, id, io, call, blob, t, -, held, found⟩ := completes.held givenUp.keyed
      obtain rfl : handle = failed :=
        givenUp.distinct.session givenUp.invited found session (same.trans named.symm)
      exact free id call blob held
    refine ⟨fun registers => ?_, fun pins => ?_⟩
    · obtain ⟨out, completes, -⟩ := registers
      exact none completes
    · obtain ⟨id, s, draws, blob, out, t, named, hands, some, received, -⟩ :=
        pins.hands givenUp.invited
      exact none ⟨id, s, draws, blob, named, hands, some, received⟩
  · intro f inviteId handle member
    cases member

/-- After a wrong guess the same invite takes a right one. -/
theorem second_guess_registers : ¬ EveryStep OneGuess
    (trace (nodeStep Reference.crates Reference.keeping) Reference.inviterNode
      (Reference.guess ++ Reference.secondGuess)) := by
  intro every
  obtain ⟨f, failing, fails⟩ := Reference.guessed
  obtain ⟨e, member, registers⟩ := Reference.guessed_again
  rw [trace_append] at every
  obtain ⟨before, earlier, one⟩ := every.later failing member
  exact (one "invite" ⟨f, earlier, _, fails⟩ _).1 registers

/-- The run of one guess, which the theorem covers: a later request changes nothing. -/
theorem one_guess_reference :
    (∃ f ∈ trace (nodeStep Reference.crates Reference.keeping) Reference.inviterNode Reference.guess,
        FailsAuthentication f "invite" ⟨"invite", 0⟩) ∧
      EveryStep OneGuess (trace (nodeStep Reference.crates Reference.keeping) Reference.inviterNode
        (Reference.guess ++ Reference.lateGuess)) :=
  ⟨Reference.guessed, one_guess_when_given_up Reference.keeping Reference.inviterProfile []
    (Reference.guess ++ Reference.lateGuess) Reference.guess_given_up⟩

/-! ## After a success -/

def OnePairing (before : List (NodeStep c T)) (e : NodeStep c T) : Prop :=
  ∀ inviteId handle, CompletionPins e inviteId handle →
    ∀ f ∈ before, ∀ other, ¬ CompletionPins f inviteId other

/-- A Type 6 that verifies finds a session that has captured no joiner. -/
def VerifiesUncaptured (e : NodeStep c T) : Prop :=
  World.DrawsFreshUuid e ∧ ∀ id handle s draws blob wm keym, Hands e id handle s draws blob →
    blob.isEmpty = false → c.decodeWire blob = some wm → wm.errorCode = none →
    wm.type = some 6 → s.server.Verifies wm keym → s.joiner = none

/-- A session that has pinned its joiner keeps it. -/
structure Captured (history : List (NodeStep c T)) (w : World c T) : Prop where
  keyed : w.Keyed
  invited : w.Invited
  distinct : w.Distinct
  pinned : ∀ {f inviteId handle}, f ∈ history → CompletionPins f inviteId handle →
    handle.inviteId = inviteId ∧
      ∃ s, w.shared.inviterSessions handle = some s ∧ s.joiner ≠ none

section

variable {w : World c T} {event : NodeEvent c} {history : List (NodeStep c T)}

theorem captured_step (invited : w.Invited) {handle : CallId} {s : InviterSession c}
    (session : w.shared.inviterSessions handle = some s) (held : s.joiner ≠ none) :
    ∃ t, (nodeStep c sink w event).1.shared.inviterSessions handle = some t ∧ t.joiner ≠ none := by
  refine nodeStep_keep
    (P := fun w => ∃ t, w.shared.inviterSessions handle = some t ∧ t.joiner ≠ none)
    ⟨s, session, held⟩ (fun serial call _ _ => ⟨s, ?_, held⟩) fun id io task _ found turned => ?_
  · rw [put_shared, w.shared.start_shared call, session]
  · rcases World.session_effect handle turned with same | ⟨t, pin, at_, rfl, -⟩ |
      ⟨blob, before, t, draws, answer, -, found', answered, set⟩
    · exact ⟨s, same.trans session, held⟩
    · -- The call that made the session has returned.
      obtain ⟨addr, created⟩ := invited.sessions session
      rw [created, Option.some.injEq] at found
      subst found
      cases at_
    · obtain rfl : before = s := Option.some.inj (found'.symm.trans session)
      refine ⟨t, set, ?_⟩
      rw [show t = (before.completionRequest draws id.inviteId blob).1 from
        (congrArg Prod.fst answered).symm]
      exact InviterSession.completionRequest_joiner held

theorem Captured.step (history : List (NodeStep c T)) (w : World c T) (event : NodeEvent c)
    (captured : Captured history w)
    (guarded : VerifiesUncaptured (entry (nodeStep c sink) w event)) :
    Captured (history ++ [entry (nodeStep c sink) w event]) (nodeStep c sink w event).1 := by
  refine ⟨captured.keyed.step event, captured.invited.step event,
    captured.distinct.step guarded.1, ?_⟩
  intro f inviteId handle member pins
  rcases List.mem_append.mp member with old | new
  · obtain ⟨named, s, session, held⟩ := captured.pinned old pins
    exact ⟨named, captured_step captured.invited session held⟩
  · obtain rfl := List.mem_singleton.mp new
    obtain ⟨id, s, draws, blob, out, t, named, hands, some, received, -, after, held⟩ :=
      pins.hands captured.invited
    obtain ⟨same, -⟩ := Completes.held captured.keyed ⟨id, s, draws, blob, named, hands, some, received⟩
    exact ⟨same, t, after, held⟩

end

/-! ### A replay -/

theorem VerifiesUncaptured.of_call {w : World c T} {serial : Nat} {call : Call}
    (fresh : World.DrawsFreshUuid (entry (nodeStep c sink) w (.call serial call))) :
    VerifiesUncaptured (entry (nodeStep c sink) w (.call serial call)) :=
  ⟨fresh, fun _ _ _ _ _ _ _ hands => absurd hands not_hands_call⟩

theorem VerifiesUncaptured.of_turn {w : World c T} {id : CallId} {call : Call}
    {turn : PairingNode.Turn c T} {io : Io c}
    (none : ∀ blob handle s, turn.point = .completionSession blob handle →
      turn.shared.inviterSessions handle = some s → s.joiner = none) :
    VerifiesUncaptured (entry (nodeStep c sink) (w.put id call turn) (.resume id io)) := by
  refine ⟨fun _ _ _ wrong => (by cases wrong), ?_⟩
  intro own handle s draws blob wm keym hands _ _ _ _ _
  obtain ⟨point, session, -⟩ := hands.of_put
  exact none blob handle s point session

theorem completion_uncaptured (lawful : c.Lawful) {w : World c T} {id : CallId}
    {s : InviterSession c} {next : Nat} (serves : w.Serves id s next)
    (named : id.inviteId.isEmpty = false) (fresh : s.joiner = none) (sink : TrustSink T)
    (io : Io c) (blob : Bytes) {e : NodeStep c T}
    (member : e ∈ trace (nodeStep c sink) w (completionEvents id.inviteId next io blob)) :
    VerifiesUncaptured e := by
  rw [serves.trace_completion lawful named] at member
  simp only [List.mem_cons, List.not_mem_nil, or_false] at member
  rcases member with rfl | rfl | rfl
  · exact .of_call fun _ _ _ wrong => by cases wrong
  · exact .of_turn fun _ _ _ wrong => by cases wrong
  · refine .of_turn fun _ handle t point session => ?_
    obtain ⟨rfl, rfl⟩ := Point.completionSession.inj point
    rw [← Option.some.inj (serves.session.symm.trans session)]
    exact fresh

namespace Handshake

variable (x : Handshake c) (io : Io c) (inviteId addr : String) (pin : Fin 1000000)

def matchEvents : List (NodeEvent c) :=
  x.inviteEvents inviteId addr pin ++ (completionEvents inviteId 1 io (x.resumingMsg pin) ++
    completionEvents inviteId 2 io (x.noobIdMsg pin))

def pairEvents : List (NodeEvent c) :=
  x.matchEvents io inviteId addr pin ++ completionEvents inviteId 3 io (x.macpMsg pin)

variable (lawful : c.Lawful) {profile : NodeProfile}
  (own : profile.pairingInfo c none = x.inviter.info) (named : inviteId.isEmpty = false)
include lawful own named

theorem match_serves (sink : TrustSink T) (trust : T) :
    World.Serves (run (nodeStep c sink) (World.fresh c profile trust)
        (x.matchEvents io inviteId addr pin)) ⟨inviteId, 0⟩ (x.matched pin pin) 3 ∧
      ∀ e ∈ trace (nodeStep c sink) (World.fresh c profile trust)
        (x.matchEvents io inviteId addr pin), VerifiesUncaptured e := by
  obtain ⟨reply, resumes⟩ := x.request_resumes lawful io.draws inviteId pin pin
  obtain ⟨answer, matches'⟩ := x.request_matches lawful io.draws inviteId pin pin
  have invited := x.serves lawful own sink trust inviteId addr pin
  have resumed := invited.completes lawful named sink io (x.resumingMsg pin) resumes
  rw [matchEvents, run_append, run_append, trace_append, trace_append]
  refine ⟨resumed.completes lawful named sink io (x.noobIdMsg pin) matches', fun e member => ?_⟩
  simp only [List.mem_append] at member
  rcases member with first | second | third
  · rcases x.invite_steps lawful own sink trust inviteId addr pin first with
      rfl | ⟨turn, io, rfl, creating⟩
    · refine .of_call fun serial name host same other creates => ?_
      obtain ⟨addr, point, wrong⟩ := creates
      cases wrong
    · refine .of_turn fun blob handle s wrong => ?_
      rw [wrong] at creating
      exact creating.elim
  · exact completion_uncaptured lawful invited named rfl sink io _ second
  · exact completion_uncaptured lawful resumed named rfl sink io _ third

theorem pair_serves (sink : TrustSink T) (trust : T) :
    (∃ f ∈ trace (nodeStep c sink) (World.fresh c profile trust)
        (x.pairEvents io inviteId addr pin), CompletionPins f inviteId ⟨inviteId, 0⟩) ∧
      World.Serves (run (nodeStep c sink) (World.fresh c profile trust)
        (x.pairEvents io inviteId addr pin)) ⟨inviteId, 0⟩ (x.paired pin pin) 4 ∧
      ∀ e ∈ trace (nodeStep c sink) (World.fresh c profile trust)
        (x.pairEvents io inviteId addr pin), VerifiesUncaptured e := by
  obtain ⟨last, paired, registers⟩ := x.request_registers lawful io.draws inviteId pin pin
  obtain ⟨matched, uncaptured⟩ := x.match_serves io inviteId addr pin lawful own named sink trust
  have served := matched.completes lawful named sink io (x.macpMsg pin) registers
  rw [pairEvents, trace_append, run_append]
  refine ⟨⟨_, ?_, matched.pins sink io (x.macpMsg pin) registers⟩, served, fun e member => ?_⟩
  · exact List.mem_append_right _ (matched.mem_completing lawful named sink io (x.macpMsg pin))
  · rcases List.mem_append.mp member with earlier | last
    · exact uncaptured e earlier
    · exact completion_uncaptured lawful matched named rfl sink io _ last

end Handshake

namespace Reference

def pairing : List (NodeEvent crates) := endpoints.pairEvents nodeIo "invite" "b:1" rightPin

def replay : List (NodeEvent crates) :=
  completionEvents "invite" 4 nodeIo (endpoints.macpMsg rightPin)

theorem paired : (∃ f ∈ trace (nodeStep crates keeping) inviterNode pairing,
      CompletionPins f "invite" ⟨"invite", 0⟩) ∧
    World.Serves (run (nodeStep crates keeping) inviterNode pairing) ⟨"invite", 0⟩
      (endpoints.paired rightPin rightPin) 4 ∧
    ∀ e ∈ trace (nodeStep crates keeping) inviterNode pairing, VerifiesUncaptured e :=
  endpoints.pair_serves nodeIo "invite" "b:1" rightPin lawful rfl (by decide) keeping []

end Reference

/-- In a run in which a Type 6 verifies only before the joiner is captured, an
invite pins a joiner once. -/
theorem one_pairing_when_uncaptured (sink : TrustSink T) (profile : NodeProfile) (trust : T)
    (events : List (NodeEvent c))
    (guarded : EveryStep (fun _ e => VerifiesUncaptured e)
      (trace (nodeStep c sink) (World.fresh c profile trust) events)) :
    EveryStep OnePairing (trace (nodeStep c sink) (World.fresh c profile trust) events) := by
  refine EveryStep.of_invariant Captured.step ?_
    ⟨.fresh profile trust, .fresh profile trust, .fresh profile trust, ?_⟩ events guarded
  · intro history w event captured guarded inviteId handle pins f member other pinned
    obtain ⟨id, s, draws, blob, out, t, named, hands, some, received, success, -⟩ :=
      pins.hands captured.invited
    obtain ⟨wm, keym, decoded, notice, type, verifies⟩ :=
      Server.receive_success_verifies received success
    have none := guarded.2 id handle s draws blob wm keym hands some decoded notice type verifies
    obtain ⟨same, -⟩ := Completes.held captured.keyed ⟨id, s, draws, blob, named, hands, some, received⟩
    obtain ⟨named', s', session', held⟩ := captured.pinned member pinned
    obtain ⟨io, call, -, -, -, session⟩ := hands
    obtain rfl : handle = other :=
      captured.distinct.session captured.invited session session' (same.trans named'.symm)
    obtain rfl : s = s' := Option.some.inj (session.symm.trans session')
    exact held none
  · intro f inviteId handle member
    cases member

/-- A replayed MACp pins the joiner once more. -/
theorem replay_pins_again : ¬ EveryStep OnePairing
    (trace (nodeStep Reference.crates Reference.keeping) Reference.inviterNode
      (Reference.pairing ++ Reference.replay)) := by
  intro every
  obtain ⟨⟨f, earlier, pinned⟩, serves, -⟩ := Reference.paired
  obtain ⟨reply, paired, registers⟩ := Reference.endpoints.request_registers_again Reference.lawful
    Reference.nodeIo.draws "invite" Reference.rightPin Reference.rightPin
  rw [trace_append] at every
  obtain ⟨before, member, one⟩ := every.later earlier
    (serves.mem_completing Reference.lawful (by decide) Reference.keeping Reference.nodeIo _)
  exact one _ _ (serves.pins Reference.keeping Reference.nodeIo _ registers) f member _ pinned

/-- The run of one pairing, which the theorem covers. -/
theorem one_pairing_reference :
    (∃ f ∈ trace (nodeStep Reference.crates Reference.keeping) Reference.inviterNode
        Reference.pairing, CompletionPins f "invite" ⟨"invite", 0⟩) ∧
      EveryStep OnePairing
        (trace (nodeStep Reference.crates Reference.keeping) Reference.inviterNode
          Reference.pairing) :=
  ⟨Reference.paired.1, one_pairing_when_uncaptured Reference.keeping Reference.inviterProfile []
    Reference.pairing (EveryStep.of_forall Reference.paired.2.2)⟩

end OpenPair
