import OpenPair.Cluster.NodeJoining
import OpenPair.Codec
import OpenPair.Library.Utf8

/-! The pairing channel over HTTP (`http.rs`): the endpoint behind its server, and
what the client makes of a response.
-/

set_option autoImplicit false

namespace OpenPair

open Tasks Transition

variable {F : Type}

/-! ## The envelope -/

namespace PairingEnvelope

def fieldNames : List String := ["inviteId", "phase", "msg", "rejected", "reason"]

def fields (env : PairingEnvelope) : List (Option (Json.Tree F)) :=
  [Codec.string.required env.inviteId, Codec.string.required env.phase,
    Codec.string.defaulted "" env.msg, Codec.bool.defaulted false env.rejected,
    Codec.string.defaulted "" env.reason]

def ofFields : List (Option (Json.Tree F)) → Option PairingEnvelope
  | [inviteId, phase, msg, rejected, reason] => do
    return { inviteId := ← Codec.string.readRequired inviteId
             phase := ← Codec.string.readRequired phase
             msg := ← readDefault Codec.string.ofTree "" msg
             rejected := ← readDefault Codec.bool.ofTree false rejected
             reason := ← readDefault Codec.string.ofTree "" reason }
  | _ => none

theorem ofFields_fields (env : PairingEnvelope) : ofFields (env.fields (F := F)) = some env := by
  have text (s : String) : (Codec.string (F := F)).readBack s = s := rfl
  have flag (b : Bool) : (Codec.bool (F := F)).readBack b = b := rfl
  simp [ofFields, fields, text, flag]

theorem integral_fields (env : PairingEnvelope) :
    ∀ field ∈ env.fields (F := F), Codec.Integral field := by
  simp [fields]

def codec : Codec F PairingEnvelope :=
  .struct fieldNames fields ofFields id (by decide) (fun _ => rfl) ofFields_fields integral_fields

theorem fromSlice_toVec {j : JsonCrate F} (lawful : j.Lawful) (env : PairingEnvelope) :
    codec.fromSlice j (codec.toVec j env) = some env :=
  codec.fromSlice_toVec lawful env

end PairingEnvelope

/-! ## The server -/

def pairingPath : String := "/v1/cluster/pairing"

/-- A request, whose body cannot always be read. -/
structure ServerRequest where
  method : String
  path : String
  body : Option Bytes

structure ServerResponse where
  status : Nat
  contentType : String
  body : Bytes
  deriving DecidableEq

def textResponse (status : Nat) (msg : String) : ServerResponse := ⟨status, "text/plain", utf8 msg⟩

variable (j : JsonCrate F)

-- `handle` in front of the endpoint: the envelope that is passed on.
def receiveRequest (request : ServerRequest) : Except ServerResponse PairingEnvelope :=
  if request.path ≠ pairingPath then .error (textResponse 404 "not found")
  else if request.method ≠ "POST" then .error (textResponse 405 "method not allowed")
  else
    match request.body with
    | none => .error (textResponse 400 "cannot read body")
    | some body =>
      match PairingEnvelope.codec.fromSlice j body with
      | none => .error (textResponse 400 "bad request")
      | some env => .ok env

-- `handle` behind the endpoint.
def Reply.response (reply : Reply) : ServerResponse :=
  ⟨reply.status, "application/json", PairingEnvelope.codec.toVec j reply.envelope⟩

/-! ## The client -/

def postRequest (env : PairingEnvelope) : ServerRequest :=
  ⟨"POST", pairingPath, some (PairingEnvelope.codec.toVec j env)⟩

inductive PostError where
  | transport (e : String)
  | answered (status : Nat) (body : String)
  | unreadable
  deriving DecidableEq

/-- What `post_pairing` makes of a response; one of 409 may be a refusal. -/
def readResponse (response : ServerResponse) : Except PostError PairingEnvelope :=
  if response.status = 409 then
    match PairingEnvelope.codec.fromSlice j response.body with
    | some env => if env.rejected then .ok env else .error (.answered 409 (Utf8.lossy response.body))
    | none => .error (.answered 409 (Utf8.lossy response.body))
  else if ¬ (200 ≤ response.status ∧ response.status < 300) then
    .error (.answered response.status (Utf8.lossy response.body))
  else
    match PairingEnvelope.codec.fromSlice j response.body with
    | some env => .ok env
    | none => .error .unreadable

def postPairing (sent : Except String ServerResponse) : Except PostError PairingEnvelope :=
  match sent with
  | .error e => .error (.transport e)
  | .ok response => readResponse j response

def Reply.failure (reply : Reply) : PostError :=
  .answered reply.status (Utf8.lossy (PairingEnvelope.codec.toVec j reply.envelope))

/-! ## The endpoint behind its server -/

variable {c : Crates} {T : Type}

variable (c) in
inductive WireEvent where
  | request (serial : Nat) (sent : ServerRequest)
  /-- A call of the node itself. -/
  | call (serial : Nat) (call : Call)
  | resume (id : CallId) (io : Io c)

def WireEvent.admitted : WireEvent c → Except ServerResponse (NodeEvent c)
  | .request serial sent => (receiveRequest j sent).map fun env => .call serial (.request env)
  | .call serial own => .ok (.call serial own)
  | .resume id io => .ok (.resume id io)

def Observed.response (seen : Observed) : Option ServerResponse :=
  match seen.returned with
  | some (.replied reply) => some (reply.response j)
  | _ => none

def wireStep (sink : TrustSink T) (x : World c T) (event : WireEvent c) :
    World c T × Option ServerResponse :=
  match event.admitted j with
  | .error response => (x, some response)
  | .ok event =>
    let stepped := nodeStep c sink x event
    (stepped.1, stepped.2.bind (Observed.response j))

/-! ## Replies -/

def Reply.Plain (reply : Reply) : Prop :=
  reply.status = 200 ∨ reply.status = 400 ∨ reply.status = 409

def Result.reply : Result → Option Reply
  | .replied reply => some reply
  | _ => none

/-- A reply that a call keeps for a later turn. -/
def Point.Plain : Point c → Prop
  | .initialEvict _ reply => reply.Plain
  | .initialPending _ reply => reply.Plain
  | _ => True

/-- What a turn keeps and what it returns. -/
structure PairingNode.PlainTurn (turn : PairingNode.Turn c T) : Prop where
  point : turn.point.Plain
  returned (reply : Reply) : turn.seen.returned = some (.replied reply) → reply.Plain

section

variable {j}

theorem receiveRequest_postRequest (lawful : j.Lawful) (env : PairingEnvelope) :
    receiveRequest j (postRequest j env) = .ok env := by
  simp [receiveRequest, postRequest, PairingEnvelope.fromSlice_toVec lawful]

theorem readResponse_response (lawful : j.Lawful) {reply : Reply} (plain : reply.Plain) :
    readResponse j (reply.response j) = reply.posted.mapError fun _ => reply.failure j := by
  have read := PairingEnvelope.fromSlice_toVec lawful reply.envelope
  obtain ⟨status, envelope⟩ := reply
  simp only at read
  unfold Reply.Plain at plain
  simp only at plain
  rcases plain with rfl | rfl | rfl
  · simp [readResponse, Reply.response, Reply.posted, read, Except.mapError]
  · simp [readResponse, Reply.response, Reply.posted, Reply.failure, Except.mapError]
  · cases rejected : envelope.rejected with
    | true => simp [readResponse, Reply.response, Reply.posted, read, rejected, Except.mapError]
    | false =>
      simp [readResponse, Reply.response, Reply.posted, Reply.failure, read, rejected,
        Except.mapError]

namespace Reply

theorem plain_ok (env : PairingEnvelope) : (ok env).Plain := .inl rfl

theorem plain_badRequest (env : PairingEnvelope) : (badRequest env).Plain := .inr (.inl rfl)

theorem plain_conflict (env : PairingEnvelope) : (conflict env).Plain := .inr (.inr rfl)

end Reply

namespace PairingNode

variable {n m : PairingNode c T} {sink : TrustSink T} {id : CallId} {point : Point c}

theorem PlainTurn.waits (plain : point.Plain) : PlainTurn (n.waits point) :=
  ⟨plain, nofun⟩

theorem PlainTurn.posts (addr : String) (env : PairingEnvelope) (plain : point.Plain) :
    PlainTurn (n.posts addr env point) :=
  ⟨plain, nofun⟩

theorem PlainTurn.replies {reply : Reply} (plain : reply.Plain) :
    PlainTurn (n.returns (.replied reply)) where
  point := trivial
  returned other same := by
    cases same
    exact plain

theorem PlainTurn.other {result : Result} (other : result.reply = none) :
    PlainTurn (n.returns result) where
  point := trivial
  returned reply same := by
    cases same
    cases other

theorem PlainTurn.withJoiner {turn : JoinerSession c → Turn c T} (handle : CallId)
    (plain : point.Plain) (turns : ∀ s, PlainTurn (turn s)) :
    PlainTurn (n.withJoiner handle point turn) := by
  unfold PairingNode.withJoiner
  split
  · exact .waits plain
  · exact turns _

theorem plain_start (call : Call) : PlainTurn (n.start call) := by
  cases call with
  | request env =>
    unfold start
    dsimp only
    split
    · exact .replies (Reply.plain_badRequest _)
    split
    · exact .waits trivial
    split
    · exact .waits trivial
    split
    · exact .waits trivial
    split
    · exact .waits trivial
    split
    · exact .replies (Reply.plain_ok _)
    · exact .replies (Reply.plain_badRequest _)
  | createInvite inviteId joinerAddr => exact .posts _ _ trivial
  | submitPin inviteId pin =>
    unfold start
    dsimp only
    split
    · exact .other rfl
    · exact .waits trivial

theorem plain_initialLookup (msg : Bytes) : PlainTurn (n.initialLookup sink id msg) := by
  unfold initialLookup
  split
  · exact .waits trivial
  · split
    · exact .replies (Reply.plain_badRequest _)
    · split
      · exact .replies (Reply.plain_conflict _)
      · exact .waits trivial

theorem initialRequest_plain {s t : JoinerSession c} {draws : Draws c} {inviteId : String}
    {msg : Bytes} {reply : Reply} {invite : Option PendingInvite}
    (handled : s.initialRequest draws inviteId msg = (t, some (.ok (reply, invite)))) :
    reply.Plain := by
  unfold JoinerSession.initialRequest at handled
  obtain ⟨-, answered⟩ := Prod.mk.inj handled
  obtain ⟨result, -, mapped⟩ := Option.map_eq_some_iff.mp answered
  cases result with
  | error e => cases mapped
  | ok bytes =>
    cases mapped
    exact Reply.plain_ok _

theorem plain_initialSession (draws : Draws c) (msg : Bytes) (handle : CallId)
    (s : JoinerSession c) : PlainTurn (n.initialSession id draws msg handle s) := by
  unfold initialSession
  split
  · exact .waits trivial
  · exact .waits (Reply.plain_badRequest _)
  · next handled => exact .replies (initialRequest_plain handled)
  · next handled => exact .waits (initialRequest_plain handled)

theorem completionRequest_plain {s t : InviterSession c} {draws : Draws c} {inviteId : String}
    {blob : Bytes} {reply : Reply} {paired : Option Paired}
    (handled : s.completionRequest draws inviteId blob = (t, some (reply, paired))) :
    reply.Plain := by
  unfold InviterSession.completionRequest at handled
  split at handled
  · cases handled
    exact Reply.plain_ok _
  · obtain ⟨-, answered⟩ := Prod.mk.inj handled
    obtain ⟨result, -, mapped⟩ := Option.map_eq_some_iff.mp answered
    cases result with
    | error e =>
      cases mapped
      exact Reply.plain_badRequest _
    | ok step =>
      cases mapped
      exact Reply.plain_ok _

theorem plain_completionSession (draws : Draws c) (blob : Bytes) (handle : CallId)
    (s : InviterSession c) : PlainTurn (n.completionSession sink id draws blob handle s) := by
  unfold completionSession
  split
  · exact .waits trivial
  · next handled => exact .replies (completionRequest_plain handled)
  · next handled =>
    refine ⟨trivial, fun reply same => ?_⟩
    cases same
    exact completionRequest_plain handled

theorem plain_createAwait (io : Io c) (joinerAddr : String) (s : InviterSession c) :
    PlainTurn (n.createAwait id io joinerAddr s) := by
  unfold createAwait
  split
  · exact .other rfl
  · split
    · exact .waits trivial
    · exact .other rfl
    · exact .posts _ _ trivial
    · split
      · exact .other rfl
      · exact .waits trivial

theorem plain_submitFeed (pin : String) (handle : CallId) (s : JoinerSession c) :
    PlainTurn (n.submitFeed id pin handle s) := by
  unfold submitFeed
  split
  · exact .other rfl
  · exact .posts _ _ trivial

theorem plain_submitSession (draws : Draws c) (addr : String) (handle : CallId)
    (resp : PairingEnvelope) (s : JoinerSession c) :
    PlainTurn (n.submitSession id draws addr handle resp s) := by
  unfold submitSession
  split
  · exact .waits trivial
  · exact .other rfl
  · exact .posts _ _ trivial
  · split
    · exact .waits trivial
    · exact .posts _ _ trivial

theorem plain_submitPaired (addr : String) (s : JoinerSession c) :
    PlainTurn (n.submitPaired sink addr s) := by
  unfold submitPaired
  split
  · exact .other rfl
  · exact ⟨trivial, nofun⟩

variable (n sink id) in
theorem plain_advance (io : Io c) (plain : point.Plain) :
    PlainTurn (n.advance sink id io point) := by
  -- Only a turn that replies or posts writes anything; the others just wait or return.
  cases point with
  | initialLookup msg => exact plain_initialLookup msg
  | initialSession msg handle =>
    exact .withJoiner handle trivial fun s => plain_initialSession io.draws msg handle s
  | initialEvict handle reply => exact .replies plain
  | initialPending invite reply => exact .replies plain
  | completionLookup blob =>
    simp only [advance, completionLookup]
    split
    · exact .waits trivial
    · exact .replies (Reply.plain_conflict _)
  | completionSession blob handle =>
    simp only [advance]
    split
    · exact .waits trivial
    · exact plain_completionSession io.draws blob handle _
  | cancelJoiner => exact .waits trivial
  | cancelPending => exact .replies (Reply.plain_ok _)
  | endInvite => exact .replies (Reply.plain_ok _)
  | createAwait joinerAddr s => exact plain_createAwait io joinerAddr s
  | createInsert s pin => exact .other rfl
  | submitLookup pin =>
    simp only [advance, submitLookup]
    split
    · exact .waits trivial
    · exact .other rfl
  | submitFeed pin handle =>
    exact .withJoiner handle trivial fun s => plain_submitFeed pin handle s
  | submitAwait addr handle =>
    simp only [advance]
    split
    · exact .other rfl
    · exact .waits trivial
  | submitSession addr handle resp =>
    exact .withJoiner handle trivial fun s => plain_submitSession io.draws addr handle resp s
  | submitPaired addr handle =>
    exact .withJoiner handle trivial fun s => plain_submitPaired addr s
  | submitForget addr paired => exact .waits trivial
  | submitForgetPending addr paired => exact .posts _ _ trivial
  | submitAck paired => exact .other rfl
  | failAwait step => exact .waits trivial
  | failForget step => exact .waits trivial
  | failForgetPending step => exact .other rfl
  | returned => exact .waits trivial
  | panicked => exact .waits trivial

end PairingNode

/-! ## Runs -/

variable {sink : TrustSink T} {x : World c T}

def World.Plain (x : World c T) : Prop := ∀ id task, x.tasks id = some task → task.point.Plain

theorem World.Plain.put (plain : x.Plain) {id : CallId} {call : Call} {turn : PairingNode.Turn c T}
    (turns : PairingNode.PlainTurn turn) : World.Plain (x.put id call turn) := by
  intro other task found
  rcases put_tasks found with ⟨-, rfl⟩ | ⟨-, before⟩
  · exact turns.point
  · exact plain other task before

theorem plain_step (plain : x.Plain) (event : NodeEvent c) :
    World.Plain (nodeStep c sink x event).1 ∧ ∀ seen reply,
      (nodeStep c sink x event).2 = some seen → seen.returned = some (.replied reply) →
        reply.Plain := by
  rcases step_cases (pairing c sink) x event with idle | ⟨serial, call, rfl, -, started⟩ |
    ⟨id, io, task, rfl, found, advanced⟩
  · rw [nodeStep, idle]
    refine ⟨plain, fun seen reply same => ?_⟩
    cases same
  · have turns := PairingNode.plain_start (n := x.shared) call
    rw [nodeStep, started]
    refine ⟨plain.put turns, fun seen reply same returned => ?_⟩
    cases same
    exact turns.returned reply returned
  · have turns := PairingNode.plain_advance x.shared sink id io (plain id task found)
    rw [nodeStep, advanced]
    refine ⟨plain.put turns, fun seen reply same returned => ?_⟩
    cases same
    exact turns.returned reply returned

theorem run_admitted (j : JsonCrate F) (sink : TrustSink T) (x : World c T)
    (events : List (WireEvent c)) : run (wireStep j sink) x events =
      run (nodeStep c sink) x (events.filterMap fun event => (event.admitted j).toOption) := by
  induction events generalizing x with
  | nil => rfl
  | cons event events ih =>
    rw [run, ih]
    cases admitted : event.admitted j with
    | error response => simp [wireStep, admitted, Except.toOption]
    | ok event => simp [wireStep, admitted, Except.toOption, run]

variable (c T) in
abbrev WireStep := Entry (World c T) (WireEvent c) (Option ServerResponse)

/-- A request that the server answers by itself: the endpoint is as it was, and
the client has an error. -/
def Refused (j : JsonCrate F) (e : WireStep c T) (response : ServerResponse) : Prop :=
  (∃ serial sent, e.input = .request serial sent ∧ receiveRequest j sent = .error response) ∧
    e.after = e.before ∧
    ∃ status body, postPairing j (.ok response) = .error (.answered status body)

def Replied (j : JsonCrate F) (sink : TrustSink T) (e : WireStep c T) (response : ServerResponse) :
    Prop :=
  ∃ event seen reply, e.input.admitted j = .ok event ∧
    nodeStep c sink e.before event = (e.after, some seen) ∧
    seen.returned = some (.replied reply) ∧
    postPairing j (.ok response) = reply.posted.mapError fun _ => reply.failure j

theorem receiveRequest_error {sent : ServerRequest} {response : ServerResponse}
    (refused : receiveRequest j sent = .error response) :
    ∃ status body, readResponse j response = .error (.answered status body) := by
  unfold receiveRequest at refused
  split at refused
  · cases refused
    exact ⟨404, _, rfl⟩
  split at refused
  · cases refused
    exact ⟨405, _, rfl⟩
  split at refused
  · cases refused
    exact ⟨400, _, rfl⟩
  split at refused
  · cases refused
    exact ⟨400, _, rfl⟩
  · cases refused

theorem wireStep_response (lawful : j.Lawful) (plain : x.Plain) (event : WireEvent c)
    {response : ServerResponse}
    (sent : (entry (wireStep j sink) x event).output = some response) :
    Refused j (entry (wireStep j sink) x event) response ∨
      Replied j sink (entry (wireStep j sink) x event) response := by
  rw [entry_output, wireStep] at sent
  cases admitted : event.admitted j with
  | error refusal =>
    -- What `handle` cannot read it answers by itself: no turn is taken.
    left
    rw [admitted] at sent
    cases sent
    have same : (entry (wireStep j sink) x event).after = x := by
      simp only [entry_after, wireStep, admitted]
    cases event with
    | request serial sent =>
      have refused : receiveRequest j sent = .error response := by
        cases received : receiveRequest j sent with
        | error other =>
          simp only [WireEvent.admitted, received, Except.map, Except.error.injEq] at admitted
          rw [admitted]
        | ok env => simp only [WireEvent.admitted, received, Except.map, reduceCtorEq] at admitted
      exact ⟨⟨serial, sent, rfl, refused⟩, same, receiveRequest_error refused⟩
    | call serial own => cases admitted
    | resume id io => cases admitted
  | ok passed =>
    -- A reply of the node, encoded after its turn.
    right
    rw [admitted] at sent
    obtain ⟨seen, observed, returned⟩ := Option.bind_eq_some_iff.mp sent
    have turned : nodeStep c sink x passed =
        ((entry (wireStep j sink) x event).after, some seen) := by
      have after : (entry (wireStep j sink) x event).after = (nodeStep c sink x passed).1 := by
        simp only [entry_after, wireStep, admitted]
      rw [after, ← observed]
    unfold Observed.response at returned
    split at returned
    · next reply replied =>
      cases returned
      have plain := (plain_step plain passed).2 seen reply observed replied
      exact ⟨passed, seen, reply, admitted, turned, replied, readResponse_response lawful plain⟩
    · cases returned

/-- The server adds nothing to the endpoint. An envelope that is posted is the one
that is passed on; a run behind the server is the run of the requests that were
passed on; and of every response the client reads the endpoint's reply, an
explicit refusal as one, or an error where the request was not passed on, which
changes nothing. -/
theorem server_refines_endpoint (lawful : j.Lawful) (sink : TrustSink T) (profile : NodeProfile)
    (trust : T) (events : List (WireEvent c)) :
    (∀ serial env, (WireEvent.request (c := c) serial (postRequest j env)).admitted j =
        .ok (.call serial (.request env))) ∧
      run (wireStep j sink) (World.fresh c profile trust) events =
        run (nodeStep c sink) (World.fresh c profile trust)
          (events.filterMap fun event => (event.admitted j).toOption) ∧
      ∀ e ∈ trace (wireStep j sink) (World.fresh c profile trust) events, ∀ response,
        e.output = some response → Refused j e response ∨ Replied j sink e response := by
  refine ⟨fun serial env => ?_, run_admitted j sink _ events, fun e member response sent => ?_⟩
  · simp only [WireEvent.admitted, receiveRequest_postRequest lawful, Except.map]
  · obtain ⟨first, event, rest, -, rfl⟩ := mem_trace _ member
    have plain : World.Plain (run (wireStep j sink) (World.fresh c profile trust) first) := by
      refine run_invariant _ (fun x event plain => ?_) (fun id task found => by cases found) first
      unfold wireStep
      split
      · exact plain
      · exact (plain_step plain _).1
    exact wireStep_response lawful plain event sent

end

namespace Reference

def wireEvents : List (WireEvent crates) :=
  [.request 0 ⟨"GET", "/", none⟩,
    .request 1 (postRequest jsonCrate (.signal "inv-1" Phase.ack ""))]

end Reference

/-- The joiner refuses the one and answers the other. -/
theorem server_refines_endpoint_joiner :
    run (wireStep Reference.jsonCrate Reference.keeping) Reference.joinerNode
        Reference.wireEvents =
      run (nodeStep Reference.crates Reference.keeping) Reference.joinerNode
        [.call 1 (.request (.signal "inv-1" Phase.ack ""))] := by
  have refined := server_refines_endpoint Reference.jsonCrate_lawful Reference.keeping
    Reference.joinerProfile [] Reference.wireEvents
  have admitted := refined.1 1 (.signal "inv-1" Phase.ack "")
  have refused : (WireEvent.request (c := Reference.crates) 0 ⟨"GET", "/", none⟩).admitted
      Reference.jsonCrate = .error (textResponse 404 "not found") := rfl
  have passed : Reference.wireEvents.filterMap (fun event =>
      (event.admitted Reference.jsonCrate).toOption) =
        [.call 1 (.request (.signal "inv-1" Phase.ack ""))] := by
    simp [Reference.wireEvents, refused, admitted, Except.toOption]
  rw [← passed]
  exact refined.2.1

end OpenPair
