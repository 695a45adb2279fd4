import OpenPair.Daemon.Effects

/-! Pairing from one dashboard to another (`pair-ui`): what a success of `pair` means
for the two nodes, whatever else both do meanwhile.
-/

set_option autoImplicit false

namespace OpenPair

open Tasks Transition

namespace Daemon

/-! ## The dashboard -/

inductive UiRoute where
  | index
  | status
  | cert
  | addCert
  | pair
  | pendingInvites
  | invite
  | respond
  | notFound
  deriving DecidableEq

def uiRoute (method path : String) : UiRoute :=
  match method, path with
  | "GET", "/" => .index
  | "GET", "/api/status" => .status
  | "GET", "/api/identity/cert" => .cert
  | "POST", "/api/trust/add" => .addCert
  | "POST", "/api/trust/pair" => .pair
  | "GET", "/api/pairing/pending" => .pendingInvites
  | "POST", "/api/pairing/invite" => .invite
  | "POST", "/api/pairing/respond" => .respond
  | _, _ => .notFound

/-- What a dashboard sends: its page, and the outcome of a call. -/
structure UiServer where
  indexHtml : Bytes
  writeReply : Except String UiReply → Bytes

/-- A node with a dashboard, by an identity whose certificate names it. -/
structure Console (c : Crates) where
  nodeId : String
  certPem : String
  certDer : Bytes
  ingressPort : UInt16
  decoded : pemCertToDer certPem = some certDer
  named : nodeUuidFromCert c certDer = some nodeId

variable {c : Crates} (ui : UiCrates) (server : UiServer)

def Console.setup (console : Console c) : Setup where
  crates := c
  ui := ui
  nodeId := console.nodeId
  certPem := console.certPem

def Console.status (console : Console c) : Status where
  nodeUuid := console.nodeId
  ingressPort := console.ingressPort

/-- The answer to a call that ends in its first turn; the other routes have tasks of their own. -/
def Console.answer (console : Console c) (t : Tables) (call : HttpCall) :
    Option (Tables × UInt16 × Bytes) :=
  match uiRoute call.method call.path with
  | .index => some (t, 200, server.indexHtml)
  | .status => some (t, 200, ui.writeStatus console.status)
  | .cert => some (t, 200, utf8 console.certPem)
  | .addCert =>
    let turn := Daemon.addCert (console.setup ui) t call.body
    turn.seen.returned.map fun result => (turn.shared, 200, server.writeReply result)
  | .notFound => some (t, 404, utf8 "not found")
  | .pair | .pendingInvites | .invite | .respond => none

/-! ## Two nodes -/

/-- The near node calls the far one. A task's call is in flight until the task is
resumed, with the response to it once the call has arrived. -/
structure Joint where
  near : State
  far : State
  flight : TaskId → Option HttpCall := fun _ => none
  replies : TaskId → Option (UInt16 × Bytes) := fun _ => none

inductive JointEvent where
  | near (event : Event)
  | far (event : Event)
  | arrives (id : TaskId)

/-- The two nodes, and where the far one's dashboard is. -/
structure Link (c : Crates) where
  near : Console c
  far : Console c
  host : String
  port : UInt16

namespace Link

variable (l : Link c)

/-- The call to the far node that a task awaits the response to. -/
def awaited (x : Joint) (id : TaskId) : Option HttpCall :=
  (x.flight id).filter fun call => call.host == l.host && call.port == l.port

def responded (x : Joint) : Event → Event
  | .call serial call => .call serial call
  | .resume id io =>
    match l.awaited x id with
    | none => .resume id io
    | some _ =>
      match x.replies id with
      | none => .resume id { io with response := .error "no response" }
      | some reply => .resume id { io with response := io.response.map fun _ => reply }

def replaced {α : Type} (held : TaskId → Option α) (id : TaskId) (next : Observed → Option α) :
    Option Observed → TaskId → Option α
  | some seen => Function.update held id (next seen)
  | none => held

/-- A turn of the near node, with the calls it has in flight. -/
def turn (x : Joint) (event : Event) : Joint × Option Observed :=
  let stepped := (program (l.near.setup ui)).step x.near event
  let id := (program (l.near.setup ui)).id event
  ({ x with
      near := stepped.1
      flight := replaced x.flight id Observed.sent stepped.2
      replies := replaced x.replies id (fun _ => none) stepped.2 }, stepped.2)

def arrive (x : Joint) (id : TaskId) : Joint :=
  match l.awaited x id, x.replies id with
  | some call, none =>
    match l.far.answer ui server x.far.shared call with
    | some (t, reply) =>
      { x with
        far := { x.far with shared := t }
        replies := Function.update x.replies id (some reply) }
    | none => x
  | _, _ => x

def step (x : Joint) : JointEvent → Joint × Option Observed
  | .near event => l.turn ui x (l.responded x event)
  | .far event => ({ x with far := ((program (l.far.setup ui)).step x.far event).1 }, none)
  | .arrives id => (l.arrive ui server x id, none)

abbrev Step := Entry Joint JointEvent (Option Observed)

def Targets (body : Bytes) : Prop :=
  ∃ url path, ui.readPeer body = .ok (some url) ∧ parseUrl url = .ok (l.host, l.port, path)

def call (method path : String) (body : Bytes) : HttpCall := ⟨l.host, l.port, method, path, body⟩

/-- The far node's certificate is pinned by the near one. -/
def NearPins (x : Joint) : Prop := x.near.shared.pins.cert l.far.nodeId = some l.far.certDer

/-- The near node's certificate is pinned by the far one. -/
def FarPins (x : Joint) : Prop := x.far.shared.pins.cert l.near.nodeId = some l.near.certDer

/-- How far a pairing with the far node has come. -/
def Progress (history : List Step) (x : Joint) (id : TaskId) : Point → Prop
  | .pairStatus host port =>
    host = l.host ∧ port = l.port ∧ x.flight id = some (l.call "GET" "/api/status" [])
  | .pairCert host port nodeUuid ingressPort =>
    host = l.host ∧ port = l.port ∧ nodeUuid = l.far.nodeId ∧ ingressPort = l.far.ingressPort ∧
      x.flight id = some (l.call "GET" "/api/identity/cert" [])
  | .pairPush host nodeUuid ingressPort =>
    host = l.host ∧ nodeUuid = l.far.nodeId ∧ ingressPort = l.far.ingressPort ∧
      x.flight id = some (l.call "POST" "/api/trust/add" (utf8 l.near.certPem)) ∧
      ∃ e ∈ history, l.NearPins e.after
  | _ => True

/-- Every reply is the far node's answer to the call, as it was at an earlier step. -/
def Replied (history : List Step) (x : Joint) : Prop :=
  ∀ id call reply, x.flight id = some call → x.replies id = some reply →
    ∃ e ∈ history, ∃ t, l.far.answer ui server t call = some (e.after.far.shared, reply)

structure Underway (history : List Step) (x : Joint) : Prop where
  replied : l.Replied ui server history x
  progress : ∀ id task body, x.near.tasks id = some task → task.call = .pair body →
    l.Targets ui body → l.Progress history x id task.point

section

variable {ui server} {l : Link c} {history : List Step} {x : Joint} {t : Tables} {id : TaskId}

/-! ## Responses -/

/-- What a resumed task is given for a call to the far node is an answer of the far node. -/
def Answered (l : Link c) (ui : UiCrates) (server : UiServer) (history : List Step) (x : Joint)
    (id : TaskId) (io : Io) : Prop :=
  ∀ method path body response, x.flight id = some (l.call method path body) →
    io.response = .ok response → ∃ e ∈ history, ∃ t,
      l.far.answer ui server t (l.call method path body) = some (e.after.far.shared, response)

/-- A turn of a pairing with the far node. -/
def Advances (l : Link c) (turn : Turn) : Prop :=
  match turn.point with
  | .pairStatus host port =>
    host = l.host ∧ port = l.port ∧ turn.seen.sent = some (l.call "GET" "/api/status" [])
  | .pairCert host port nodeUuid ingressPort =>
    host = l.host ∧ port = l.port ∧ nodeUuid = l.far.nodeId ∧ ingressPort = l.far.ingressPort ∧
      turn.seen.sent = some (l.call "GET" "/api/identity/cert" [])
  | .pairPush host nodeUuid ingressPort =>
    host = l.host ∧ nodeUuid = l.far.nodeId ∧ ingressPort = l.far.ingressPort ∧
      turn.seen.sent = some (l.call "POST" "/api/trust/add" (utf8 l.near.certPem)) ∧
      turn.shared.pins.cert l.far.nodeId = some l.far.certDer
  | _ => True

theorem pair_targets {body : Bytes} (targets : l.Targets ui body) :
    pair (l.near.setup ui) t body =
      sends t (l.call "GET" "/api/status" []) (.pairStatus l.host l.port) := by
  obtain ⟨url, path, read, parsed⟩ := targets
  have peer : (l.near.setup ui).ui.readPeer body = .ok (some url) := read
  simp only [pair, peer, parsed, call]

theorem pairStatus_own (lawful : ui.Lawful) (host : String) (port code : UInt16) :
    pairStatus (l.near.setup ui) t host port (.ok (code, ui.writeStatus l.far.status)) =
      sends t ⟨host, port, "GET", "/api/identity/cert", []⟩
        (.pairCert host port l.far.nodeId l.far.ingressPort) := by
  have read : (l.near.setup ui).ui.readStatus (ui.writeStatus l.far.status) =
      .ok ⟨some l.far.nodeId, some l.far.ingressPort.toUInt64⟩ :=
    lawful.readStatus_writeStatus l.far.status
  simp only [pairStatus, read, Option.getD_some, UInt16.toUInt16_toUInt64]

variable (l ui t) in
theorem pairCert_own (host : String) (port code ingressPort : UInt16) (nodeUuid : String) :
    ∃ t', pairCert (l.near.setup ui) t host port nodeUuid ingressPort
        (.ok (code, utf8 l.far.certPem)) =
        sends t' ⟨host, port, "POST", "/api/trust/add", utf8 l.near.certPem⟩
          (.pairPush host nodeUuid ingressPort) ∧
      t'.pins.cert l.far.nodeId = some l.far.certDer ∧ t'.routing = t.routing := by
  have pinned : t.pins.pin c l.far.certDer = _ := PeerPinStore.pin_ok l.far.named
  have crates : (l.near.setup ui).crates = c := rfl
  simp only [pairCert, fromUtf8Lossy_utf8, l.far.decoded, crates, pinned]
  exact ⟨_, rfl, (PeerPinStore.cert_insert _).trans (if_pos rfl), rfl⟩

variable (l ui server) in
theorem answer_status (t : Tables) : l.far.answer ui server t (l.call "GET" "/api/status" []) =
    some (t, 200, ui.writeStatus l.far.status) := rfl

variable (l ui server) in
theorem answer_cert (t : Tables) : l.far.answer ui server t (l.call "GET" "/api/identity/cert" []) =
    some (t, 200, utf8 l.far.certPem) := rfl

variable (l ui server) in
theorem answer_addCert (t : Tables) : ∃ t' bytes,
    l.far.answer ui server t (l.call "POST" "/api/trust/add" (utf8 l.near.certPem)) =
        some (t', 200, bytes) ∧
      t'.pins.cert l.near.nodeId = some l.near.certDer := by
  have route : uiRoute "POST" "/api/trust/add" = .addCert := rfl
  have pinned : t.pins.pin c l.near.certDer = _ := PeerPinStore.pin_ok l.near.named
  have crates : (l.far.setup ui).crates = c := rfl
  simp only [Console.answer, call, route, Daemon.addCert, fromUtf8Lossy_utf8, l.near.decoded, crates,
    pinned, returns, Option.map_some]
  exact ⟨_, _, rfl, (PeerPinStore.cert_insert _).trans (if_pos rfl)⟩

theorem replaced_other {α : Type} {held : TaskId → Option α} {next : Observed → Option α}
    {other : TaskId} (differs : id ≠ other) (seen : Option Observed) :
    replaced held other next seen id = held id := by
  cases seen with
  | none => rfl
  | some seen => exact Function.update_of_ne differs _ _

/-! ## Progress -/

theorem Progress.later {point : Point} {e : Step} {x' : Joint}
    (progress : l.Progress history x id point) (same : x'.flight id = x.flight id) :
    l.Progress (history ++ [e]) x' id point := by
  cases point with
  | pairStatus host port => exact ⟨progress.1, progress.2.1, same.trans progress.2.2⟩
  | pairCert host port nodeUuid ingressPort =>
    obtain ⟨rfl, rfl, rfl, rfl, flight⟩ := progress
    exact ⟨rfl, rfl, rfl, rfl, same.trans flight⟩
  | pairPush host nodeUuid ingressPort =>
    obtain ⟨rfl, rfl, rfl, flight, f, member, pinned⟩ := progress
    exact ⟨rfl, rfl, rfl, same.trans flight, f, List.mem_append_left _ member, pinned⟩
  | _ => trivial

theorem Progress.of_advances {turn : Turn} {e : Step} {x' : Joint} (advances : l.Advances turn)
    (flight : x'.flight id = turn.seen.sent) (after : e.after.near.shared = turn.shared) :
    l.Progress (history ++ [e]) x' id turn.point := by
  unfold Advances at advances
  cases point : turn.point with
  | pairStatus host port =>
    rw [point] at advances
    exact ⟨advances.1, advances.2.1, flight.trans advances.2.2⟩
  | pairCert host port nodeUuid ingressPort =>
    rw [point] at advances
    obtain ⟨rfl, rfl, rfl, rfl, sent⟩ := advances
    exact ⟨rfl, rfl, rfl, rfl, flight.trans sent⟩
  | pairPush host nodeUuid ingressPort =>
    rw [point] at advances
    obtain ⟨rfl, rfl, rfl, sent, pinned⟩ := advances
    refine ⟨rfl, rfl, rfl, flight.trans sent, e, by simp, ?_⟩
    rw [NearPins, after]
    exact pinned
  | _ => trivial

theorem advances_advance (lawful : ui.Lawful) {io : Io} {point : Point}
    (progress : l.Progress history x id point)
    (answered : l.Answered ui server history x id io) :
    l.Advances (advance (l.near.setup ui) t io point) := by
  -- Only `pair` has calls in flight, and an answer was computed by the far node at some earlier
  -- step; the tables it came from may have changed since.
  cases point with
  | pairStatus host port =>
    obtain ⟨rfl, rfl, flight⟩ := progress
    cases response : io.response with
    | error e =>
      simp only [advance, response, pairStatus]
      trivial
    | ok reply =>
      obtain ⟨e, -, t, found⟩ := answered _ _ _ _ flight response
      cases (answer_status ui server l t).symm.trans found
      simp only [advance, response, pairStatus_own lawful]
      exact ⟨rfl, rfl, rfl, rfl, rfl⟩
  | pairCert host port nodeUuid ingressPort =>
    obtain ⟨rfl, rfl, rfl, rfl, flight⟩ := progress
    cases response : io.response with
    | error e =>
      simp only [advance, response, pairCert]
      trivial
    | ok reply =>
      obtain ⟨e, -, before, found⟩ := answered _ _ _ _ flight response
      cases (answer_cert ui server l before).symm.trans found
      obtain ⟨t', sent, pinned, -⟩ := pairCert_own ui l t l.host l.port 200
        l.far.ingressPort l.far.nodeId
      simp only [advance, response, sent]
      exact ⟨rfl, rfl, rfl, rfl, pinned⟩
  | pairPush host nodeUuid ingressPort =>
    simp only [advance, pairPush]
    split
    · trivial
    · split <;> trivial
  | receive =>
    simp only [advance, receive]
    split <;> trivial
  | listPeers =>
    simp only [advance]
    cases t.routing.pinnedPeers <;> trivial
  | fetchModels peers =>
    simp only [advance, learnModels]
    split
    · trivial
    · next peer rest =>
      split
      · cases rest <;> trivial
      · cases rest <;> trivial
  | fetchLocal =>
    simp only [advance, learnLocal]
    split <;> trivial
  | found nodeUuid host port pinned => trivial
  | returned => trivial

theorem awaited_call {method path : String} {body : Bytes}
    (flight : x.flight id = some (l.call method path body)) :
    l.awaited x id = some (l.call method path body) := by
  simp [awaited, flight, call]

theorem answered_responded (replied : l.Replied ui server history x) {event : Event} {io : Io}
    (given : l.responded x event = .resume id io) : l.Answered ui server history x id io := by
  intro method path body response flight ok
  cases event with
  | call serial call => cases given
  | resume id' io' =>
    simp only [responded] at given
    cases awaits : l.awaited x id' with
    | none =>
      rw [awaits] at given
      cases given
      rw [awaited_call flight] at awaits
      cases awaits
    | some sent =>
      rw [awaits] at given
      cases waiting : x.replies id' with
      | none =>
        rw [waiting] at given
        cases given
        cases ok
      | some reply =>
        rw [waiting] at given
        cases given
        cases result : io'.response with
        | error e =>
          rw [result] at ok
          cases ok
        | ok received =>
          rw [result] at ok
          cases ok
          exact replied _ _ _ flight waiting

theorem progress_turn (lawful : ui.Lawful) {event : Event} {e : Step}
    (underway : l.Underway ui server history x)
    (answered : ∀ id io, event = .resume id io → l.Answered ui server history x id io)
    (after : e.after = (l.turn ui x event).1) {task : Tasks.Task Call Point} {body : Bytes}
    (found : (l.turn ui x event).1.near.tasks id = some task) (called : task.call = .pair body)
    (targets : l.Targets ui body) :
    l.Progress (history ++ [e]) (l.turn ui x event).1 id task.point := by
  unfold turn at found after ⊢
  dsimp only at found after ⊢
  by_cases mine : id = (program (l.near.setup ui)).id event
  · rcases step_cases (program (l.near.setup ui)) x.near event with idle |
      ⟨serial, call, rfl, -, started⟩ | ⟨turn, io, before, rfl, waiting, advanced⟩
    · rw [idle] at found ⊢
      exact (underway.progress id task body found called targets).later rfl
    · rw [started, mine] at found
      cases (put_self _ _ _).symm.trans found
      cases called
      have advances : l.Advances (start (l.near.setup ui) x.near.shared (.pair body)) := by
        simp only [Daemon.start, pair_targets targets]
        exact ⟨rfl, rfl, rfl⟩
      refine Progress.of_advances advances ?_ ?_
      · rw [started, mine]
        exact Function.update_self _ _ _
      · rw [after, started]
        rfl
    · rw [advanced, mine] at found
      cases (put_self _ _ _).symm.trans found
      have progress := underway.progress turn before body waiting called targets
      have advances := advances_advance (t := x.near.shared) lawful progress (answered turn io rfl)
      refine Progress.of_advances advances ?_ ?_
      · rw [advanced, mine]
        exact Function.update_self _ _ _
      · rw [after, advanced]
        rfl
  · rw [step_tasks_other mine] at found
    exact (underway.progress id task body found called targets).later (replaced_other mine _)

theorem replied_turn {event : Event} {e : Step} (replied : l.Replied ui server history x) :
    l.Replied ui server (history ++ [e]) (l.turn ui x event).1 := by
  intro id call reply flight waiting
  by_cases mine : id = (program (l.near.setup ui)).id event
  · unfold turn at flight waiting
    dsimp only at flight waiting
    cases seen : ((program (l.near.setup ui)).step x.near event).2 with
    | none =>
      rw [seen] at flight waiting
      obtain ⟨f, member, t, answered⟩ := replied id call reply flight waiting
      exact ⟨f, List.mem_append_left _ member, t, answered⟩
    | some output =>
      rw [seen, mine] at waiting
      cases (Function.update_self _ _ _).symm.trans waiting
  · obtain ⟨f, member, t, answered⟩ := replied id call reply
      ((replaced_other mine _).symm.trans flight) ((replaced_other mine _).symm.trans waiting)
    exact ⟨f, List.mem_append_left _ member, t, answered⟩

theorem Replied.later {e : Step} {x' : Joint} (replied : l.Replied ui server history x)
    (flight : x'.flight = x.flight) (replies : x'.replies = x.replies) :
    l.Replied ui server (history ++ [e]) x' := by
  intro id call reply sent waiting
  obtain ⟨f, member, t, answered⟩ := replied id call reply ((congrFun flight id).symm.trans sent)
    ((congrFun replies id).symm.trans waiting)
  exact ⟨f, List.mem_append_left _ member, t, answered⟩

variable (l ui server) in
theorem arrive_cases (x : Joint) (id : TaskId) : l.arrive ui server x id = x ∨
    ∃ call t reply, x.flight id = some call ∧ l.far.answer ui server x.far.shared call = some (t, reply) ∧
      l.arrive ui server x id = { x with
        far := { x.far with shared := t }
        replies := Function.update x.replies id (some reply) } := by
  unfold arrive
  split
  · next call awaits waiting =>
    split
    · next t reply answered =>
      exact .inr ⟨call, t, reply, (Option.filter_eq_some_iff.mp awaits).1, answered, rfl⟩
    · exact .inl rfl
  · exact .inl rfl

theorem underway_arrive {e : Step} (underway : l.Underway ui server history x)
    (after : e.after = l.arrive ui server x id) :
    l.Underway ui server (history ++ [e]) (l.arrive ui server x id) := by
  rcases arrive_cases ui server l x id with same |
    ⟨call, t, reply, flight, answered, arrived⟩
  · rw [same]
    exact ⟨underway.replied.later rfl rfl, fun id task body found called targets =>
      (underway.progress id task body found called targets).later rfl⟩
  · rw [arrived] at after ⊢
    refine ⟨?_, fun id task body found called targets =>
      (underway.progress id task body found called targets).later rfl⟩
    intro other sent reply' inFlight waiting
    by_cases mine : other = id
    · rw [mine] at inFlight waiting
      cases flight.symm.trans inFlight
      cases (Function.update_self _ _ _).symm.trans waiting
      exact ⟨e, by simp, x.far.shared, by rw [after]; exact answered⟩
    · obtain ⟨f, member, t, answered⟩ := underway.replied other sent reply' inFlight
        ((Function.update_of_ne mine _ _).symm.trans waiting)
      exact ⟨f, List.mem_append_left _ member, t, answered⟩

/-! ## Runs -/

theorem underway_step (lawful : ui.Lawful) (history : List Step) (x : Joint) (input : JointEvent)
    (underway : l.Underway ui server history x) :
    l.Underway ui server (history ++ [entry (l.step ui server) x input])
      (l.step ui server x input).1 := by
  cases input with
  | near event =>
    refine ⟨replied_turn underway.replied, fun id task body found called targets => ?_⟩
    exact progress_turn lawful underway (fun id io given => answered_responded underway.replied given)
      rfl found called targets
  | far event => exact ⟨underway.replied.later rfl rfl, fun id task body found called targets =>
      (underway.progress id task body found called targets).later rfl⟩
  | arrives id => exact underway_arrive underway rfl

/-- A `pair` with the body returns success in the step. -/
def Succeeds (e : Step) (body : Bytes) (nodeUuid : String) (ingressPort : UInt16) : Prop :=
  ∃ id io task seen, e.input = .near (.resume id io) ∧ e.before.near.tasks id = some task ∧
    task.call = .pair body ∧ e.output = some seen ∧
    seen.returned = some (.ok (.paired nodeUuid ingressPort))

/-- What a pairing that returns success has done at both nodes. -/
structure Mutual (l : Link c) (history : List Step) (e : Step) (nodeUuid : String)
    (ingressPort : UInt16) : Prop where
  named : nodeUuid = l.far.nodeId
  port : ingressPort = l.far.ingressPort
  near : ∃ f ∈ history, l.NearPins f.after
  far : ∃ f ∈ history, l.FarPins f.after
  routed : l.far.ingressPort ≠ 0 →
    ∃ peer, e.after.near.shared.routing.peers.lookup l.far.nodeId = some peer ∧
      peer.host = l.host ∧ peer.ingressPort = l.far.ingressPort ∧ peer.pinned = true

/-- Only the answer to its certificate lets a `pair` return success. -/
theorem advance_paired {d : Setup} {io : Io} {point : Point} {nodeUuid : String}
    {ingressPort : UInt16} (success : (advance d t io point).seen.returned =
      some (.ok (.paired nodeUuid ingressPort))) :
    ∃ host reply, point = .pairPush host nodeUuid ingressPort ∧ io.response = .ok reply ∧
      (ingressPort ≠ 0 → (advance d t io point).shared.routing =
        t.routing.upsertPeerMeta nodeUuid host ingressPort true) := by
  -- The push is the last of the three calls, so no other turn returns a peer.
  cases point with
  | pairPush host uuid port =>
    simp only [advance, pairPush] at success ⊢
    cases given : io.response with
    | error e =>
      rw [given] at success
      cases success
    | ok reply =>
      obtain ⟨code, bytes⟩ := reply
      rw [given] at success
      dsimp only at success ⊢
      split at success
      · cases success
      · next accepted =>
        cases success
        refine ⟨host, _, rfl, rfl, fun known => ?_⟩
        rw [if_neg accepted]
        simp only [returns, if_pos known]
  | receive =>
    simp only [advance, receive] at success
    split at success <;> cases success
  | listPeers =>
    simp only [advance] at success
    cases peers : t.routing.pinnedPeers with
    | nil =>
      rw [peers] at success
      cases success
    | cons peer rest =>
      rw [peers] at success
      cases success
  | fetchModels peers =>
    simp only [advance, learnModels] at success
    split at success
    · cases success
    · next peer rest =>
      split at success <;> cases rest <;> cases success
  | fetchLocal =>
    simp only [advance, learnLocal] at success
    split at success <;> cases success
  | pairStatus host port =>
    simp only [advance, pairStatus] at success
    split at success
    · cases success
    · split at success <;> cases success
  | pairCert host port uuid port' =>
    simp only [advance, pairCert] at success
    split at success
    · cases success
    · split at success
      · cases success
      · split at success <;> cases success
  | found nodeUuid host port pinned => cases success
  | returned => cases success

theorem lookup_paired (table : RoutingTable) (nodeId host : String) (ingressPort : UInt16) :
    ∃ peer, (table.upsertPeerMeta nodeId host ingressPort true).peers.lookup nodeId = some peer ∧
      peer.host = host ∧ peer.ingressPort = ingressPort ∧ peer.pinned = true := by
  unfold RoutingTable.upsertPeerMeta
  cases table.peers.lookup nodeId with
  | none => exact ⟨_, AList.lookup_insert _, rfl, rfl, rfl⟩
  | some before => exact ⟨_, AList.lookup_insert _, rfl, rfl, rfl⟩

variable (l) in
theorem responded_resume (x : Joint) (id : TaskId) (io : Io) :
    ∃ io', l.responded x (.resume id io) = .resume id io' := by
  simp only [responded]
  cases l.awaited x id with
  | none => exact ⟨_, rfl⟩
  | some call => cases x.replies id <;> exact ⟨_, rfl⟩

theorem mutual_of_success {input : JointEvent} {body : Bytes} {nodeUuid : String}
    {ingressPort : UInt16} (underway : l.Underway ui server history x) (targets : l.Targets ui body)
    (success : Succeeds (entry (l.step ui server) x input) body nodeUuid ingressPort) :
    l.Mutual history (entry (l.step ui server) x input) nodeUuid ingressPort := by
  obtain ⟨id, io, task, seen, rfl, waiting, called, output, returned⟩ := success
  obtain ⟨io', given⟩ := responded_resume l x id io
  have stepped : l.step ui server x (.near (.resume id io)) = l.turn ui x (.resume id io') :=
    congrArg (l.turn ui x) given
  have turned : (program (l.near.setup ui)).step x.near (.resume id io') =
      (x.near.put id task.call (advance (l.near.setup ui) x.near.shared io' task.point),
        some (advance (l.near.setup ui) x.near.shared io' task.point).seen) :=
    step_resume waiting
  rw [entry_output, stepped, turn, turned] at output
  cases output
  obtain ⟨host, reply, point, response, routed⟩ := advance_paired returned
  have progress := underway.progress id task body waiting called targets
  rw [point] at progress
  obtain ⟨rfl, rfl, rfl, flight, pinned⟩ := progress
  obtain ⟨f, member, t, answered⟩ := answered_responded underway.replied given _ _ _ _ flight response
  obtain ⟨t', bytes, taken, farPins⟩ := answer_addCert ui server l t
  cases taken.symm.trans answered
  refine ⟨rfl, rfl, pinned, ⟨f, member, farPins⟩, fun known => ?_⟩
  rw [entry_after, stepped, turn, turned]
  show ∃ peer, (advance (l.near.setup ui) x.near.shared io' task.point).shared.routing.peers.lookup
    l.far.nodeId = some peer ∧ _
  rw [routed known]
  exact lookup_paired _ _ _ _

def start (l : Link c) (ui : UiCrates) (near far : ClusterTrustSink) : Joint where
  near := fresh (l.near.setup ui) near
  far := fresh (l.far.setup ui) far

theorem underway_start (near far : ClusterTrustSink) :
    l.Underway ui server [] (l.start ui near far) where
  replied id call reply flight _ := by cases flight
  progress id task body found _ _ := by cases found

variable (server) in
/-- A pairing from a dashboard that returns success has been mutual: each node has
pinned the certificate that the other goes by, and the peer is routed to at the
host it was reached at and the port it serves, whatever else the two nodes did
and whichever calls were lost. -/
theorem dashboard_pairing_mutual (l : Link c) (lawful : ui.Lawful) (near far : ClusterTrustSink)
    (inputs : List JointEvent) :
    EveryStep (fun history e => ∀ body nodeUuid ingressPort, l.Targets ui body →
        Succeeds e body nodeUuid ingressPort → l.Mutual history e nodeUuid ingressPort)
      (trace (l.step ui server) (l.start ui near far) inputs) := by
  have every : EveryStep (fun _ _ => True)
      (trace (l.step ui server) (l.start ui near far) inputs) := fun _ _ _ _ => trivial
  refine EveryStep.of_invariant (P := fun history x => l.Underway ui server history x) ?_ ?_
    (underway_start near far) inputs every
  · exact fun history x input underway _ => underway_step lawful history x input underway
  · exact fun history x input underway _ body nodeUuid ingressPort targets success =>
      mutual_of_success underway targets success

/-! ## A pairing that nothing interrupts -/

def exchange (id : TaskId) (io : Io) : List JointEvent :=
  [.arrives id, .near (.resume id io)]

-- A `pair` whose three calls are all answered.
def undisturbed (serial : Nat) (body : Bytes) (io : Io) : List JointEvent :=
  .near (.call serial (.pair body)) ::
    (exchange (.request serial) io ++ (exchange (.request serial) io ++ exchange (.request serial) io))

/-- The near node is as a turn of a pairing has left it. -/
structure Waiting (x : Joint) (id : TaskId) (body : Bytes) (turn : Turn) : Prop where
  task : x.near.tasks id = some ⟨.pair body, turn.point⟩
  shared : x.near.shared = turn.shared
  flight : x.flight id = turn.seen.sent
  replies : x.replies id = none

variable {serial : Nat} {body : Bytes} {io : Io} {turn : Turn}

variable (l ui server body) in
theorem waiting_call (free : x.near.tasks (.request serial) = none) :
    Waiting (l.step ui server x (.near (.call serial (.pair body)))).1 (.request serial) body
      (pair (l.near.setup ui) x.near.shared body) := by
  have started : (program (l.near.setup ui)).step x.near (.call serial (.pair body)) =
      (x.near.put (.request serial) (.pair body) (pair (l.near.setup ui) x.near.shared body),
        some (pair (l.near.setup ui) x.near.shared body).seen) := step_call free
  simp only [step, responded, Link.turn, started]
  exact ⟨put_self _ _ _, rfl, Function.update_self _ _ _, Function.update_self _ _ _⟩

variable (l ui) in
theorem waiting_turn {point : Point} (task : x.near.tasks id = some ⟨.pair body, point⟩) (io : Io) :
    Waiting (l.turn ui x (.resume id io)).1 id body
        (advance (l.near.setup ui) x.near.shared io point) ∧
      (l.turn ui x (.resume id io)).2 =
        some (advance (l.near.setup ui) x.near.shared io point).seen := by
  have turned : (program (l.near.setup ui)).step x.near (.resume id io) =
      (x.near.put id (.pair body) (advance (l.near.setup ui) x.near.shared io point),
        some (advance (l.near.setup ui) x.near.shared io point).seen) := step_resume task
  simp only [Link.turn, turned, and_true]
  exact ⟨put_self _ _ _, rfl, Function.update_self _ _ _, Function.update_self _ _ _⟩

theorem arrive_answered (waiting : Waiting x id body turn) {method path : String} {sent : Bytes}
    (flight : turn.seen.sent = some (l.call method path sent)) {reply : UInt16 × Bytes}
    (answered : l.far.answer ui server x.far.shared (l.call method path sent) = some (t, reply)) :
    l.arrive ui server x id = { x with
      far := { x.far with shared := t }
      replies := Function.update x.replies id (some reply) } := by
  simp only [arrive, awaited_call (waiting.flight.trans flight), waiting.replies, answered]

theorem exchanged (waiting : Waiting x id body turn) {method path : String} {sent : Bytes}
    (flight : turn.seen.sent = some (l.call method path sent)) {reply : UInt16 × Bytes}
    (answered : l.far.answer ui server x.far.shared (l.call method path sent) = some (t, reply))
    {ignored : UInt16 × Bytes} (received : io.response = .ok ignored) {next : Turn}
    (advances : advance (l.near.setup ui) turn.shared { io with response := .ok reply } turn.point =
      next) :
    ∃ first last, trace (l.step ui server) x (exchange id io) = [first, last] ∧
      Waiting (run (l.step ui server) x (exchange id io)) id body next ∧
      last.input = .near (.resume id io) ∧
      last.before.near.tasks id = some ⟨.pair body, turn.point⟩ ∧ last.output = some next.seen ∧
      (run (l.step ui server) x (exchange id io)).far = { x.far with shared := t } := by
  -- The far node answers first, and then the near one resumes with the answer it holds.
  have arrived := arrive_answered waiting flight answered
  have awaits : l.awaited (l.arrive ui server x id) id = _ :=
    awaited_call ((congrArg (Joint.flight · id) arrived).trans (waiting.flight.trans flight))
  have held : (l.arrive ui server x id).replies id = some reply := by
    rw [arrived]
    exact Function.update_self _ _ _
  have given : l.responded (l.arrive ui server x id) (.resume id io) =
      .resume id { io with response := .ok reply } := by
    simp only [responded, awaits, held, received]
    rfl
  have same : (l.arrive ui server x id).near = x.near := by rw [arrived]
  have task : (l.arrive ui server x id).near.tasks id = some ⟨.pair body, turn.point⟩ := by
    rw [same, waiting.task]
  have turned := waiting_turn ui l task { io with response := .ok reply }
  rw [same, waiting.shared, advances] at turned
  have stepped : l.step ui server (l.arrive ui server x id) (.near (.resume id io)) =
      l.turn ui (l.arrive ui server x id) (.resume id { io with response := .ok reply }) :=
    congrArg (l.turn ui _) given
  refine ⟨_, _, rfl, ?_, rfl, task, ?_, ?_⟩
  · show Waiting (l.step ui server (l.arrive ui server x id) (.near (.resume id io))).1 id body next
    rw [stepped]
    exact turned.1
  · show (l.step ui server (l.arrive ui server x id) (.near (.resume id io))).2 = some next.seen
    rw [stepped]
    exact turned.2
  · show (l.step ui server (l.arrive ui server x id) (.near (.resume id io))).1.far = _
    rw [stepped]
    show (l.arrive ui server x id).far = _
    rw [arrived]

theorem pairPush_taken (host nodeUuid : String) (ingressPort : UInt16) (bytes : Bytes) :
    ∃ t', pairPush t host nodeUuid ingressPort (.ok (200, bytes)) =
        returns t' (.ok (.paired nodeUuid ingressPort)) ∧
      t'.pins = t.pins ∧
      (ingressPort ≠ 0 → t'.routing = t.routing.upsertPeerMeta nodeUuid host ingressPort true) := by
  have accepted : ¬ (400 : UInt16) ≤ 200 := by decide
  simp only [pairPush, if_neg accepted]
  exact ⟨_, rfl, rfl, fun known => if_pos known⟩

structure Paired (l : Link c) (x y : Joint) : Prop where
  near : l.NearPins y
  far : l.FarPins y
  routing : l.far.ingressPort ≠ 0 → y.near.shared.routing =
    x.near.shared.routing.upsertPeerMeta l.far.nodeId l.host l.far.ingressPort true

variable (server serial) in
/-- Whatever the two nodes hold, a pairing whose calls are answered returns success
and leaves each node with the other's certificate. -/
theorem undisturbed_succeeds (lawful : ui.Lawful) (targets : l.Targets ui body)
    (free : x.near.tasks (.request serial) = none) {ignored : UInt16 × Bytes}
    (received : io.response = .ok ignored) :
    (∃ before e, trace (l.step ui server) x (undisturbed serial body io) = before ++ [e] ∧
        Succeeds e body l.far.nodeId l.far.ingressPort) ∧
      l.Paired x (run (l.step ui server) x (undisturbed serial body io)) := by
  have asked := waiting_call ui server l body free
  rw [pair_targets targets] at asked
  obtain ⟨a₁, b₁, first, told, -⟩ := exchanged asked rfl (answer_status ui server l _) received
    (pairStatus_own lawful l.host l.port 200)
  obtain ⟨t₁, certified, nearPins, routing⟩ := pairCert_own ui l x.near.shared l.host l.port 200
    l.far.ingressPort l.far.nodeId
  obtain ⟨a₂, b₂, second, given, -⟩ := exchanged told rfl (answer_cert ui server l _) received certified
  obtain ⟨t₂, bytes, taken, farPins⟩ := answer_addCert ui server l _
  obtain ⟨t₃, pushed, pins, routed⟩ :=
    pairPush_taken (t := t₁) l.host l.far.nodeId l.far.ingressPort bytes
  obtain ⟨a₃, b₃, third, ends, input, task, output, far⟩ := exchanged given rfl taken received pushed
  have ran : run (l.step ui server) x (undisturbed serial body io) =
      run (l.step ui server) (run (l.step ui server) (run (l.step ui server)
        (l.step ui server x (.near (.call serial (.pair body)))).1 (exchange (.request serial) io))
        (exchange (.request serial) io)) (exchange (.request serial) io) := by
    rw [undisturbed, run, run_append, run_append]
  constructor
  · refine ⟨entry (l.step ui server) x (.near (.call serial (.pair body))) ::
      [a₁, b₁, a₂, b₂, a₃], b₃, ?_, _, _, _, _, input, task, rfl, output, rfl⟩
    rw [undisturbed, trace, trace_append, trace_append, first, second, third]
    rfl
  · rw [ran]
    constructor
    · rw [NearPins, ends.shared]
      exact (congrArg (PeerPinStore.cert · l.far.nodeId) pins).trans nearPins
    · rw [FarPins, far]
      exact farPins
    · intro known
      rw [ends.shared]
      exact (routed known).trans (by rw [routing])

end

end Link

end Daemon

/-! ## Two reference dashboards -/

namespace Reference

open Daemon

def console (certificate : Certificate) (known : certificate ∈ certificates) : Console crates where
  nodeId := certificate.nodeUuid
  certPem := pem certificate.der
  certDer := certificate.der
  ingressPort := 7443
  decoded := certificate_decoded known
  named := certificate_named known

def link : Link crates where
  near := console inviterCertificate inviter_known
  far := console joinerCertificate joiner_known
  host := "10.0.0.6"
  port := 8080

def uiServer : UiServer := ⟨[], fun _ => []⟩

def pairBody : Bytes := utf8 "\x7b\"peer\":\"http://10.0.0.6:8080\"\x7d"

theorem link_targets : link.Targets uiCrates pairBody := by
  have parsed : parseUrl "http://10.0.0.6:8080" = .ok ("10.0.0.6", 8080, "/") := by decide
  have read : uiCrates.readPeer pairBody = .ok (some "http://10.0.0.6:8080") := by decide
  exact ⟨_, "/", read, parsed⟩

def answeredIo : Daemon.Io := { foundPeer joinerConfig with response := .ok (0, []) }

end Reference

/-- The inviter pairs with the joiner from its dashboard. -/
theorem Daemon.Link.dashboard_pairing_mutual_reference :
    ∃ before e, trace (Reference.link.step Reference.uiCrates Reference.uiServer)
          (Reference.link.start Reference.uiCrates Reference.memorySink Reference.memorySink)
          (undisturbed 0 Reference.pairBody Reference.answeredIo) = before ++ [e] ∧
      Succeeds e Reference.pairBody Reference.joinerCertificate.nodeUuid 7443 ∧
      Reference.link.Mutual before e Reference.joinerCertificate.nodeUuid 7443 := by
  have answered : Reference.answeredIo.response = .ok (0, []) := rfl
  obtain ⟨⟨before, e, split, success⟩, -⟩ := undisturbed_succeeds Reference.uiServer 0
    (x := Reference.link.start Reference.uiCrates Reference.memorySink Reference.memorySink)
    Reference.uiCrates_lawful Reference.link_targets rfl answered
  have every := dashboard_pairing_mutual Reference.uiServer Reference.link Reference.uiCrates_lawful
    Reference.memorySink Reference.memorySink
    (undisturbed 0 Reference.pairBody Reference.answeredIo)
  exact ⟨before, e, split, success, every before e [] split _ _ _ Reference.link_targets success⟩

end OpenPair
