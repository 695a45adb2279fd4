import OpenPair.Proxy.Transparency

/-! The two ways from a client to the local engine: the plain proxy
(`server.rs`), and the routing proxy where it chooses this node (`live.rs`,
`backend.rs`).

Each takes the client's request apart and builds one for the engine. The plain
proxy hands on the whole URI and every header but the host; the routing proxy
hands on the path and sets two headers of its own.
-/

set_option autoImplicit false

namespace OpenPair

/-- The `http` crate: methods and URIs, their texts and what these are read as. -/
structure HttpCrate where
  Method : Type
  Uri : Type
  methodText : Method → String
  readMethod : String → Except String Method
  /-- Empty where the URI is an authority alone. -/
  path : Uri → String
  query : Uri → Option String
  readUri : String → Except String Uri

structure HttpCrate.Lawful (h : HttpCrate) : Prop where
  method (m : h.Method) : h.readMethod (h.methodText m) = .ok m
  /-- A path is read as a URI that is this path. -/
  path (uri : h.Uri) (named : h.path uri ≠ "") :
    ∃ bare, h.readUri (h.path uri) = .ok bare ∧ h.path bare = h.path uri ∧ h.query bare = none
  empty : ∃ e, h.readUri "" = .error e

section

variable (h : HttpCrate)

/-- A request with its head; names of headers are in lower case. -/
structure HttpRequest where
  method : h.Method
  uri : h.Uri
  headers : List (String × Bytes)
  body : Bytes

structure HttpReply extends ProxyResponse where
  headers : List (String × Bytes)

/-- A connection to the engine's address, or why there is none. A connection
answers one request, or breaks. -/
abbrev Dialled := Except String (HttpRequest h → Except String HttpReply)

/-- What the engine receives, and what comes of it. -/
structure Exchanged (α : Type) where
  received : Option (HttpRequest h)
  result : Except String α

variable {h}

/-! ## The plain proxy -/

-- The request that `forward` builds.
def HttpRequest.forwarded (request : HttpRequest h) : HttpRequest h :=
  { request with headers := request.headers.filter fun header => header.1 ≠ "host" }

def forward (dialled : Dialled h) (request : HttpRequest h) : Exchanged h HttpReply :=
  match dialled with
  | .error e => ⟨none, .error e⟩
  | .ok connection => ⟨some request.forwarded, connection request.forwarded⟩

-- `handle`: an error is a response too.
def handle (dialled : Dialled h) (request : HttpRequest h) : HttpReply :=
  match (forward dialled request).result with
  | .ok reply => reply
  | .error e => { settle (.error e) with headers := [] }

/-! ## The routing proxy -/

-- The request that `forward_raw` builds of a URI.
def rawRequest (address : String) (method : h.Method) (uri : h.Uri) (body : Bytes) :
    HttpRequest h :=
  { method := method
    uri := uri
    headers := [("host", utf8 address), ("content-type", utf8 "application/json")]
    body := body }

-- `forward_raw`, which connects before it reads the method and the path.
def forwardRaw (address : String) (dialled : Dialled h) (request : ProxyRequest) :
    Exchanged h ProxyResponse :=
  match dialled with
  | .error e => ⟨none, .error e⟩
  | .ok connection =>
    match h.readMethod request.method with
    | .error e => ⟨none, .error e⟩
    | .ok method =>
      match h.readUri request.path with
      | .error e => ⟨none, .error e⟩
      | .ok uri =>
        let out := rawRequest address method uri request.body
        ⟨some out, (connection out).map HttpReply.toProxyResponse⟩

/-- What `route_inner` takes of a request: its query and its headers are left. -/
def HttpRequest.plain (request : HttpRequest h) : ProxyRequest :=
  ⟨h.methodText request.method, h.path request.uri, request.body⟩

/-- `route` with an engine at the other end of `forward_raw`, and what the engine
receives where this node is chosen. -/
def routed (c : ProxyCrates) (table : RoutingTable) (address : String) (dialled : Dialled h)
    (network : Network) (request : HttpRequest h) : Option (HttpRequest h) × ProxyResponse :=
  let raw := forwardRaw address dialled
  let received :=
    match select (table.candidatesFor (c.extractModel request.body) address) with
    | some target => if target.isSelf then (raw request.plain).received else none
    | none => none
  (received, route c table address (fun plain => (raw plain).result) network request.plain)

/-! ## What is compared -/

def HttpRequest.seen (request : HttpRequest h) : h.Method × String × Option String × Bytes :=
  (request.method, h.path request.uri, h.query request.uri, request.body)

/-- The engine and the client cannot tell one way from the other. -/
def PathsAgree (c : ProxyCrates) (table : RoutingTable) (address : String) (dialled : Dialled h)
    (network : Network) (request : HttpRequest h) : Prop :=
  let routed := routed c table address dialled network request
  routed.1.map HttpRequest.seen = (forward dialled request).received.map HttpRequest.seen ∧
    routed.2 = (handle dialled request).toProxyResponse

/-- The engine answers alike, and so does a broken connection, whether it is sent
the client's headers or the two that `forward_raw` sets. -/
def AnswersAlike (address : String) (connection : HttpRequest h → Except String HttpReply)
    (request : HttpRequest h) : Prop :=
  ∀ bare, h.readUri (h.path request.uri) = .ok bare →
    settle ((connection (rawRequest address request.method bare request.body)).map
        HttpReply.toProxyResponse) =
      settle ((connection request.forwarded).map HttpReply.toProxyResponse)

/-! ## Where the ways agree -/

theorem settle_local (backend : Backend) (request : ProxyRequest) :
    settle (routeLocally backend request) = settle (backend request) := by
  unfold routeLocally
  cases answer : backend request with
  | error e => rfl
  | ok response =>
    dsimp only
    rw [buildResponse_valid response.valid]

theorem handle_plain (dialled : Dialled h) (request : HttpRequest h) :
    (handle dialled request).toProxyResponse =
      settle ((forward dialled request).result.map HttpReply.toProxyResponse) := by
  unfold handle
  cases (forward dialled request).result with
  | error e => rfl
  | ok reply => rfl

theorem routed_self {c : ProxyCrates} {table : RoutingTable} {address : String}
    {dialled : Dialled h} {network : Network} {request : HttpRequest h} {target : Candidate}
    (chosen : select (table.candidatesFor (c.extractModel request.body) address) = some target)
    (self : target.isSelf = true) :
    routed c table address dialled network request =
      ((forwardRaw address dialled request.plain).received,
        settle (forwardRaw address dialled request.plain).result) := by
  have inner : routeInner c table address (fun plain => (forwardRaw address dialled plain).result)
      network request.plain =
        routeLocally (fun plain => (forwardRaw address dialled plain).result) request.plain := by
    -- The model is read from the body alone, which both ways take as it is.
    have model : c.extractModel request.plain.body = c.extractModel request.body := rfl
    rw [routeInner, model]
    dsimp only
    rw [chosen]
    dsimp only
    rw [if_pos self]
  rw [routed, route, inner, settle_local, chosen]
  dsimp only
  rw [if_pos self]

theorem forwardRaw_refused {address e : String} (lawful : h.Lawful)
    {connection : HttpRequest h → Except String HttpReply} {request : HttpRequest h}
    (refused : h.readUri (h.path request.uri) = .error e) :
    forwardRaw address (.ok connection) request.plain = ⟨none, .error e⟩ := by
  simp only [forwardRaw, HttpRequest.plain, lawful.method, refused]

theorem forwardRaw_sent {address : String} (lawful : h.Lawful)
    {connection : HttpRequest h → Except String HttpReply} {request : HttpRequest h} {bare : h.Uri}
    (read : h.readUri (h.path request.uri) = .ok bare) :
    forwardRaw address (.ok connection) request.plain =
      ⟨some (rawRequest address request.method bare request.body),
        (connection (rawRequest address request.method bare request.body)).map
          HttpReply.toProxyResponse⟩ := by
  simp only [forwardRaw, HttpRequest.plain, lawful.method, read]

/-- A request that this node serves itself is served alike along either way
exactly when no connection is made, or it has a path and no query and the engine
minds neither the client's headers nor those set in their place. -/
theorem local_paths_agree_iff {c : ProxyCrates} {table : RoutingTable} {address : String}
    {dialled : Dialled h} {network : Network} {request : HttpRequest h} {target : Candidate}
    (lawful : h.Lawful)
    (chosen : select (table.candidatesFor (c.extractModel request.body) address) = some target)
    (self : target.isSelf = true) :
    PathsAgree c table address dialled network request ↔
      ∀ connection, dialled = .ok connection →
        h.path request.uri ≠ "" ∧ h.query request.uri = none ∧
          AnswersAlike address connection request := by
  rw [PathsAgree, routed_self chosen self, handle_plain]
  cases dialled with
  | error e =>
    refine iff_of_true ⟨rfl, rfl⟩ fun connection wrong => ?_
    cases wrong
  | ok connection =>
    simp only [Except.ok.injEq, forall_eq']
    by_cases named : h.path request.uri = ""
    · -- No URI is empty, so that nothing is sent.
      obtain ⟨e, refused⟩ := lawful.empty
      rw [← named] at refused
      rw [forwardRaw_refused lawful refused]
      refine iff_of_false (fun both => ?_) fun both => both.1 named
      cases both.1
    · obtain ⟨bare, read, path, query⟩ := lawful.path request.uri named
      rw [forwardRaw_sent lawful read]
      have alike : AnswersAlike address connection request ↔
          settle ((connection (rawRequest address request.method bare request.body)).map
              HttpReply.toProxyResponse) =
            settle ((connection request.forwarded).map HttpReply.toProxyResponse) := by
        simp only [AnswersAlike, read, Except.ok.injEq, forall_eq']
      have same : (rawRequest address request.method bare request.body).seen =
          request.forwarded.seen ↔ h.query request.uri = none := by
        simp only [HttpRequest.seen, rawRequest, HttpRequest.forwarded, path, query, Prod.mk.injEq,
          true_and, and_true]
        exact eq_comm
      simp only [Option.map_some, forward, Option.some.injEq, same, alike, ne_eq, named,
        not_false_eq_true, true_and]

end

/-! ## Reference requests -/

namespace Reference

/-- Methods as they are written, and URIs of a path and a query. -/
def httpCrate : HttpCrate where
  Method := String
  Uri := String × Option String
  methodText := id
  readMethod := .ok
  path := Prod.fst
  query := Prod.snd
  readUri text := if text = "" then .error "empty string" else .ok (text, none)

theorem httpCrate_lawful : httpCrate.Lawful where
  method _ := rfl
  path uri named := ⟨(uri.1, none), if_neg named, rfl, rfl⟩
  empty := ⟨"empty string", rfl⟩

def queryEngine (request : HttpRequest httpCrate) : Except String HttpReply :=
  .ok ⟨⟨200, utf8 ((httpCrate.query request.uri).getD ""), ok_valid⟩, []⟩

def getRequest (query : Option String) : HttpRequest httpCrate :=
  { method := "GET"
    uri := ("/api/show", query)
    headers := [("host", utf8 "localhost"), ("accept", utf8 "*/*")]
    body := [] }

theorem empty_unnamed : proxyCrates.extractModel [] = none := by decide +kernel

theorem self_selected :
    select (routingTable.candidatesFor (proxyCrates.extractModel []) "127.0.0.1:11434") =
      some (routingTable.localCandidate none "127.0.0.1:11434") := by
  rw [empty_unnamed]
  rfl

end Reference

/-- Without a query the engine is asked alike, and minds no headers. -/
theorem local_paths_agree_reference :
    PathsAgree Reference.proxyCrates Reference.routingTable "127.0.0.1:11434"
      (.ok Reference.queryEngine) (fun _ _ => .error "refused") (Reference.getRequest none) := by
  refine (local_paths_agree_iff Reference.httpCrate_lawful Reference.self_selected rfl).mpr ?_
  intro connection same
  cases same
  exact ⟨by decide, rfl, fun bare read => by cases read; rfl⟩

/-- The routing proxy sends the engine no query, which the plain one does. -/
theorem routing_drops_query :
    ¬ PathsAgree Reference.proxyCrates Reference.routingTable "127.0.0.1:11434"
      (.ok Reference.queryEngine) (fun _ _ => .error "refused")
      (Reference.getRequest (some "verbose=true")) := by
  intro agree
  have sent := agree.1
  have read : Reference.httpCrate.readUri
      (Reference.httpCrate.path (Reference.getRequest (some "verbose=true")).uri) =
        .ok ("/api/show", none) := rfl
  rw [routed_self Reference.self_selected rfl, forwardRaw_sent Reference.httpCrate_lawful read]
    at sent
  have queries := congrArg (fun seen => seen.2.2.1) (Option.some.inj sent)
  cases queries

end OpenPair
