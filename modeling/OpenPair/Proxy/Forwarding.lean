import OpenPair.Library.Utf8
import OpenPair.Proxy.Routing

/-! The routing proxy (`live.rs`) and the `/ingress` receiver of a peer
(`ingress_server.rs`, `peer.rs`), from the client's request to its response.

The request to a peer travels in an envelope of strings; what it loses on the
way decides whether the client can tell a peer from the local engine.
-/

set_option autoImplicit false

namespace OpenPair

/-! ## Requests and responses -/

/-- A client's request: method, path without its query, and body. -/
structure ProxyRequest where
  method : String
  path : String
  body : Bytes
  deriving DecidableEq

/-- A response; its status is one that HTTP allows. -/
structure ProxyResponse where
  status : UInt16
  body : Bytes
  valid : 100 ≤ status ∧ status < 1000
  deriving DecidableEq

abbrev Engine := ProxyRequest → ProxyResponse

-- `forward_raw` to an address: the response there, or an error.
abbrev Backend := ProxyRequest → Except String ProxyResponse

def Engine.backend (engine : Engine) : Backend := fun request => .ok (engine request)

def buildResponse (code : UInt16) (body : Bytes) : Except String ProxyResponse :=
  if valid : 100 ≤ code ∧ code < 1000 then .ok ⟨code, body, valid⟩
  else .error "invalid status code"

-- `route`: an error is a response too.
def settle : Except String ProxyResponse → ProxyResponse
  | .ok response => response
  | .error e => ⟨502, utf8 s!"openpair-proxy: {e}", by decide⟩

structure IngressEnvelope where
  host : Option String := none
  port : Option UInt16 := none
  path : Option String := none
  method : Option String := none
  name : Option String := none
  data : Option String := none
  txt : Option String := none
  code : Option UInt16 := none
  deriving DecidableEq, Repr

-- `String::from_utf8_lossy`.
def fromUtf8Lossy (bytes : Bytes) : String := Utf8.lossy bytes

theorem fromUtf8Lossy_utf8 (s : String) : fromUtf8Lossy (utf8 s) = s := Utf8.lossy_utf8 s

theorem utf8_fromUtf8Lossy_iff (bytes : Bytes) :
    utf8 (fromUtf8Lossy bytes) = bytes ↔ ∃ text, bytes = utf8 text := by
  constructor
  · exact fun same => ⟨_, same.symm⟩
  · rintro ⟨text, rfl⟩
    rw [fromUtf8Lossy_utf8]

/-- The crates of the proxy: `serde_json` on the envelope, with the text of its
error, and on a body of which the `model` member is read; a status as `http` shows it. -/
structure ProxyCrates where
  encodeEnvelope : IngressEnvelope → Bytes
  decodeEnvelope : Bytes → Except String IngressEnvelope
  extractModel : Bytes → Option String
  statusText : UInt16 → String

structure ProxyCrates.Lawful (c : ProxyCrates) : Prop where
  envelope (env : IngressEnvelope) : c.decodeEnvelope (c.encodeEnvelope env) = .ok env
  /-- JSON is UTF-8. -/
  json {body : Bytes} {model : String} (named : c.extractModel body = some model) :
    ∃ text, body = utf8 text

variable (c : ProxyCrates)

/-! ## The receiver -/

def ingressPath : String := "/ingress"

def ingressReply (backend : Backend) (env : IngressEnvelope) : IngressEnvelope :=
  let path := env.path.getD "/"
  let data := env.data.getD ""
  let method := env.method.getD "POST"
  match backend ⟨method, path, utf8 data⟩ with
  | .ok response =>
    { code := some response.status, data := some (fromUtf8Lossy response.body), txt := some "ok" }
  | .error e => { code := some 502, txt := some e }

-- `handle` of the receiver, in front of a local engine.
def ingressHandle (backend : Backend) (path : String) (body : Bytes) : ProxyResponse :=
  if path ≠ ingressPath then ⟨404, [], by decide⟩
  else
    match c.decodeEnvelope body with
    | .error _ => ⟨400, [], by decide⟩
    | .ok env => ⟨200, c.encodeEnvelope (ingressReply backend env), by decide⟩

/-! ## The sender -/

/-- A mutual-TLS server that can be reached, by host and port: what it answers to a path and a
body, or why it cannot be reached. -/
abbrev Network := String → UInt16 → Except String (String → Bytes → ProxyResponse)

def isSuccess (status : UInt16) : Bool := 200 ≤ status && status < 300

def forwardToPeer (network : Network) (host : String) (port : UInt16) (env : IngressEnvelope) :
    Except String IngressEnvelope :=
  match network host port with
  | .error e => .error e
  | .ok server =>
    let response := server ingressPath (c.encodeEnvelope env)
    if isSuccess response.status = false then
      .error s!"peer /ingress returned {c.statusText response.status}"
    else c.decodeEnvelope response.body

-- `route_inner` once the target is known to be this node.
def routeLocally (backend : Backend) (request : ProxyRequest) : Except String ProxyResponse :=
  match backend request with
  | .error e => .error e
  | .ok response => buildResponse response.status response.body

/-- `route_inner`; the local engine is at an address of its own. -/
def routeInner (table : RoutingTable) (address : String) (localEngine : Backend)
    (network : Network) (request : ProxyRequest) : Except String ProxyResponse :=
  let model := c.extractModel request.body
  match select (table.candidatesFor model address) with
  | none => .ok ⟨503, utf8 "no node can serve this model", by decide⟩
  | some target =>
    if target.isSelf then routeLocally localEngine request
    else
      let host := target.host.getD ""
      let port := target.ingressPort.getD 0
      let env : IngressEnvelope :=
        { path := some request.path, data := some (fromUtf8Lossy request.body), name := model }
      match forwardToPeer c network host port env with
      | .error e => .error e
      | .ok reply => buildResponse (reply.code.getD 502) (utf8 (reply.data.getD ""))

def route (table : RoutingTable) (address : String) (localEngine : Backend) (network : Network)
    (request : ProxyRequest) : ProxyResponse :=
  settle (routeInner c table address localEngine network request)

end OpenPair
