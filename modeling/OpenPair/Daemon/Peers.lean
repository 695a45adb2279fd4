import OpenPair.Cluster.TrustSink
import OpenPair.Daemon.Discovery
import OpenPair.Library.Tasks
import OpenPair.Proxy.Forwarding

/-! The tasks of a node that write its trust store and its routing table: the
discovery loop and the model pollers (`main.rs`), the sink of the pairing
endpoint, and the dashboard's calls (`pair-ui`).

A turn takes one lock; a task that takes two waits between them.
-/

set_option autoImplicit false

namespace OpenPair

open FileTree

/-! ## The dashboard's crates -/

-- What `pair` reads of a status.
structure Status where
  nodeUuid : String
  ingressPort : UInt16
  deriving DecidableEq

def NodeConfig.status (config : NodeConfig) : Status :=
  { nodeUuid := config.nodeUuid, ingressPort := config.ingressPort }

structure StatusReply where
  nodeUuid : Option String
  ingressPort : Option UInt64

/-- `serde_json` on the body of a call, of which the `peer` member is read, and on a status. -/
structure UiCrates where
  readPeer : Bytes → Except String (Option String)
  writeStatus : Status → Bytes
  readStatus : Bytes → Except String StatusReply

structure UiCrates.Lawful (ui : UiCrates) : Prop where
  readStatus_writeStatus (status : Status) : ui.readStatus (ui.writeStatus status) =
    .ok ⟨some status.nodeUuid, some status.ingressPort.toUInt64⟩

def parseUrl (url : String) : Except String (String × UInt16 × String) :=
  if "http://".toList.isPrefixOf url.toList then
    let rest := String.ofList (url.toList.drop 7)
    let (authority, path) :=
      match splitOnce rest '/' with
      | some (authority, path) => (authority, "/" ++ path)
      | none => (rest, "/")
    match rsplitOnce authority ':' with
    | some (host, port) => .ok (host, (parseU16 port).getD 80, path)
    | none => .ok (authority, 80, path)
  else .error "only http:// URLs"

structure HttpCall where
  host : String
  port : UInt16
  method : String
  path : String
  body : Bytes

namespace Daemon

/-- What a node is set up with. -/
structure Setup where
  crates : Crates
  ui : UiCrates
  nodeId : String
  certPem : String

structure Tables where
  sink : ClusterTrustSink
  routing : RoutingTable

def Tables.pins (t : Tables) : PeerPinStore := t.sink.trust.pins

def Tables.setPins (t : Tables) (pins : PeerPinStore) : Tables :=
  { t with sink := { t.sink with trust := { t.sink.trust with pins := pins } } }

inductive Call where
  | browse
  | pollPeers
  | pollLocal
  /-- By the pairing endpoint, for a peer that has paired. -/
  | pinPeer (faults : Faults) (cwd : Place) (paired : Paired)
  | addCert (body : Bytes)
  | pair (body : Bytes)

inductive TaskId where
  | discovery
  | peerModels
  | localModels
  | request (serial : Nat)
  deriving DecidableEq

def Call.taskId : Call → Nat → TaskId
  | .browse, _ => .discovery
  | .pollPeers, _ => .peerModels
  | .pollLocal, _ => .localModels
  | .pinPeer .., serial => .request serial
  | .addCert _, serial => .request serial
  | .pair _, serial => .request serial

inductive Point where
  -- the discovery loop
  | receive
  | found (nodeUuid host : String) (port : UInt16) (pinned : Bool)
  -- the pollers
  | listPeers
  | fetchModels (peers : List (String × String × UInt16))
  | fetchLocal
  -- `pair`
  | pairStatus (host : String) (port : UInt16)
  | pairCert (host : String) (port : UInt16) (nodeUuid : String) (ingressPort : UInt16)
  | pairPush (host : String) (nodeUuid : String) (ingressPort : UInt16)
  | returned

/-- What is awaited: a resolved peer, a response, a list of models. -/
structure Io where
  discovered : DiscoveredPeer
  response : Except String (UInt16 × Bytes)
  models : Except String (List String)

inductive UiReply where
  | paired (nodeUuid : String) (ingressPort : UInt16)
  | added (nodeUuid : String)

structure Observed where
  sent : Option HttpCall := none
  /-- A peer asked for its models, at its host and port. -/
  probed : Option (String × UInt16) := none
  returned : Option (Except String UiReply) := none

abbrev Turn := Tasks.Turn Tables Point Observed

variable (d : Setup) (t : Tables)

def waits (point : Point) : Turn := ⟨t, point, {}⟩

def returns (result : Except String UiReply) : Turn := ⟨t, .returned, { returned := some result }⟩

def sends (call : HttpCall) (point : Point) : Turn := ⟨t, point, { sent := some call }⟩

/-! ## Discovery -/

def receive (peer : DiscoveredPeer) : Turn :=
  match peer.node d.nodeId with
  | none => waits t .receive
  | some nodeUuid =>
    waits t (.found nodeUuid peer.reachedAt peer.port (t.pins.byUuid.lookup nodeUuid).isSome)

def addToRouting (nodeUuid host : String) (port : UInt16) (pinned : Bool) : Turn :=
  waits { t with routing := t.routing.upsertPeerMeta nodeUuid host port pinned } .receive

/-! ## The pollers -/

def probes : List (String × String × UInt16) → Turn
  | [] => waits t .listPeers
  | (nodeId, host, port) :: rest =>
    ⟨t, .fetchModels ((nodeId, host, port) :: rest), { probed := some (host, port) }⟩

def learnModels (models : Except String (List String)) : List (String × String × UInt16) → Turn
  | [] => waits t .listPeers
  | (nodeId, _, _) :: rest =>
    match models with
    | .ok models => probes { t with routing := t.routing.setPeerModels nodeId models } rest
    | .error _ => probes t rest

def learnLocal (models : Except String (List String)) : Turn :=
  match models with
  | .ok models => waits { t with routing := t.routing.setLocalModels models } .fetchLocal
  | .error _ => waits t .fetchLocal

/-! ## The dashboard -/

def addCert (body : Bytes) : Turn :=
  match pemCertToDer (fromUtf8Lossy body) with
  | some der =>
    match t.pins.pin d.crates der with
    | (pins, .ok nodeUuid) => returns (t.setPins pins) (.ok (.added nodeUuid))
    | (pins, .error e) => returns (t.setPins pins) (.error e)
  | none => returns t (.error "no certificate in PEM")

def pair (body : Bytes) : Turn :=
  match d.ui.readPeer body with
  | .error e => returns t (.error e)
  | .ok none => returns t (.error "peer required")
  | .ok (some peer) =>
    match parseUrl peer with
    | .error e => returns t (.error e)
    | .ok (host, port, _) => sends t ⟨host, port, "GET", "/api/status", []⟩ (.pairStatus host port)

def pairStatus (host : String) (port : UInt16) (response : Except String (UInt16 × Bytes)) : Turn :=
  match response with
  | .error e => returns t (.error e)
  | .ok (_, bytes) =>
    match d.ui.readStatus bytes with
    | .error e => returns t (.error e)
    | .ok status =>
      -- A port above `u16` is cut off.
      let ingressPort := (status.ingressPort.getD 0).toUInt16
      sends t ⟨host, port, "GET", "/api/identity/cert", []⟩
        (.pairCert host port (status.nodeUuid.getD "") ingressPort)

def pairCert (host : String) (port : UInt16) (nodeUuid : String) (ingressPort : UInt16)
    (response : Except String (UInt16 × Bytes)) : Turn :=
  match response with
  | .error e => returns t (.error e)
  | .ok (_, bytes) =>
    match pemCertToDer (fromUtf8Lossy bytes) with
    | none => returns t (.error "peer returned no certificate")
    | some der =>
      match t.pins.pin d.crates der with
      | (pins, .error e) => returns (t.setPins pins) (.error e)
      | (pins, .ok _) =>
        sends (t.setPins pins) ⟨host, port, "POST", "/api/trust/add", utf8 d.certPem⟩
          (.pairPush host nodeUuid ingressPort)

def pairPush (host nodeUuid : String) (ingressPort : UInt16)
    (response : Except String (UInt16 × Bytes)) : Turn :=
  match response with
  | .error e => returns t (.error e)
  | .ok (code, _) =>
    if 400 ≤ code then returns t (.error s!"peer rejected our certificate ({code})")
    else
      let routing :=
        if ingressPort ≠ 0 then t.routing.upsertPeerMeta nodeUuid host ingressPort true
        else t.routing
      returns { t with routing := routing } (.ok (.paired nodeUuid ingressPort))

/-! ## The tasks -/

def start : Call → Turn
  | .browse => waits t .receive
  | .pollPeers => waits t .listPeers
  | .pollLocal => waits t .fetchLocal
  | .pinPeer faults cwd paired =>
    waits { t with sink := t.sink.pinPeer d.crates faults cwd paired } .returned
  | .addCert body => addCert d t body
  | .pair body => pair d t body

def advance (io : Io) : Point → Turn
  | .receive => receive d t io.discovered
  | .found nodeUuid host port pinned => addToRouting t nodeUuid host port pinned
  | .listPeers => probes t t.routing.pinnedPeers
  | .fetchModels peers => learnModels t io.models peers
  | .fetchLocal => learnLocal t io.models
  | .pairStatus host port => pairStatus d t host port io.response
  | .pairCert host port nodeUuid ingressPort =>
    pairCert d t host port nodeUuid ingressPort io.response
  | .pairPush host nodeUuid ingressPort => pairPush t host nodeUuid ingressPort io.response
  | .returned => waits t .returned

def program : Tasks.Program Tables TaskId Call Point Io Observed where
  name := Call.taskId
  start t call := start d t call
  advance t _ io point := advance d t io point

abbrev State := Tasks.Executor Tables TaskId Call Point

abbrev Event := Tasks.Event TaskId Call Io

def fresh (sink : ClusterTrustSink) : State :=
  { shared := { sink := sink, routing := .new d.nodeId } }

end Daemon

/-! ## The reference setup -/

namespace Reference

def statusSlots (status : Status) : List Slot :=
  [("node_uuid".toList, some (text status.nodeUuid)),
    ("ingress_port".toList, some (natText status.ingressPort.toUInt64.toNat))]

def statusOf (members : List Json.Member) : StatusReply :=
  { nodeUuid := (field members "node_uuid" readStr).join
    ingressPort := (field members "ingress_port" readU64).join }

def uiCrates : UiCrates where
  readPeer body :=
    match membersOf body with
    | some members => .ok (field members "peer" readStr).join
    | none => .error "expected value"
  writeStatus status := utf8 (String.ofList (writeRecord (statusSlots status)))
  readStatus bytes :=
    match membersOf bytes with
    | some members => .ok (statusOf members)
    | none => .error "expected value"

theorem readable_status (status : Status) : Json.Readable (Json.present (statusSlots status)) := by
  apply readable_present
  · simp only [statusSlots, List.forall_mem_cons]
    decide
  · intro slot member value same
    simp only [statusSlots, List.mem_cons, List.not_mem_nil, or_false] at member
    rcases member with rfl | rfl
    · cases same
      exact closed_text status.nodeUuid
    · cases same
      exact Json.closed_natDigits _

theorem statusOf_statusSlots (status : Status) : statusOf (Json.present (statusSlots status)) =
    ⟨some status.nodeUuid, some status.ingressPort.toUInt64⟩ := by
  have distinct : ((statusSlots status).map Prod.fst).Nodup := by
    show (["node_uuid".toList, "ingress_port".toList] : List (List Char)).Nodup
    decide
  have uuid : field (Json.present (statusSlots status)) "node_uuid" readStr =
      some (some status.nodeUuid) :=
    str_field (v := some status.nodeUuid) distinct List.mem_cons_self
  have port : field (Json.present (statusSlots status)) "ingress_port" readU64 =
      some (some status.ingressPort.toUInt64) :=
    field_present (v := some status.ingressPort.toUInt64) (w := fun n => natText n.toNat) distinct
      (List.mem_cons_of_mem _ List.mem_cons_self) fun n _ =>
        ⟨ne_null (by decide) (readU64_natText n), readU64_natText n⟩
  rw [statusOf, uuid, port]
  rfl

theorem uiCrates_lawful : uiCrates.Lawful where
  readStatus_writeStatus status := by
    simp only [uiCrates, membersOf_writeRecord (readable_status status), statusOf_statusSlots]

def setup : Daemon.Setup where
  crates := crates
  ui := uiCrates
  nodeId := inviterCertificate.nodeUuid
  certPem := pem inviterDer

def joinerConfig : NodeConfig where
  nodeUuid := joinerCertificate.nodeUuid
  hostname := "joiner"
  localIp := some "10.0.0.6"
  nodeinfoPort := 7071
  advertisePortVar := none
  ingressPort := 7443
  assigned := 49152

def alignedConfig : NodeConfig := { joinerConfig with advertisePortVar := some "7443" }

/-- A node that trusts no one yet and keeps its trust in memory. -/
def memorySink : ClusterTrustSink :=
  { trust := ⟨fun _ => none, {}⟩, clusterDir := none, clustered := false }

def foundPeer (config : NodeConfig) : Daemon.Io where
  discovered := config.advertisement.discovered
  response := .error "unused"
  models := .error "unused"

-- The discovery loop starts, receives the peer and writes its entry.
def peerDiscovery (config : NodeConfig) : List Daemon.Event :=
  [.call 0 .browse, .resume .discovery (foundPeer config), .resume .discovery (foundPeer config)]

end Reference

end OpenPair
