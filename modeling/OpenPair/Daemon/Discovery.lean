import OpenPair.Proxy.Routing

/-! What a node advertises on its network and what is read of it there
(`discovery.rs`, `pair-discovery`).

The responder and the browser are the library's: a service that is resolved has
the port of the one that was registered and its properties, in any order.
-/

set_option autoImplicit false

namespace OpenPair

/-! ## Text -/

-- `split_once`, at a character.
def splitOnce (text : String) (ch : Char) : Option (String × String) :=
  match text.toList.dropWhile (· ≠ ch) with
  | [] => none
  | _ :: after => some (String.ofList (text.toList.takeWhile (· ≠ ch)), String.ofList after)

def rsplitOnce (text : String) (ch : Char) : Option (String × String) :=
  match text.toList.reverse.dropWhile (· ≠ ch) with
  | [] => none
  | _ :: before =>
    some (String.ofList before.reverse,
      String.ofList (text.toList.reverse.takeWhile (· ≠ ch)).reverse)

-- `parse::<u16>`.
def parseU16 (text : String) : Option UInt16 :=
  let digits := if text.toList.head? = some '+' then text.toList.tail else text.toList
  if digits ≠ [] ∧ digits.all Char.isDigit then
    let value := digits.foldl (fun n digit => n * 10 + (digit.toNat - '0'.toNat)) 0
    if value < 2 ^ 16 then some (.ofNat value) else none
  else none

theorem splitOnce_joined {key : String} {ch : Char} (value : String) (plain : ch ∉ key.toList) :
    splitOnce (key ++ String.singleton ch ++ value) ch = some (key, value) := by
  have before : ∀ other ∈ key.toList, decide (other ≠ ch) = true := by
    intro other member
    apply decide_eq_true
    intro same
    exact plain (same ▸ member)
  unfold splitOnce
  simp only [String.toList_append, String.toList_singleton, List.append_assoc,
    List.dropWhile_append_of_pos before, List.takeWhile_append_of_pos before]
  simp

/-! ## Records -/

structure NodeRecord where
  nodeUuid : Option String := none
  clusterUuid : Option String := none
  addresses : List String := []
  extra : Table String := ∅

def uuidKeys : List String := ["uuid", "node", "nodeUuid", "node_uuid", "node-uuid"]

def clusterKeys : List String := ["cluster", "cluster-uuid", "clusterUuid", "cluster_uuid"]

def knownKeys : List String := uuidKeys ++ clusterKeys ++ ["addr", "addresses"]

-- The body of the loop of `from_txt`.
def NodeRecord.readEntry (record : NodeRecord) (entry : String) : NodeRecord :=
  match splitOnce entry '=' with
  | none => record
  | some (key, value) =>
    if key ∈ uuidKeys then { record with nodeUuid := some value }
    else if key ∈ clusterKeys then { record with clusterUuid := some value }
    else if key ∈ ["addr", "addresses"] then { record with addresses := record.addresses ++ [value] }
    else { record with extra := record.extra.insert key value }

def NodeRecord.fromTxt (entries : List String) : NodeRecord :=
  entries.foldl NodeRecord.readEntry {}

def recordToTxt (record : NodeRecord) : Table String :=
  let props : Table String := AList.insert "v" "1" ∅
  let props := match record.nodeUuid with
    | some uuid => props.insert "uuid" uuid
    | none => props
  let props := match record.clusterUuid with
    | some uuid => props.insert "cluster-uuid" uuid
    | none => props
  let props := match record.addresses with
    | ip :: _ => props.insert "ip" (String.ofList (ip.toList.takeWhile (· ≠ ':')))
    | [] => props
  record.extra.entries.foldl (fun props entry => props.insert entry.1 entry.2) props

/-! ## Services -/

structure ServiceInfo where
  hostname : String
  port : UInt16
  addresses : List String := []
  properties : List (String × String)

-- The service that `advertise` registers.
def advertise (hostName : String) (port : UInt16) (record : NodeRecord) : ServiceInfo :=
  { hostname := if ".local.".toList.isSuffixOf hostName.toList then hostName else hostName ++ ".local."
    port := port
    properties := (recordToTxt record).entries.map fun entry => (entry.1, entry.2) }

/-- A registered service as another node finds it. -/
structure Resolves (registered resolved : ServiceInfo) : Prop where
  hostname : resolved.hostname = registered.hostname
  port : resolved.port = registered.port
  properties : resolved.properties.Perm registered.properties

def txtToRecord (info : ServiceInfo) : NodeRecord :=
  let record := NodeRecord.fromTxt (info.properties.map fun p => s!"{p.1}={p.2}")
  { record with addresses := record.addresses ++ info.addresses.map fun a => s!"{a}:{info.port}" }

structure DiscoveredPeer where
  host : String
  port : UInt16
  addresses : List String
  record : NodeRecord

-- What `browse` hands on.
def ServiceInfo.discovered (info : ServiceInfo) : DiscoveredPeer :=
  { host := info.hostname
    port := info.port
    addresses := info.addresses
    record := txtToRecord info }

def DiscoveredPeer.node (peer : DiscoveredPeer) (selfId : String) : Option String :=
  peer.record.nodeUuid.bind fun id => if id ≠ selfId then some id else none

def DiscoveredPeer.reachedAt (peer : DiscoveredPeer) : String :=
  peer.addresses.head?.getD
    (String.ofList (peer.host.toList.reverse.dropWhile (· = '.')).reverse)

/-! ## A node's own record -/

/-- What a node is started with; the system chooses the port to serve on where
that of `/ingress` is 0. -/
structure NodeConfig where
  nodeUuid : String
  hostname : String
  localIp : Option String
  nodeinfoPort : UInt16
  /-- `OPENPAIR_ADVERTISE_PORT`. -/
  advertisePortVar : Option String
  ingressPort : UInt16
  assigned : UInt16

namespace NodeConfig

variable (config : NodeConfig)

def servedPort : UInt16 := if config.ingressPort = 0 then config.assigned else config.ingressPort

def advertisePort : UInt16 := (config.advertisePortVar.bind parseU16).getD config.nodeinfoPort

def record : NodeRecord :=
  { nodeUuid := some config.nodeUuid, addresses := config.localIp.toList }

def advertisement : ServiceInfo := advertise config.hostname config.advertisePort config.record

end NodeConfig

/-! ## What is advertised is found -/

section

variable {record : NodeRecord} {uuid : String}

theorem known_of_uuid {key : String} (uuid : key ∈ uuidKeys) : key ∈ knownKeys :=
  List.mem_append_left _ (List.mem_append_left _ uuid)

theorem known_of_cluster {key : String} (cluster : key ∈ clusterKeys) : key ∈ knownKeys :=
  List.mem_append_left _ (List.mem_append_right _ cluster)

theorem known_of_address {key : String} (address : key ∈ ["addr", "addresses"]) :
    key ∈ knownKeys :=
  List.mem_append_right _ address

theorem NodeRecord.readEntry_cases (record : NodeRecord) {entry key value : String}
    (split : splitOnce entry '=' = some (key, value)) :
    (key ∈ uuidKeys ∧ record.readEntry entry = { record with nodeUuid := some value }) ∨
    (key ∉ uuidKeys ∧ key ∈ clusterKeys ∧
      record.readEntry entry = { record with clusterUuid := some value }) ∨
    (key ∉ uuidKeys ∧ key ∉ clusterKeys ∧ key ∈ ["addr", "addresses"] ∧
      record.readEntry entry = { record with addresses := record.addresses ++ [value] }) ∨
    (key ∉ knownKeys ∧
      record.readEntry entry = { record with extra := record.extra.insert key value }) := by
  unfold NodeRecord.readEntry
  rw [split]
  dsimp only
  by_cases uuid : key ∈ uuidKeys
  · exact .inl ⟨uuid, if_pos uuid⟩
  · rw [if_neg uuid]
    by_cases cluster : key ∈ clusterKeys
    · exact .inr (.inl ⟨uuid, cluster, if_pos cluster⟩)
    · rw [if_neg cluster]
      by_cases address : key ∈ ["addr", "addresses"]
      · exact .inr (.inr (.inl ⟨uuid, cluster, address, if_pos address⟩))
      · refine .inr (.inr (.inr ⟨?_, if_neg address⟩))
        simp only [knownKeys, List.mem_append, not_or]
        exact ⟨⟨uuid, cluster⟩, address⟩

theorem splitOnce_property {key : String} (value : String) (plain : '=' ∉ key.toList) :
    splitOnce s!"{key}={value}" '=' = some (key, value) :=
  splitOnce_joined value plain

theorem readEntry_nodeUuid (record : NodeRecord) (key value : String) (plain : '=' ∉ key.toList) :
    (record.readEntry s!"{key}={value}").nodeUuid =
      if key ∈ uuidKeys then some value else record.nodeUuid := by
  rcases record.readEntry_cases (splitOnce_property value plain) with
    ⟨uuid, read⟩ | ⟨other, -, read⟩ | ⟨other, -, -, read⟩ | ⟨unknown, read⟩ <;> rw [read]
  · rw [if_pos uuid]
  · rw [if_neg other]
  · rw [if_neg other]
  · rw [if_neg fun uuid => unknown (known_of_uuid uuid)]

theorem foldl_readEntry_nodeUuid {properties : List (String × String)}
    (plain : ∀ p ∈ properties, '=' ∉ p.1.toList)
    (only : ∀ p ∈ properties, p.1 ∈ uuidKeys → p.2 = uuid)
    (named : record.nodeUuid = some uuid ∨ ∃ p ∈ properties, p.1 ∈ uuidKeys) :
    ((properties.map fun p => s!"{p.1}={p.2}").foldl NodeRecord.readEntry record).nodeUuid =
      some uuid := by
  induction properties generalizing record with
  | nil =>
    rcases named with named | ⟨p, member, -⟩
    · exact named
    · exact absurd member List.not_mem_nil
  | cons p properties ih =>
    obtain ⟨plainHead, plain⟩ := List.forall_mem_cons.mp plain
    obtain ⟨onlyHead, only⟩ := List.forall_mem_cons.mp only
    have head := readEntry_nodeUuid record p.1 p.2 plainHead
    apply ih plain only
    by_cases own : p.1 ∈ uuidKeys
    · exact .inl (head.trans (by rw [if_pos own, onlyHead own]))
    · rw [if_neg own] at head
      rcases named with named | ⟨q, member, own'⟩
      · exact .inl (head.trans named)
      · rcases List.mem_cons.mp member with rfl | later
        · exact absurd own' own
        · exact .inr ⟨q, later, own'⟩

end

theorem NodeConfig.properties (config : NodeConfig) : config.advertisement.properties =
    (config.localIp.toList.map fun ip => ("ip", String.ofList (ip.toList.takeWhile (· ≠ ':')))) ++
      [("uuid", config.nodeUuid), ("v", "1")] := by
  unfold advertisement advertise record recordToTxt
  cases config.localIp with
  | none => rfl
  | some ip => rfl

/-- Whoever resolves a node's advertisement finds its UUID and its advertised port. -/
theorem NodeConfig.resolved (config : NodeConfig) {info : ServiceInfo}
    (found : Resolves config.advertisement info) :
    info.discovered.record.nodeUuid = some config.nodeUuid ∧
      info.discovered.port = config.advertisePort := by
  have keys : ∀ p ∈ info.properties,
      p.1 = "ip" ∨ p = ("uuid", config.nodeUuid) ∨ p = ("v", "1") := by
    intro p member
    rw [found.properties.mem_iff, config.properties] at member
    rcases List.mem_append.mp member with ip | own
    · obtain ⟨ip, -, rfl⟩ := List.mem_map.mp ip
      exact .inl rfl
    · rcases List.mem_cons.mp own with uuid | own
      · exact .inr (.inl uuid)
      · exact .inr (.inr (List.mem_singleton.mp own))
  have listed : ("uuid", config.nodeUuid) ∈ info.properties := by
    rw [found.properties.mem_iff, config.properties]
    exact List.mem_append_right _ List.mem_cons_self
  have uuid : "uuid" ∈ uuidKeys := by decide
  have plain : '=' ∉ "uuid".toList := by decide
  constructor
  · apply foldl_readEntry_nodeUuid
    · intro p member
      rcases keys p member with same | rfl | rfl
      · rw [same]
        decide
      · exact plain
      · decide
    · intro p member own
      rcases keys p member with same | rfl | rfl
      · rw [same] at own
        exact absurd own (by decide)
      · rfl
      · exact absurd own (by decide)
    · exact .inr ⟨_, listed, uuid⟩
  · exact found.port

end OpenPair
