import Mathlib.Data.List.MinMax
import Mathlib.Data.String.Basic
import OpenPair.Trust.PinStore

/-! Which node serves a request (`routing.rs`, `router.rs`). -/

set_option autoImplicit false

namespace OpenPair

/-- A routing candidate, self or a peer. -/
structure Candidate where
  nodeId : String
  baseUrl : String
  advertisesModel : Bool
  isSelf : Bool
  pinned : Bool
  priorityRank : Option UInt32
  manuallySelected : Bool
  host : Option String
  ingressPort : Option UInt16
  deriving DecidableEq, Repr

structure PeerEntry where
  nodeId : String
  host : String
  ingressPort : UInt16
  models : List String
  pinned : Bool
  priorityRank : Option UInt32
  manuallySelected : Bool
  deriving DecidableEq, Repr

/-- The peers stand in the order in which the map is enumerated. -/
structure RoutingTable where
  localModels : List String
  peers : Table PeerEntry
  localId : String

def RoutingTable.localCandidate (table : RoutingTable) (model : Option String) (backend : String) :
    Candidate :=
  { nodeId := table.localId
    baseUrl := s!"http://{backend}"
    advertisesModel := (model.map fun m => table.localModels.contains m).getD true
    isSelf := true
    pinned := false
    priorityRank := none
    manuallySelected := false
    host := none
    ingressPort := none }

def PeerEntry.candidate (peer : PeerEntry) (model : String) : Candidate :=
  { nodeId := peer.nodeId
    baseUrl := s!"https://{peer.host}:{peer.ingressPort}"
    advertisesModel := peer.models.contains model
    isSelf := false
    pinned := peer.pinned
    priorityRank := peer.priorityRank
    manuallySelected := peer.manuallySelected
    host := some peer.host
    ingressPort := some peer.ingressPort }

def RoutingTable.candidatesFor (table : RoutingTable) (model : Option String) (backend : String) :
    List Candidate :=
  table.localCandidate model backend ::
    match model with
    | none => []
    | some m => table.peers.entries.map fun peer => peer.2.candidate m

def Candidate.eligible (candidate : Candidate) : Bool :=
  candidate.advertisesModel && (candidate.isSelf || candidate.pinned)

-- Manual selection, then the lowest rank, then self, then the least id.
def select (candidates : List Candidate) : Option Candidate :=
  let eligible := candidates.filter Candidate.eligible
  if eligible.isEmpty then none
  else
    match eligible.find? Candidate.manuallySelected with
    | some candidate => some candidate
    | none =>
      match (eligible.filter fun candidate => candidate.priorityRank.isSome).argmin
          fun candidate => (candidate.priorityRank.getD 0).toNat with
      | some candidate => some candidate
      | none =>
        match eligible.find? Candidate.isSelf with
        | some candidate => some candidate
        | none => eligible.argmin Candidate.nodeId

/-! ## Writes -/

def PeerEntry.new (nodeId host : String) (ingressPort : UInt16) (pinned : Bool) : PeerEntry :=
  { nodeId := nodeId
    host := host
    ingressPort := ingressPort
    models := []
    pinned := pinned
    priorityRank := none
    manuallySelected := false }

namespace RoutingTable

def new (localId : String) : RoutingTable := ⟨[], ∅, localId⟩

def setLocalModels (table : RoutingTable) (models : List String) : RoutingTable :=
  { table with localModels := models }

def upsertPeer (table : RoutingTable) (peer : PeerEntry) : RoutingTable :=
  { table with peers := table.peers.insert peer.nodeId peer }

def removePeer (table : RoutingTable) (nodeId : String) : RoutingTable :=
  { table with peers := table.peers.erase nodeId }

/-- A peer's address and pin; what was learned of its models stays. -/
def upsertPeerMeta (table : RoutingTable) (nodeId host : String) (ingressPort : UInt16)
    (pinned : Bool) : RoutingTable :=
  let peer : PeerEntry :=
    match table.peers.lookup nodeId with
    | some peer => { peer with host := host, ingressPort := ingressPort, pinned := pinned }
    | none => .new nodeId host ingressPort pinned
  { table with peers := table.peers.insert nodeId peer }

def setPeerModels (table : RoutingTable) (nodeId : String) (models : List String) : RoutingTable :=
  match table.peers.lookup nodeId with
  | some peer => { table with peers := table.peers.insert nodeId { peer with models := models } }
  | none => table

def setPeerPriority (table : RoutingTable) (nodeId : String) (rank : Option UInt32) :
    RoutingTable :=
  match table.peers.lookup nodeId with
  | some peer =>
    { table with peers := table.peers.insert nodeId { peer with priorityRank := rank } }
  | none => table

def pinnedPeers (table : RoutingTable) : List (String × String × UInt16) :=
  (table.peers.entries.filter fun peer => peer.2.pinned).map fun peer =>
    (peer.2.nodeId, peer.2.host, peer.2.ingressPort)

section

variable (table : RoutingTable) (nodeId host : String) (ingressPort : UInt16) (pinned : Bool)
  (models : List String)

@[simp] theorem lookup_new (localId key : String) : (new localId).peers.lookup key = none :=
  AList.lookup_empty key

@[simp] theorem setLocalModels_peers : (table.setLocalModels models).peers = table.peers := rfl

variable {table nodeId host ingressPort pinned} in
theorem lookup_upsertPeerMeta_ne {key : String} (other : key ≠ nodeId) :
    (table.upsertPeerMeta nodeId host ingressPort pinned).peers.lookup key =
      table.peers.lookup key :=
  AList.lookup_insert_ne other

theorem lookup_upsertPeerMeta_self :
    ∃ peer, (table.upsertPeerMeta nodeId host ingressPort pinned).peers.lookup nodeId = some peer ∧
      peer.ingressPort = ingressPort ∧ peer.pinned = pinned ∧
      (peer.nodeId = nodeId ∨ ∃ before, table.peers.lookup nodeId = some before ∧
        peer.nodeId = before.nodeId) := by
  unfold upsertPeerMeta
  cases found : table.peers.lookup nodeId with
  | none => exact ⟨_, AList.lookup_insert _, rfl, rfl, .inl rfl⟩
  | some before => exact ⟨_, AList.lookup_insert _, rfl, rfl, .inr ⟨before, rfl, rfl⟩⟩

theorem lookup_setPeerModels {α : Type} (read : PeerEntry → α) (key : String)
    (blind : ∀ peer models, read { peer with models := models } = read peer) :
    ((table.setPeerModels nodeId models).peers.lookup key).map read =
      (table.peers.lookup key).map read := by
  unfold setPeerModels
  cases found : table.peers.lookup nodeId with
  | none => rfl
  | some peer =>
    by_cases same : key = nodeId
    · subst same
      rw [AList.lookup_insert, found, Option.map_some, Option.map_some, blind]
    · rw [AList.lookup_insert_ne same]

variable {table nodeId host ingressPort} in
theorem mem_pinnedPeers (listed : (nodeId, host, ingressPort) ∈ table.pinnedPeers) :
    ∃ key peer, table.peers.lookup key = some peer ∧ peer.nodeId = nodeId ∧
      peer.ingressPort = ingressPort := by
  obtain ⟨⟨key, peer⟩, kept, same⟩ := List.mem_map.mp listed
  cases same
  exact ⟨key, peer, AList.mem_lookup_iff.mpr (List.mem_of_mem_filter kept), rfl, rfl⟩

end

end RoutingTable

end OpenPair
