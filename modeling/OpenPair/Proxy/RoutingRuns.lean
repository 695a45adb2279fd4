import OpenPair.Proxy.Selection

/-! Which node is chosen after any sequence of writes to the routing table. -/

set_option autoImplicit false

namespace OpenPair

inductive RoutingOp where
  | setLocalModels (models : List String)
  | upsertPeer (peer : PeerEntry)
  | upsertPeerMeta (nodeId host : String) (ingressPort : UInt16) (pinned : Bool)
  | setPeerModels (nodeId : String) (models : List String)
  | setPeerPriority (nodeId : String) (rank : Option UInt32)
  | removePeer (nodeId : String)
  deriving DecidableEq, Repr

namespace RoutingTable

def apply (table : RoutingTable) : RoutingOp → RoutingTable
  | .setLocalModels models => table.setLocalModels models
  | .upsertPeer peer => table.upsertPeer peer
  | .upsertPeerMeta nodeId host ingressPort pinned =>
    table.upsertPeerMeta nodeId host ingressPort pinned
  | .setPeerModels nodeId models => table.setPeerModels nodeId models
  | .setPeerPriority nodeId rank => table.setPeerPriority nodeId rank
  | .removePeer nodeId => table.removePeer nodeId

-- The table after a history, in which the latest write stands first.
def after (localId : String) : List RoutingOp → RoutingTable
  | [] => new localId
  | op :: earlier => (after localId earlier).apply op

/-- The same table, enumerated in another order. -/
structure Reordered (table other : RoutingTable) : Prop where
  localModels : table.localModels = other.localModels
  localId : table.localId = other.localId
  peers : table.peers.entries.Perm other.peers.entries

end RoutingTable

/-! ## What a history says of a peer

Read from the latest write back. Until a peer is entered, and again once it is
removed, what is learned of it is dropped.
-/

namespace History

@[simp] def localModels : List RoutingOp → List String
  | [] => []
  | .setLocalModels models :: _ => models
  | _ :: earlier => localModels earlier

variable (nodeId : String)

@[simp] def entered : List RoutingOp → Bool
  | [] => false
  | .upsertPeer peer :: earlier => peer.nodeId == nodeId || entered earlier
  | .upsertPeerMeta id _ _ _ :: earlier => id == nodeId || entered earlier
  | .removePeer id :: earlier => id != nodeId && entered earlier
  | _ :: earlier => entered earlier

@[simp] def pinned : List RoutingOp → Bool
  | [] => false
  | .upsertPeer peer :: earlier => if peer.nodeId = nodeId then peer.pinned else pinned earlier
  | .upsertPeerMeta id _ _ pin :: earlier => if id = nodeId then pin else pinned earlier
  | .removePeer id :: earlier => if id = nodeId then false else pinned earlier
  | _ :: earlier => pinned earlier

@[simp] def models : List RoutingOp → List String
  | [] => []
  | .upsertPeer peer :: earlier => if peer.nodeId = nodeId then peer.models else models earlier
  | .setPeerModels id learned :: earlier =>
    if id = nodeId ∧ entered nodeId earlier then learned else models earlier
  | .removePeer id :: earlier => if id = nodeId then [] else models earlier
  | _ :: earlier => models earlier

@[simp] def rank : List RoutingOp → Option UInt32
  | [] => none
  | .upsertPeer peer :: earlier =>
    if peer.nodeId = nodeId then peer.priorityRank else rank earlier
  | .setPeerPriority id given :: earlier =>
    if id = nodeId ∧ entered nodeId earlier then given else rank earlier
  | .removePeer id :: earlier => if id = nodeId then none else rank earlier
  | _ :: earlier => rank earlier

@[simp] def manual : List RoutingOp → Bool
  | [] => false
  | .upsertPeer peer :: earlier =>
    if peer.nodeId = nodeId then peer.manuallySelected else manual earlier
  | .removePeer id :: earlier => if id = nodeId then false else manual earlier
  | _ :: earlier => manual earlier

end History

/-! ## The table keeps what the history says -/

@[simp] def RoutingOp.write (op : RoutingOp) (nodeId : String) (entry : Option PeerEntry) :
    Option PeerEntry :=
  match op with
  | .setLocalModels _ => entry
  | .upsertPeer peer => if peer.nodeId = nodeId then some peer else entry
  | .upsertPeerMeta id host ingressPort pinned =>
    if id = nodeId then
      some ((entry.map fun peer =>
        { peer with host := host, ingressPort := ingressPort, pinned := pinned }).getD
          (.new id host ingressPort pinned))
    else entry
  | .setPeerModels id models =>
    if id = nodeId then entry.map fun peer => { peer with models := models } else entry
  | .setPeerPriority id rank =>
    if id = nodeId then entry.map fun peer => { peer with priorityRank := rank } else entry
  | .removePeer id => if id = nodeId then none else entry

theorem RoutingTable.lookup_apply (table : RoutingTable) (op : RoutingOp) (nodeId : String) :
    (table.apply op).peers.lookup nodeId = op.write nodeId (table.peers.lookup nodeId) := by
  cases op with
  | setLocalModels models => rfl
  | upsertPeer peer =>
    by_cases same : peer.nodeId = nodeId
    · subst same
      simp [apply, upsertPeer, RoutingOp.write]
    · simp [apply, upsertPeer, RoutingOp.write, same, AList.lookup_insert_ne (Ne.symm same)]
  | upsertPeerMeta id host ingressPort pinned =>
    by_cases same : id = nodeId
    · subst same
      cases found : table.peers.lookup id <;>
        simp [apply, upsertPeerMeta, RoutingOp.write, found]
    · simp [apply, upsertPeerMeta, RoutingOp.write, same, AList.lookup_insert_ne (Ne.symm same)]
  -- The setters change an entry in place, so that a peer without one gets none.
  | setPeerModels id models =>
    by_cases same : id = nodeId
    · subst same
      cases found : table.peers.lookup id <;>
        simp [apply, setPeerModels, RoutingOp.write, found]
    · cases found : table.peers.lookup id <;>
        simp [apply, setPeerModels, RoutingOp.write, found, same,
          AList.lookup_insert_ne (Ne.symm same)]
  | setPeerPriority id rank =>
    by_cases same : id = nodeId
    · subst same
      cases found : table.peers.lookup id <;>
        simp [apply, setPeerPriority, RoutingOp.write, found]
    · cases found : table.peers.lookup id <;>
        simp [apply, setPeerPriority, RoutingOp.write, found, same,
          AList.lookup_insert_ne (Ne.symm same)]
  | removePeer id =>
    by_cases same : id = nodeId
    · subst same
      simp [apply, removePeer, RoutingOp.write]
    · simp [apply, removePeer, RoutingOp.write, same, AList.lookup_erase_ne (Ne.symm same)]

/-- An entry that holds what the history says of the peer. -/
structure Recorded (nodeId : String) (history : List RoutingOp) (entry : Option PeerEntry) :
    Prop where
  entered : entry.isSome = History.entered nodeId history
  named : ∀ peer ∈ entry, peer.nodeId = nodeId
  pinned : (entry.map PeerEntry.pinned).getD false = History.pinned nodeId history
  models : (entry.map PeerEntry.models).getD [] = History.models nodeId history
  rank : entry.bind PeerEntry.priorityRank = History.rank nodeId history
  manual : (entry.map PeerEntry.manuallySelected).getD false = History.manual nodeId history

theorem Recorded.write {nodeId : String} {history : List RoutingOp} {entry : Option PeerEntry}
    (op : RoutingOp) (recorded : Recorded nodeId history entry) :
    Recorded nodeId (op :: history) (op.write nodeId entry) := by
  obtain ⟨entered, named, pinned, models, rank, manual⟩ := recorded
  cases op with
  | setLocalModels _ => exact ⟨entered, named, pinned, models, rank, manual⟩
  | upsertPeer peer =>
    by_cases same : peer.nodeId = nodeId
    · constructor <;> simp [same]
    · constructor <;> simp_all
  -- An entry that is there keeps its models, its rank and its selection.
  | upsertPeerMeta id host ingressPort pin =>
    by_cases same : id = nodeId
    · cases entry <;> constructor <;> simp_all [PeerEntry.new]
    · constructor <;> simp_all
  | setPeerModels id learned =>
    by_cases same : id = nodeId
    · cases entry <;> constructor <;> simp_all
    · constructor <;> simp_all
  | setPeerPriority id given =>
    by_cases same : id = nodeId
    · cases entry <;> constructor <;> simp_all
    · constructor <;> simp_all
  | removePeer id =>
    by_cases same : id = nodeId
    · constructor <;> simp [same]
    · constructor <;> simp_all

namespace RoutingTable

/-- A table that holds what the history says, in whatever order it is enumerated. -/
structure Keeps (table : RoutingTable) (localId : String) (history : List RoutingOp) : Prop where
  localModels : table.localModels = History.localModels history
  localId : table.localId = localId
  peers : ∀ nodeId, Recorded nodeId history (table.peers.lookup nodeId)

variable {table other : RoutingTable} {localId : String} {history : List RoutingOp}

theorem Reordered.refl (table : RoutingTable) : table.Reordered table := ⟨rfl, rfl, .refl _⟩

theorem Keeps.apply (keeps : table.Keeps localId history) (op : RoutingOp) :
    (table.apply op).Keeps localId (op :: history) where
  localModels := by
    have before := keeps.localModels
    cases op with
    | setLocalModels models => rfl
    | upsertPeer peer => exact before
    | upsertPeerMeta id host ingressPort pin => exact before
    | setPeerModels id models =>
      rw [RoutingTable.apply, setPeerModels]
      split <;> exact before
    | setPeerPriority id rank =>
      rw [RoutingTable.apply, setPeerPriority]
      split <;> exact before
    | removePeer id => exact before
  localId := by
    have before := keeps.localId
    cases op with
    | setPeerModels id models =>
      rw [RoutingTable.apply, setPeerModels]
      split <;> exact before
    | setPeerPriority id rank =>
      rw [RoutingTable.apply, setPeerPriority]
      split <;> exact before
    | _ => exact before
  peers nodeId := by
    rw [lookup_apply]
    exact (keeps.peers nodeId).write op

/-- Every history leaves a table that holds what it says. -/
theorem after_keeps (localId : String) (history : List RoutingOp) :
    (after localId history).Keeps localId history := by
  induction history with
  | nil =>
    refine ⟨rfl, rfl, fun nodeId => ?_⟩
    rw [after, lookup_new]
    exact ⟨rfl, fun _ wrong => (Option.not_mem_none _ wrong).elim, rfl, rfl, rfl, rfl⟩
  | cons op earlier ih => exact ih.apply op

theorem Reordered.keeps (same : other.Reordered table) (keeps : table.Keeps localId history) :
    other.Keeps localId history where
  localModels := same.localModels.trans keeps.localModels
  localId := same.localId.trans keeps.localId
  peers nodeId := by
    rw [AList.perm_lookup same.peers]
    exact keeps.peers nodeId

end RoutingTable

/-! ## Nodes -/

/-- A node that can be asked to serve. -/
inductive Target where
  | self
  | peer (nodeId : String)
  deriving DecidableEq, Repr

def Candidate.target (candidate : Candidate) : Target :=
  if candidate.isSelf then .self else .peer candidate.nodeId

def Target.nodeId (localId : String) : Target → String
  | .self => localId
  | .peer nodeId => nodeId

namespace History

variable (history : List RoutingOp)

/-- Whether the node can be asked for the model: the local one where it serves
the model or none was named, a pinned peer where it serves the model. -/
def Eligible (model : Option String) : Target → Prop
  | .self => ∀ m, model = some m → m ∈ localModels history
  | .peer nodeId => pinned nodeId history = true ∧ ∃ m, model = some m ∧ m ∈ models nodeId history

def Manual : Target → Prop
  | .self => False
  | .peer nodeId => manual nodeId history = true

def Ranked (rank : UInt32) : Target → Prop
  | .self => False
  | .peer nodeId => History.rank nodeId history = some rank

/-- A node that can be asked has this property. -/
def Some (model : Option String) (p : Target → Prop) : Prop :=
  ∃ other, Eligible history model other ∧ p other

/-- The order of precedence: by hand, by the lowest rank, self, by the least id. -/
structure Decides (localId : String) (model : Option String) (target : Target) : Prop where
  eligible : Eligible history model target
  manual : Some history model (Manual history) → Manual history target
  ranked : ¬ Some history model (Manual history) →
    Some history model (fun other => ∃ rank, Ranked history rank other) →
      ∃ rank, Ranked history rank target ∧
        ∀ other next, Eligible history model other → Ranked history next other → rank ≤ next
  self : ¬ Some history model (Manual history) →
    ¬ Some history model (fun other => ∃ rank, Ranked history rank other) →
      Eligible history model .self → target = .self
  least : ¬ Some history model (Manual history) →
    ¬ Some history model (fun other => ∃ rank, Ranked history rank other) →
      ¬ Eligible history model .self →
        ∀ other, Eligible history model other → target.nodeId localId ≤ other.nodeId localId

end History

/-- A candidate that is what a history says of its node. -/
structure Candidate.Shows (candidate : Candidate) (localId : String) (history : List RoutingOp)
    (model : Option String) : Prop where
  nodeId : candidate.nodeId = candidate.target.nodeId localId
  self : candidate.isSelf = true ↔ candidate.target = .self
  eligible : candidate.eligible = true ↔ History.Eligible history model candidate.target
  manual : candidate.manuallySelected = true ↔ History.Manual history candidate.target
  ranked : ∀ rank, candidate.priorityRank = some rank ↔
    History.Ranked history rank candidate.target

namespace RoutingTable

variable {table : RoutingTable} {localId backend : String} {history : List RoutingOp}
  {model : Option String} {candidate : Candidate}

theorem mem_candidatesFor :
    candidate ∈ table.candidatesFor model backend ↔
      candidate = table.localCandidate model backend ∨
        ∃ m nodeId peer, model = some m ∧ table.peers.lookup nodeId = some peer ∧
          candidate = peer.candidate m := by
  unfold candidatesFor
  cases model with
  | none => simp
  | some m =>
    simp only [List.mem_cons, List.mem_map, Option.some.injEq]
    refine or_congr_right ⟨?_, ?_⟩
    · rintro ⟨⟨nodeId, peer⟩, listed, rfl⟩
      exact ⟨m, nodeId, peer, rfl, AList.mem_lookup_iff.mpr listed, rfl⟩
    · rintro ⟨_, nodeId, peer, rfl, found, rfl⟩
      exact ⟨⟨nodeId, peer⟩, AList.mem_lookup_iff.mp found, rfl⟩

namespace Keeps

variable (keeps : table.Keeps localId history)
include keeps

theorem shows_self :
    (table.localCandidate model backend).Shows localId history model where
  nodeId := keeps.localId
  self := iff_of_true rfl rfl
  eligible := by
    cases model with
    | none => simp [Candidate.eligible, localCandidate, Candidate.target, History.Eligible]
    | some m =>
      simp [Candidate.eligible, localCandidate, Candidate.target, History.Eligible,
        keeps.localModels]
  manual := iff_of_false Bool.false_ne_true not_false
  ranked rank := iff_of_false (Option.some_ne_none rank).symm not_false

theorem shows_peer {nodeId m : String} {peer : PeerEntry}
    (found : table.peers.lookup nodeId = some peer) :
    (peer.candidate m).Shows localId history (some m) := by
  have recorded := keeps.peers nodeId
  rw [found] at recorded
  have named : peer.nodeId = nodeId := recorded.named peer rfl
  have target : (peer.candidate m).target = .peer nodeId := congrArg Target.peer named
  constructor
  · rw [target]
    exact named
  · rw [target]
    exact iff_of_false Bool.false_ne_true Target.noConfusion
  · have pinned : peer.pinned = History.pinned nodeId history := recorded.pinned
    have models : peer.models = History.models nodeId history := recorded.models
    rw [target]
    simp [Candidate.eligible, PeerEntry.candidate, History.Eligible, pinned, models, and_comm]
  · rw [target]
    exact iff_of_eq (congrArg (· = true) recorded.manual)
  · intro rank
    rw [target]
    exact iff_of_eq (congrArg (· = some rank) recorded.rank)

theorem shows (listed : candidate ∈ table.candidatesFor model backend) :
    candidate.Shows localId history model := by
  rcases mem_candidatesFor.mp listed with rfl | ⟨m, nodeId, peer, rfl, found, rfl⟩
  · exact keeps.shows_self
  · exact keeps.shows_peer found

theorem exists_candidate (backend : String) {target : Target}
    (eligible : History.Eligible history model target) :
    ∃ candidate, Eligible (table.candidatesFor model backend) candidate ∧
      candidate.target = target := by
  cases target with
  | self =>
    exact ⟨_, ⟨mem_candidatesFor.mpr (.inl rfl), keeps.shows_self.eligible.mpr eligible⟩, rfl⟩
  | peer nodeId =>
    have recorded := keeps.peers nodeId
    obtain ⟨m, rfl, -⟩ := eligible.2
    -- A peer that was never entered is not pinned.
    cases found : table.peers.lookup nodeId with
    | none =>
      rw [found] at recorded
      exact absurd (recorded.pinned.trans eligible.1) Bool.false_ne_true
    | some peer =>
      rw [found] at recorded
      have target : (peer.candidate m).target = .peer nodeId :=
        congrArg Target.peer (recorded.named peer rfl)
      refine ⟨peer.candidate m, ⟨mem_candidatesFor.mpr (.inr ⟨m, nodeId, peer, rfl, found, rfl⟩),
        (keeps.shows_peer found).eligible.mpr ?_⟩, target⟩
      rw [target]
      exact eligible

theorem noneIs_iff {p : Candidate → Bool} {q : Target → Prop}
    (same : ∀ candidate, candidate.Shows localId history model →
      (p candidate = true ↔ q candidate.target)) :
    NoneIs p (table.candidatesFor model backend) ↔ ¬ History.Some history model q := by
  constructor
  · rintro none ⟨other, eligible, holds⟩
    obtain ⟨candidate, found, rfl⟩ := keeps.exists_candidate backend eligible
    exact Bool.false_ne_true ((none candidate found).symm.trans
      ((same candidate (keeps.shows found.1)).mpr holds))
  · intro none candidate found
    refine Bool.eq_false_iff.mpr fun holds => none ⟨candidate.target, ?_, ?_⟩
    · exact (keeps.shows found.1).eligible.mp found.2
    · exact (same candidate (keeps.shows found.1)).mp holds

theorem unselected_iff :
    NoneIs Candidate.manuallySelected (table.candidatesFor model backend) ↔
      ¬ History.Some history model (History.Manual history) :=
  keeps.noneIs_iff fun _ shows => shows.manual

theorem unranked_iff :
    NoneIs Candidate.ranked (table.candidatesFor model backend) ↔
      ¬ History.Some history model fun other => ∃ rank, History.Ranked history rank other :=
  keeps.noneIs_iff fun _ shows => by
    rw [Candidate.ranked, Option.isSome_iff_exists]
    exact exists_congr shows.ranked

theorem remote_iff :
    NoneIs Candidate.isSelf (table.candidatesFor model backend) ↔
      ¬ History.Eligible history model .self := by
  rw [keeps.noneIs_iff (q := (· = .self)) fun _ shows => shows.self]
  refine not_congr ⟨?_, fun eligible => ⟨.self, eligible, rfl⟩⟩
  rintro ⟨_, eligible, rfl⟩
  exact eligible

/-- The precedence among the candidates is that among the nodes. -/
theorem decides (preferred : Preferred (table.candidatesFor model backend) candidate) :
    History.Decides history localId model candidate.target := by
  have shows := keeps.shows preferred.eligible.1
  have eligible := shows.eligible.mp preferred.eligible.2
  -- A rule comes after those whose property no candidate has, and then no node has it.
  cases preferred with
  | manual _ manual =>
    have selected := shows.manual.mp manual
    have some : History.Some history model (History.Manual history) := ⟨_, eligible, selected⟩
    exact ⟨eligible, fun _ => selected, fun none => (none some).elim,
      fun none => (none some).elim, fun none => (none some).elim⟩
  | ranked _ unselected ranked lowest =>
    rw [keeps.unselected_iff] at unselected
    obtain ⟨rank, given⟩ := Option.isSome_iff_exists.mp ranked
    have placed := (shows.ranked rank).mp given
    have some : History.Some history model fun other => ∃ rank, History.Ranked history rank other :=
      ⟨_, eligible, rank, placed⟩
    refine ⟨eligible, fun some => (unselected some).elim, fun _ _ => ⟨rank, placed, ?_⟩,
      fun _ none => (none some).elim, fun _ none => (none some).elim⟩
    intro other next asked
    obtain ⟨peer, found, rfl⟩ := keeps.exists_candidate backend asked
    intro above
    have next' := ((keeps.shows found.1).ranked next).mpr above
    -- The candidate chosen by the least rank stands below that of every other node.
    have lower := lowest peer found (Option.isSome_iff_exists.mpr ⟨next, next'⟩)
    rw [Candidate.rank, Candidate.rank, given, next'] at lower
    exact UInt32.le_iff_toNat_le.mpr lower
  | self _ unselected unranked self =>
    rw [keeps.unselected_iff] at unselected
    rw [keeps.unranked_iff] at unranked
    have target := shows.self.mp self
    rw [target] at eligible ⊢
    exact ⟨eligible, fun some => (unselected some).elim, fun _ some => (unranked some).elim,
      fun _ _ _ => rfl, fun _ _ none => (none eligible).elim⟩
  | least _ unselected unranked remote least =>
    rw [keeps.unselected_iff] at unselected
    rw [keeps.unranked_iff] at unranked
    rw [keeps.remote_iff] at remote
    refine ⟨eligible, fun some => (unselected some).elim, fun _ some => (unranked some).elim,
      fun _ _ self => (remote self).elim, ?_⟩
    intro _ _ _ other asked
    obtain ⟨peer, found, rfl⟩ := keeps.exists_candidate backend asked
    rw [← shows.nodeId, ← (keeps.shows found.1).nodeId]
    exact least peer found

end Keeps

end RoutingTable

/-- After any history of writes, and in whatever order the table is enumerated,
a node is chosen exactly where one can be asked, and it is one that comes first
in the order of precedence. -/
theorem routing_decides {localId : String} {history : List RoutingOp} {table : RoutingTable}
    (same : table.Reordered (.after localId history)) (model : Option String) (backend : String) :
    (∀ candidate, select (table.candidatesFor model backend) = some candidate →
      History.Decides history localId model candidate.target) ∧
    (select (table.candidatesFor model backend) = none ↔
      ∀ target, ¬ History.Eligible history model target) := by
  have keeps := same.keeps (RoutingTable.after_keeps localId history)
  refine ⟨fun candidate chosen => keeps.decides (select_preferred chosen), ?_⟩
  rw [select_eq_none_iff]
  constructor
  · intro none target eligible
    obtain ⟨candidate, found, -⟩ := keeps.exists_candidate backend eligible
    exact none candidate found
  · intro none candidate found
    exact none candidate.target ((keeps.shows found.1).eligible.mp found.2)

namespace Reference

/-- Of two pinned peers that serve `llama3`, the second is given the lower rank;
the unpinned third one is given a lower rank still. -/
def rankedPeers : List RoutingOp :=
  [.setPeerPriority "c" (some 0), .setPeerPriority "b" (some 1), .setPeerPriority "a" (some 2),
    .setPeerModels "c" ["llama3"], .upsertPeerMeta "c" "10.0.0.7" 9443 false,
    .setPeerModels "b" ["llama3"], .upsertPeerMeta "b" "10.0.0.6" 9443 true,
    .setPeerModels "a" ["llama3"], .upsertPeerMeta "a" "10.0.0.5" 9443 true,
    .setLocalModels ["llama3"]]

def rankedPeer : PeerEntry where
  nodeId := "b"
  host := "10.0.0.6"
  ingressPort := 9443
  models := ["llama3"]
  pinned := true
  priorityRank := some 1
  manuallySelected := false

theorem rankedPeer_selected :
    select ((RoutingTable.after "self" rankedPeers).candidatesFor (some "llama3")
      "127.0.0.1:11434") = some (rankedPeer.candidate "llama3") := by
  decide

end Reference

theorem routing_decides_ranked :
    History.Decides Reference.rankedPeers "self" (some "llama3") (.peer "b") :=
  (routing_decides (.refl (.after "self" Reference.rankedPeers)) (some "llama3")
    "127.0.0.1:11434").1 _ Reference.rankedPeer_selected

end OpenPair
