import OpenPair.Daemon.Effects

/-! The port under which a node reaches a peer's `/ingress`.

Two writers put it into the routing table: the discovery loop takes it from the
peer's advertisement, which carries the port of node-info, and `pair` from the
peer's status, which carries that of `/ingress`.
-/

set_option autoImplicit false

namespace OpenPair

open Tasks Transition

namespace Daemon

variable (d : Setup) (config : NodeConfig)

/-- What a turn reads of the peer is the peer's: resolved from its advertisement,
answered with its status. -/
def TurnFrom (io : Io) : Point → Prop
  | .receive => io.discovered.record.nodeUuid = some config.nodeUuid →
      ∃ info, Resolves config.advertisement info ∧ io.discovered = info.discovered
  | .pairStatus .. => ∀ code bytes reply, io.response = .ok (code, bytes) →
      d.ui.readStatus bytes = .ok reply → reply.nodeUuid.getD "" = config.nodeUuid →
        bytes = d.ui.writeStatus config.status
  | _ => True

def FromPeer (x : State) : Event → Prop
  | .call _ _ => True
  | .resume id io => ∀ task, x.tasks id = some task → TurnFrom d config io task.point

def Discovers (x : State) (event : Event) : Prop :=
  ∃ id io task host port pinned, event = .resume id io ∧ x.tasks id = some task ∧
    task.point = .found config.nodeUuid host port pinned

/-- Wherever the node would reach a peer, it is at this port. -/
structure ReachedAt (x : State) (nodeUuid : String) (port : UInt16) : Prop where
  stored (peer : PeerEntry) : x.shared.routing.peers.lookup nodeUuid = some peer →
    peer.ingressPort = port
  /-- By a request that is routed to it. -/
  routed (model : Option String) (backend : String) (candidate : Candidate) :
    candidate ∈ x.shared.routing.candidatesFor model backend → candidate.isSelf = false →
      candidate.nodeId = nodeUuid → candidate.ingressPort = some port
  /-- By the poller that asks for its models. -/
  probed (id : TaskId) (task : Task Call Point) (peers : List (String × String × UInt16)) :
    x.tasks id = some task → task.point = .fetchModels peers →
      ∀ peer ∈ peers, peer.1 = nodeUuid → peer.2.2 = port

/-- A task that has read of the peer holds what the peer has told. -/
def PointFrom : Point → Prop
  | .found nodeUuid _ port _ => nodeUuid = config.nodeUuid → port = config.advertisePort
  | .pairCert _ _ nodeUuid ingressPort =>
    nodeUuid = config.nodeUuid → ingressPort = config.ingressPort
  | .pairPush _ nodeUuid ingressPort =>
    nodeUuid = config.nodeUuid → ingressPort = config.ingressPort
  | _ => True

structure Told (x : State) : Prop where
  keyed : Keyed x.shared.routing
  points (id : TaskId) (task : Task Call Point) : x.tasks id = some task →
    PointFrom config task.point

section

variable {d config} {t : Tables} {x : State}

theorem point_probes (rest : List (String × String × UInt16)) :
    PointFrom config (probes t rest).point := by
  cases rest with
  | nil => trivial
  | cons peer rest => trivial

theorem point_start (call : Call) : PointFrom config (start d t call).point := by
  cases call with
  | browse => trivial
  | pollPeers => trivial
  | pollLocal => trivial
  | pinPeer faults cwd paired => trivial
  | addCert body =>
    simp only [start, addCert]
    split
    · split
      · trivial
      · trivial
    · trivial
  | pair body =>
    simp only [start, pair]
    split
    · trivial
    · trivial
    · split
      · trivial
      · trivial

theorem point_receive {peer : DiscoveredPeer}
    (own : peer.record.nodeUuid = some config.nodeUuid →
      ∃ info, Resolves config.advertisement info ∧ peer = info.discovered) :
    PointFrom config (receive d t peer).point := by
  unfold receive
  cases named : peer.node d.nodeId with
  | none => trivial
  | some nodeUuid =>
    intro same
    subst same
    obtain ⟨id, read, other⟩ := Option.bind_eq_some_iff.mp named
    split at other
    · cases other
      obtain ⟨info, found, rfl⟩ := own read
      exact (config.resolved found).2
    · cases other

theorem point_pairStatus (lawful : d.ui.Lawful) {host : String} {port : UInt16}
    {response : Except String (UInt16 × Bytes)}
    (own : ∀ code bytes reply, response = .ok (code, bytes) → d.ui.readStatus bytes = .ok reply →
      reply.nodeUuid.getD "" = config.nodeUuid → bytes = d.ui.writeStatus config.status) :
    PointFrom config (pairStatus d t host port response).point := by
  unfold pairStatus
  cases response with
  | error e => trivial
  | ok reply =>
    obtain ⟨code, bytes⟩ := reply
    dsimp only
    cases read : d.ui.readStatus bytes with
    | error e => trivial
    | ok status =>
      intro same
      have sent := own code bytes status rfl read same
      rw [sent, lawful.readStatus_writeStatus] at read
      cases read
      exact UInt16.toUInt16_toUInt64 config.ingressPort

theorem point_pairCert {host nodeUuid : String} {port ingressPort : UInt16}
    (told : nodeUuid = config.nodeUuid → ingressPort = config.ingressPort)
    (response : Except String (UInt16 × Bytes)) :
    PointFrom config (pairCert d t host port nodeUuid ingressPort response).point := by
  unfold pairCert
  split
  · trivial
  · split
    · trivial
    · split
      · trivial
      · exact told

theorem point_advance (lawful : d.ui.Lawful) {io : Io} {point : Point}
    (own : TurnFrom d config io point) (told : PointFrom config point) :
    PointFrom config (advance d t io point).point := by
  cases point with
  | receive => exact point_receive own
  | found nodeUuid host port pinned => trivial
  | listPeers => exact point_probes t.routing.pinnedPeers
  | fetchModels peers =>
    simp only [advance, learnModels]
    split
    · trivial
    · split
      · exact point_probes _
      · exact point_probes _
  | fetchLocal =>
    simp only [advance, learnLocal]
    split
    · trivial
    · trivial
  | pairStatus host port => exact point_pairStatus lawful own
  | pairCert host port nodeUuid ingressPort => exact point_pairCert told io.response
  | pairPush host nodeUuid ingressPort =>
    simp only [advance, pairPush]
    split
    · trivial
    · split
      · trivial
      · trivial
  | returned => trivial

theorem told_step (lawful : d.ui.Lawful) {event : Event} (own : FromPeer d config x event)
    (told : Told config x) : Told config ((program d).step x event).1 where
  keyed := keyed_step x event told.keyed
  points id task found := by
    by_cases mine : id = (program d).id event
    · rcases step_cases (program d) x event with idle | ⟨serial, call, rfl, -, started⟩ |
        ⟨turn, io, before, rfl, waiting, advanced⟩
      · rw [idle] at found
        exact told.points id task found
      · rw [started, mine] at found
        cases (put_self _ _ _).symm.trans found
        exact point_start call
      · rw [advanced, mine] at found
        cases (put_self _ _ _).symm.trans found
        exact point_advance lawful (own before waiting) (told.points turn before waiting)
    · rw [step_tasks_other mine] at found
      exact told.points id task found

/-! ## The port of an entry -/

theorem status_port (known : config.ingressPort ≠ 0) : config.servedPort = config.ingressPort :=
  if_neg known

/-- Who writes an entry: the discovery loop, or a dashboard call once its peer has
accepted the certificate. -/
theorem effect_entry {event : Event} {nodeUuid host : String} {port : UInt16} {pinned : Bool}
    (wrote : effect d x event = some (.entry nodeUuid host port pinned)) :
    ∃ id io task, event = .resume id io ∧ x.tasks id = some task ∧
      (task.point = .found nodeUuid host port pinned ∨
        task.point = .pairPush host nodeUuid port ∧ port ≠ 0) := by
  cases event with
  | call serial call =>
    -- Before its first await point a call pins at most.
    unfold effect Program.effect at wrote
    dsimp only at wrote
    split at wrote
    · cases wrote
    · cases call with
      | pinPeer faults cwd paired =>
        obtain ⟨der, -, named⟩ := Option.bind_eq_some_iff.mp wrote
        obtain ⟨uuid, -, wrong⟩ := Option.map_eq_some_iff.mp named
        cases wrong
      | addCert body =>
        obtain ⟨der, -, named⟩ := Option.bind_eq_some_iff.mp wrote
        obtain ⟨uuid, -, wrong⟩ := Option.map_eq_some_iff.mp named
        cases wrong
      | _ => cases wrote
  | resume id io =>
    obtain ⟨task, waiting, turned⟩ := Option.bind_eq_some_iff.mp wrote
    refine ⟨id, io, task, rfl, waiting, ?_⟩
    cases point : task.point with
    | found nodeUuid' host' port' pinned' =>
      rw [point] at turned
      cases turned
      exact .inl rfl
    | pairPush host' nodeUuid' ingressPort =>
      rw [point] at turned
      obtain ⟨reply, -, turned⟩ := Option.bind_eq_some_iff.mp turned
      split at turned
      · next accepted =>
        cases turned
        exact .inr ⟨rfl, accepted.2⟩
      · cases turned
    | pairCert host' port' nodeUuid' ingressPort =>
      rw [point] at turned
      obtain ⟨reply, -, sent⟩ := Option.bind_eq_some_iff.mp turned
      obtain ⟨der, -, named⟩ := Option.bind_eq_some_iff.mp sent
      obtain ⟨uuid, -, wrong⟩ := Option.map_eq_some_iff.mp named
      cases wrong
    | fetchModels peers =>
      rw [point] at turned
      cases peers with
      | nil => cases turned
      | cons peer rest =>
        obtain ⟨models, -, wrong⟩ := Option.map_eq_some_iff.mp turned
        cases wrong
    | fetchLocal =>
      rw [point] at turned
      obtain ⟨models, -, wrong⟩ := Option.map_eq_some_iff.mp turned
      cases wrong
    | _ =>
      rw [point] at turned
      cases turned

/-- An entry that is written for the peer has its advertised port from the
discovery loop, else the port it serves on. -/
theorem entry_port (told : Told config x) {event : Event} {host : String} {port : UInt16}
    {pinned : Bool} (wrote : effect d x event = some (.entry config.nodeUuid host port pinned)) :
    (Discovers config x event ∧ port = config.advertisePort) ∨ port = config.servedPort := by
  obtain ⟨id, io, task, same, waiting, point⟩ := effect_entry wrote
  have kept := told.points id task waiting
  rcases point with point | ⟨point, known⟩
  · left
    rw [point] at kept
    exact ⟨⟨id, io, task, host, port, pinned, same, waiting, point⟩, kept rfl⟩
  · right
    rw [point] at kept
    have ingress := kept rfl
    rw [status_port (ingress ▸ known)]
    exact ingress

theorem stored_step (told : Told config x) (event : Event)
    (stored : ∀ peer, x.shared.routing.peers.lookup config.nodeUuid = some peer →
      peer.ingressPort = config.servedPort) :
    (∀ peer, ((program d).step x event).1.shared.routing.peers.lookup config.nodeUuid = some peer →
        peer.ingressPort = config.servedPort) ↔
      (Discovers config x event → config.advertisePort = config.servedPort) := by
  constructor
  · -- The loop writes the port of the advertisement, which the entry then holds.
    rintro after ⟨id, io, task, host, port, pinned, rfl, waiting, point⟩
    have wrote : effect d x (.resume id io) =
        some (.entry config.nodeUuid host port pinned) := by
      simp only [effect, Program.effect, waiting, Option.bind_some, point, turnEffect]
    have advertised := told.points id task waiting
    rw [point] at advertised
    obtain ⟨peer, found, ported, -⟩ := x.shared.routing.lookup_upsertPeerMeta_self
      config.nodeUuid host port pinned
    have served : peer.ingressPort = config.servedPort := by
      apply after peer
      rw [routing_step, wrote]
      exact found
    rw [← advertised rfl, ← ported, served]
  · intro agree peer found
    rw [routing_step] at found
    cases wrote : effect d x event with
    | none =>
      rw [wrote] at found
      exact stored peer found
    | some effect =>
      rw [wrote] at found
      cases effect with
      | pin nodeUuid der => exact stored peer found
      | localModels models => exact stored peer found
      | models nodeUuid models =>
        have same := x.shared.routing.lookup_setPeerModels nodeUuid models PeerEntry.ingressPort
          config.nodeUuid fun _ _ => rfl
        change (x.shared.routing.setPeerModels nodeUuid models).peers.lookup config.nodeUuid =
          some peer at found
        rw [found] at same
        obtain ⟨before, held, same⟩ := Option.map_eq_some_iff.mp same.symm
        exact same.symm.trans (stored before held)
      | entry nodeUuid host port pinned =>
        change (x.shared.routing.upsertPeerMeta nodeUuid host port pinned).peers.lookup
          config.nodeUuid = some peer at found
        by_cases own : config.nodeUuid = nodeUuid
        · subst own
          obtain ⟨written, found', ported, -⟩ := x.shared.routing.lookup_upsertPeerMeta_self
            config.nodeUuid host port pinned
          obtain rfl := Option.some.inj (found.symm.trans found')
          rw [ported]
          rcases entry_port told wrote with ⟨discovers, advertised⟩ | served
          · exact advertised.trans (agree discovers)
          · exact served
        · rw [RoutingTable.lookup_upsertPeerMeta_ne own] at found
          exact stored peer found

/-! ## Where requests go -/

theorem candidate_port {table : RoutingTable} {nodeUuid : String} {port : UInt16}
    (keyed : Keyed table)
    (stored : ∀ peer, table.peers.lookup nodeUuid = some peer → peer.ingressPort = port)
    {model : Option String} {backend : String} {candidate : Candidate}
    (listed : candidate ∈ table.candidatesFor model backend) (other : candidate.isSelf = false)
    (named : candidate.nodeId = nodeUuid) : candidate.ingressPort = some port := by
  rcases List.mem_cons.mp listed with rfl | listed
  · cases other
  · cases model with
    | none => cases listed
    | some model =>
      obtain ⟨⟨key, peer⟩, entry, rfl⟩ := List.mem_map.mp listed
      have found : table.peers.lookup key = some peer := AList.mem_lookup_iff.mpr entry
      have same : key = nodeUuid := (keyed key peer found).symm.trans named
      rw [same] at found
      exact congrArg some (stored peer found)

/-- No other point is left or reached by a poller with peers to ask. -/
def Fetching : Point → Prop
  | .listPeers => True
  | .fetchModels _ => True
  | _ => False

theorem fetching_start (call : Call) : ∀ peers, (start d t call).point ≠ .fetchModels peers := by
  intro peers next
  cases call with
  | browse => cases next
  | pollPeers => cases next
  | pollLocal => cases next
  | pinPeer faults cwd paired => cases next
  | addCert body =>
    simp only [start, addCert] at next
    split at next
    · split at next
      · cases next
      · cases next
    · cases next
  | pair body =>
    simp only [start, pair] at next
    split at next
    · cases next
    · cases next
    · split at next
      · cases next
      · cases next

theorem fetching_advance {io : Io} {point : Point} {peers : List (String × String × UInt16)}
    (next : (advance d t io point).point = .fetchModels peers) : Fetching point := by
  -- A poll goes on with peers only from the list it began with.
  cases point with
  | listPeers => trivial
  | fetchModels before => trivial
  | receive =>
    simp only [advance, receive] at next
    split at next
    · cases next
    · cases next
  | found nodeUuid host port pinned => cases next
  | fetchLocal =>
    simp only [advance, learnLocal] at next
    split at next
    · cases next
    · cases next
  | pairStatus host port =>
    simp only [advance, pairStatus] at next
    split at next
    · cases next
    · split at next
      · cases next
      · cases next
  | pairCert host port nodeUuid ingressPort =>
    simp only [advance, pairCert] at next
    split at next
    · cases next
    · split at next
      · cases next
      · split at next
        · cases next
        · cases next
  | pairPush host nodeUuid ingressPort =>
    simp only [advance, pairPush] at next
    split at next
    · cases next
    · split at next
      · cases next
      · cases next
  | returned => cases next

theorem probes_next {rest peers : List (String × String × UInt16)}
    (next : (probes t rest).point = .fetchModels peers) : peers = rest := by
  cases rest with
  | nil => cases next
  | cons peer rest =>
    cases next
    rfl

theorem fetch_advance {io : Io} {point : Point} {peers : List (String × String × UInt16)}
    (next : (advance d t io point).point = .fetchModels peers) :
    peers = t.routing.pinnedPeers ∨ ∃ peer, point = .fetchModels (peer :: peers) := by
  have fetching := fetching_advance next
  cases point with
  | listPeers => exact .inl (probes_next next)
  | fetchModels before =>
    right
    cases before with
    | nil => cases next
    | cons peer rest =>
      have left : peers = rest := by
        simp only [advance, learnModels] at next
        split at next
        · exact probes_next next
        · exact probes_next next
      exact ⟨peer, by rw [left]⟩
  | _ => exact absurd fetching id

theorem reachedAt_step (told : Told config x) (event : Event)
    (reached : ReachedAt x config.nodeUuid config.servedPort) :
    ReachedAt ((program d).step x event).1 config.nodeUuid config.servedPort ↔
      (Discovers config x event → config.advertisePort = config.servedPort) := by
  rw [← stored_step told event reached.stored]
  constructor
  · exact ReachedAt.stored
  · intro stored
    constructor
    · exact stored
    · intro model backend candidate
      exact candidate_port (keyed_step x event told.keyed) stored
    · intro id task peers found fetching
      -- A refresh holds the peers that it listed, until it lists them again.
      by_cases mine : id = (program d).id event
      · rcases step_cases (program d) x event with idle | ⟨serial, call, rfl, -, started⟩ |
          ⟨turn, io, before, rfl, waiting, advanced⟩
        · rw [idle] at found
          exact reached.probed id task peers found fetching
        · rw [started, mine] at found
          cases (put_self _ _ _).symm.trans found
          exact absurd fetching (fetching_start call peers)
        · rw [advanced, mine] at found
          cases (put_self _ _ _).symm.trans found
          rcases fetch_advance fetching with rfl | ⟨head, asked⟩
          · -- The list is read off the entries.
            rintro ⟨nodeUuid, host, port⟩ listed named
            obtain ⟨key, peer, entry, same, rfl⟩ := RoutingTable.mem_pinnedPeers listed
            have own : key = config.nodeUuid :=
              (told.keyed key peer entry).symm.trans (same.trans named)
            rw [own] at entry
            exact reached.stored peer entry
          · intro peer member
            exact reached.probed turn before _ waiting asked peer (List.mem_cons_of_mem _ member)
      · rw [step_tasks_other mine] at found
        exact reached.probed id task peers found fetching

end

/-- In a run in which what is read of a peer comes from it, the node reaches it
always at the port it serves on exactly when the discovery loop never writes its
entry, or it advertises that port. -/
theorem ingress_port_iff (lawful : d.ui.Lawful) (config : NodeConfig) (sink : ClusterTrustSink)
    (events : List Event)
    (own : EveryStep (fun _ e => FromPeer d config e.before e.input)
      (trace (program d).step (fresh d sink) events)) :
    Throughout (program d).step (fun x => ReachedAt x config.nodeUuid config.servedPort)
        (fresh d sink) events ↔
      ((∃ e ∈ trace (program d).step (fresh d sink) events, Discovers config e.before e.input) →
        config.advertisePort = config.servedPort) := by
  -- Nothing is known of the peer yet, and no call waits.
  have start : Told config (fresh d sink) := by
    constructor
    · intro key peer found
      cases found
    · intro id task found
      cases found
  have reached : ReachedAt (fresh d sink) config.nodeUuid config.servedPort := by
    constructor
    · intro peer found
      cases found
    · intro model backend candidate
      apply candidate_port start.keyed
      intro peer found
      cases found
    · intro id task peers found
      cases found
  rw [EveryStep.reached_iff (fun x => ReachedAt x config.nodeUuid config.servedPort) (Told config)
    (FromPeer d config)
    (fun x event => Discovers config x event → config.advertisePort = config.servedPort)
    (fun x event own told _ => told_step lawful own told)
    (fun x event _ told reached => reachedAt_step told event reached) own start reached]
  constructor
  · rintro every ⟨e, member, discovers⟩
    obtain ⟨before, after, split⟩ := List.append_of_mem member
    exact every before e after split discovers
  · intro agree
    apply EveryStep.of_forall
    intro e member discovers
    exact agree ⟨e, member, discovers⟩

theorem peerDiscovery_own (config : NodeConfig) (sink : ClusterTrustSink) :
    EveryStep (fun _ e => FromPeer Reference.setup config e.before e.input)
      (trace (program Reference.setup).step (fresh Reference.setup sink)
        (Reference.peerDiscovery config)) := by
  have read (point : Point) :
      TurnFrom Reference.setup config (Reference.foundPeer config) point := by
    cases point with
    | receive =>
      intro _
      exact ⟨config.advertisement, ⟨rfl, rfl, List.Perm.refl _⟩, rfl⟩
    | pairStatus host port =>
      intro code bytes reply answered
      cases answered
    | _ => trivial
  apply EveryStep.of_forall
  intro e member
  obtain ⟨first, event, rest, split, rfl⟩ := mem_trace (program Reference.setup).step member
  have inside : event ∈ Reference.peerDiscovery config := by
    rw [split]
    exact List.mem_append_right _ List.mem_cons_self
  simp only [Reference.peerDiscovery, List.mem_cons, List.not_mem_nil, or_false] at inside
  rcases inside with rfl | rfl | rfl
  · trivial
  · exact fun task _ => read task.point
  · exact fun task _ => read task.point

/-- A peer that advertises its ingress port is reached there. -/
theorem ingress_port_advertised :
    Throughout (program Reference.setup).step
      (fun x => ReachedAt x Reference.alignedConfig.nodeUuid Reference.alignedConfig.servedPort)
      (fresh Reference.setup Reference.memorySink)
      (Reference.peerDiscovery Reference.alignedConfig) := by
  apply (ingress_port_iff Reference.setup Reference.uiCrates_lawful Reference.alignedConfig
    Reference.memorySink _ (peerDiscovery_own _ Reference.memorySink)).mpr
  intro _
  decide

/-- With the default ports a discovered peer is asked at its node-info port. -/
theorem discovered_at_nodeinfo_port :
    EveryStep (fun _ e => FromPeer Reference.setup Reference.joinerConfig e.before e.input)
        (trace (program Reference.setup).step (fresh Reference.setup Reference.memorySink)
          (Reference.peerDiscovery Reference.joinerConfig)) ∧
      ¬ Throughout (program Reference.setup).step
        (fun x => ReachedAt x Reference.joinerConfig.nodeUuid Reference.joinerConfig.servedPort)
        (fresh Reference.setup Reference.memorySink)
        (Reference.peerDiscovery Reference.joinerConfig) := by
  constructor
  · exact peerDiscovery_own Reference.joinerConfig Reference.memorySink
  · intro every
    have reached := every _ [] (List.append_nil _).symm
    have entry : (run (program Reference.setup).step (fresh Reference.setup Reference.memorySink)
        (Reference.peerDiscovery Reference.joinerConfig)).shared.routing.peers.lookup
          Reference.joinerConfig.nodeUuid =
        some (.new Reference.joinerConfig.nodeUuid "joiner.local" 7071 false) :=
      AList.lookup_insert _
    have wrong : (7071 : UInt16) = 7443 := reached.stored _ entry
    exact absurd wrong (by decide)

end Daemon

end OpenPair
