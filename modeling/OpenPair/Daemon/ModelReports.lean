import OpenPair.Daemon.Effects
import OpenPair.Proxy.DefaultTag
import OpenPair.Proxy.Mesh

/-! Where the models that a node routes by come from (`tags.rs`, the pollers of
`main.rs`): from its own engine, and from the peers it reaches over mutual TLS.
-/

set_option autoImplicit false

namespace OpenPair

open Tasks Transition

section

variable {V : Type} (v : ValueCrate V) (c : ProxyCrates)

def tagsPath : String := "/api/tags"

def fetchLocalModels (engine : Backend) : Except String (List String) :=
  match engine ⟨"GET", tagsPath, []⟩ with
  | .error e => .error e
  | .ok response =>
    if response.status ≠ 200 then .error s!"local /api/tags returned {response.status}"
    else .ok (parseOllamaTags v response.body)

def tagsProbe : IngressEnvelope := { method := some "GET", path := some tagsPath }

-- `fetch_peer_models`, whatever the status in the reply.
def fetchPeerModels (network : Network) (host : String) (port : UInt16) :
    Except String (List String) :=
  match forwardToPeer c network host port tagsProbe with
  | .error e => .error e
  | .ok reply => .ok (parseOllamaTags v (utf8 (reply.data.getD "")))

def TlsServer.Reports (server : TlsServer) (models : List String) : Prop :=
  ∃ reply, isSuccess (server.answer ingressPath (c.encodeEnvelope tagsProbe)).status = true ∧
    c.decodeEnvelope (server.answer ingressPath (c.encodeEnvelope tagsProbe)).body = .ok reply ∧
    models = parseOllamaTags v (utf8 (reply.data.getD ""))

def Backend.Reports (engine : Backend) (models : List String) : Prop :=
  ∃ response, engine ⟨"GET", tagsPath, []⟩ = .ok response ∧ response.status = 200 ∧
    models = parseOllamaTags v response.body

variable {v c} {models : List String}

theorem fetchPeerModels_ok {tls : TlsCrate} {n : ProxyNode} {servers : Servers} {host : String}
    {port : UInt16} (fetched : fetchPeerModels v c (n.dial tls servers) host port = .ok models) :
    ∃ server, servers host port = .ok server ∧ n.verifier.accept server.certDer = true ∧
      server.accepts n.certDer = true ∧ server.Reports v c models := by
  unfold fetchPeerModels forwardToPeer ProxyNode.dial at fetched
  cases found : servers host port with
  | error e => simp [found] at fetched
  | ok server =>
    simp only [found] at fetched
    cases accepts : n.verifier.accept server.certDer with
    | false => simp [accepts] at fetched
    | true =>
      cases accepted : server.accepts n.certDer with
      | false => simp [accepts, accepted] at fetched
      | true =>
        simp only [accepts, accepted, Bool.true_eq_false, if_false] at fetched
        refine ⟨server, rfl, accepts, accepted, ?_⟩
        cases success : isSuccess (server.answer ingressPath (c.encodeEnvelope tagsProbe)).status with
        | false => simp [success] at fetched
        | true =>
          simp only [success, Bool.true_eq_false, if_false] at fetched
          cases read : c.decodeEnvelope (server.answer ingressPath (c.encodeEnvelope tagsProbe)).body with
          | error e => simp [read] at fetched
          | ok reply =>
            simp only [read, Except.ok.injEq] at fetched
            exact ⟨reply, success, read, fetched.symm⟩

theorem fetchLocalModels_ok {engine : Backend} (fetched : fetchLocalModels v engine = .ok models) :
    engine.Reports v models := by
  unfold fetchLocalModels at fetched
  split at fetched
  · cases fetched
  · next response answered =>
    split at fetched
    · cases fetched
    · next found =>
      cases fetched
      exact ⟨response, answered, not_not.mp found, rfl⟩

end

/-! ## A peer behind its receiver -/

section

variable {V : Type} {v : ValueCrate V} {c : ProxyCrates} {tls : TlsCrate} {near far : ProxyNode}
  {servers : Servers} {host : String} {port : UInt16}

/-- A node reaches another, and each accepts the other's certificate. -/
structure ProxyNode.Reaches (c : ProxyCrates) (servers : Servers) (near far : ProxyNode)
    (host : String) (port : UInt16) : Prop where
  listens : servers host port = .ok (far.ingress c)
  accepts : near.verifier.accept far.certDer = true
  accepted : far.verifier.accept near.certDer = true

namespace ProxyNode

theorem Reaches.dial (reaches : Reaches c servers near far host port) :
    near.dial tls servers host port = .ok (ingressHandle c far.engine) := by
  have accepted : (far.ingress c).accepts near.certDer = true := reaches.accepted
  have accepts : near.verifier.accept (far.ingress c).certDer = true := reaches.accepts
  simp only [ProxyNode.dial, reaches.listens, accepts, accepted, Bool.true_eq_false, if_false]
  rfl

variable (tls) in
/-- The peer's engine answers an envelope. -/
theorem Reaches.forward (lawful : c.Lawful) (reaches : Reaches c servers near far host port)
    (env : IngressEnvelope) :
    forwardToPeer c (near.dial tls servers) host port env = .ok (ingressReply far.engine env) := by
  have success : isSuccess 200 = true := by decide
  have path : ¬ ingressPath ≠ ingressPath := not_not_intro rfl
  simp only [forwardToPeer, reaches.dial, ingressHandle, if_neg path, lawful.envelope, success,
    Bool.true_eq_false, if_false]

theorem Reaches.fetched (lawful : c.Lawful) (reaches : Reaches c servers near far host port)
    {listing : ProxyResponse} (lists : far.engine ⟨"GET", tagsPath, []⟩ = .ok listing) :
    fetchPeerModels v c (near.dial tls servers) host port =
      .ok (parseOllamaTags v (utf8 (fromUtf8Lossy listing.body))) := by
  have probe : ingressReply far.engine tagsProbe =
      { code := some listing.status, data := some (fromUtf8Lossy listing.body), txt := some "ok" } := by
    have asked : (⟨"GET", tagsPath, utf8 ""⟩ : ProxyRequest) = ⟨"GET", tagsPath, []⟩ := rfl
    simp only [ingressReply, tagsProbe, Option.getD_some, Option.getD_none, asked, lists]
  simp only [fetchPeerModels, reaches.forward tls lawful, probe, Option.getD_some]

end ProxyNode

end

namespace Daemon

/-- What a node can reach at a moment, and its engine then. -/
structure Moment where
  servers : Servers
  engine : Backend

/-- A node with its certificate and the crates of its pollers. -/
structure Wiring (V : Type) where
  setup : Setup
  certDer : Bytes
  values : ValueCrate V
  proxy : ProxyCrates
  tls : TlsCrate

/-- Who is yet to be polled is in the table. -/
def ListedAt (table : RoutingTable) : Point → Prop
  | .fetchModels peers => ∀ peer ∈ peers, (table.peers.lookup peer.1).isSome
  | _ => True

def Listed (x : State) : Prop :=
  ∀ id task, x.tasks id = some task → ListedAt x.shared.routing task.point

namespace Wiring

variable {V : Type} (w : Wiring V)

def node (t : Tables) (backend : String) (engine : Backend) : ProxyNode :=
  { certDer := w.certDer
    pins := ⟨t.pins, false⟩
    routing := t.routing
    backend := backend
    engine := engine }

def fetched (t : Tables) (moment : Moment) (io : Io) : Point → Io
  | .fetchModels ((_, host, port) :: _) =>
    let network := (w.node t "" moment.engine).dial w.tls moment.servers
    { io with models := fetchPeerModels w.values w.proxy network host port }
  | .fetchLocal => { io with models := fetchLocalModels w.values moment.engine }
  | _ => io

def live (x : State) (moment : Moment) : Event → Event
  | .call serial call => .call serial call
  | .resume id io =>
    match x.tasks id with
    | some task => .resume id (w.fetched x.shared moment io task.point)
    | none => .resume id io

def step (x : State) (input : Moment × Event) : State × Option Observed :=
  (program w.setup).step x (w.live x input.1 input.2)

abbrev Step := Entry State (Moment × Event) (Option Observed)

def effectOf (e : Step) : Option Effect :=
  effect w.setup e.before (w.live e.before e.input.1 e.input.2)

def Polled (nodeId : String) (models : List String) (e : Step) : Prop :=
  w.effectOf e = some (.models nodeId models)

def LocalPolled (models : List String) (e : Step) : Prop :=
  w.effectOf e = some (.localModels models)

/-- What is known is the outcome of the last poll, and nothing where none has succeeded. -/
def Learned (polled : List String → Step → Prop) (history : List Step) (models : List String) :
    Prop :=
  ((∀ e ∈ history, ∀ models, ¬ polled models e) ∧ models = []) ∨
    ∃ e, LastOf (fun e => ∃ models, polled models e) history e ∧ polled models e

structure Sourced (history : List Step) (x : State) : Prop where
  keyed : Keyed x.shared.routing
  listed : Listed x
  /-- Nothing is learned of a node before it has an entry. -/
  unknown (nodeId : String) : x.shared.routing.peers.lookup nodeId = none →
    ∀ e ∈ history, ∀ models, ¬ w.Polled nodeId models e
  peers (nodeId : String) (peer : PeerEntry) : x.shared.routing.peers.lookup nodeId = some peer →
    Learned (w.Polled nodeId) history peer.models
  own : Learned w.LocalPolled history x.shared.routing.localModels

end Wiring

section

variable {d : Setup} {x : State} {event : Event} {nodeId : String} {models : List String}

theorem effect_models (learned : effect d x event = some (.models nodeId models)) :
    ∃ id io task host port rest, event = .resume id io ∧ x.tasks id = some task ∧
      task.point = .fetchModels ((nodeId, host, port) :: rest) ∧ io.models = .ok models := by
  rcases effect_cases learned with ⟨uuid, der, wrong⟩ | ⟨id, io, task, rfl, waiting, source⟩
  · cases wrong
  · generalize point : task.point = reached at source
    cases source with
    | models fetched => exact ⟨id, io, task, _, _, _, rfl, waiting, point, fetched⟩

theorem effect_localModels (learned : effect d x event = some (.localModels models)) :
    ∃ id io task, event = .resume id io ∧ x.tasks id = some task ∧ task.point = .fetchLocal ∧
      io.models = .ok models := by
  rcases effect_cases learned with ⟨uuid, der, wrong⟩ | ⟨id, io, task, rfl, waiting, source⟩
  · cases wrong
  · generalize point : task.point = reached at source
    cases source with
    | localModels fetched => exact ⟨id, io, task, rfl, waiting, point, fetched⟩

/-! ## Entries -/

variable {t : Tables}

theorem lookup_after (t : Tables) (done : Option Effect) {peer : PeerEntry}
    (other : ∀ models, done ≠ some (.models nodeId models))
    (found : t.routing.peers.lookup nodeId = some peer) :
    ∃ after, (t.after d done).2.peers.lookup nodeId = some after ∧ after.models = peer.models := by
  cases done with
  | none => exact ⟨peer, found, rfl⟩
  | some done =>
    cases done with
    | pin nodeUuid der => exact ⟨peer, found, rfl⟩
    | localModels models => exact ⟨peer, found, rfl⟩
    | entry nodeUuid host port pinned =>
      by_cases same : nodeId = nodeUuid
      · subst same
        refine ⟨{ peer with host := host, ingressPort := port, pinned := pinned }, ?_, rfl⟩
        change (t.routing.upsertPeerMeta nodeId host port pinned).peers.lookup nodeId = _
        rw [RoutingTable.upsertPeerMeta, found]
        exact AList.lookup_insert _
      · exact ⟨peer, (RoutingTable.lookup_upsertPeerMeta_ne same).trans found, rfl⟩
    | models nodeUuid models =>
      have differs : nodeId ≠ nodeUuid := by
        rintro rfl
        exact other models rfl
      refine ⟨peer, ?_, rfl⟩
      change (t.routing.setPeerModels nodeUuid models).peers.lookup nodeId = _
      unfold RoutingTable.setPeerModels
      split
      · rw [AList.lookup_insert_ne differs, found]
      · exact found

theorem lookup_after_new (t : Tables) (done : Option Effect) {after : PeerEntry}
    (absent : t.routing.peers.lookup nodeId = none)
    (found : (t.after d done).2.peers.lookup nodeId = some after) : after.models = [] := by
  have same (table : RoutingTable) (kept : table = t.routing)
      (found : table.peers.lookup nodeId = some after) : after.models = [] := by
    rw [kept, absent] at found
    cases found
  cases done with
  | none => exact same _ rfl found
  | some done =>
    cases done with
    | pin nodeUuid der => exact same _ rfl found
    | localModels models => exact same t.routing rfl found
    | entry nodeUuid host port pinned =>
      by_cases here : nodeId = nodeUuid
      · subst here
        change (t.routing.upsertPeerMeta nodeId host port pinned).peers.lookup nodeId = _ at found
        rw [RoutingTable.upsertPeerMeta, absent] at found
        obtain rfl := Option.some.inj ((AList.lookup_insert _).symm.trans found)
        rfl
      · exact same t.routing rfl ((RoutingTable.lookup_upsertPeerMeta_ne here).symm.trans found)
    | models nodeUuid models =>
      have count := t.routing.lookup_setPeerModels nodeUuid models (fun _ => ()) nodeId fun _ _ => rfl
      change (t.routing.setPeerModels nodeUuid models).peers.lookup nodeId = _ at found
      rw [found, absent] at count
      cases count

theorem lookup_after_models (t : Tables) {peer : PeerEntry}
    (found : t.routing.peers.lookup nodeId = some peer) :
    (t.after d (some (.models nodeId models))).2.peers.lookup nodeId =
      some { peer with models := models } := by
  change (t.routing.setPeerModels nodeId models).peers.lookup nodeId = _
  rw [RoutingTable.setPeerModels, found]
  exact AList.lookup_insert _

theorem localModels_after (t : Tables) (done : Option Effect)
    (other : ∀ models, done ≠ some (.localModels models)) :
    (t.after d done).2.localModels = t.routing.localModels := by
  cases done with
  | none => rfl
  | some done =>
    cases done with
    | pin nodeUuid der => rfl
    | localModels models => exact absurd rfl (other models)
    | entry nodeUuid host port pinned => rfl
    | models nodeUuid models =>
      change (t.routing.setPeerModels nodeUuid models).localModels = _
      unfold RoutingTable.setPeerModels
      split <;> rfl

theorem known_after (t : Tables) (done : Option Effect)
    (known : (t.routing.peers.lookup nodeId).isSome) :
    ((t.after d done).2.peers.lookup nodeId).isSome := by
  obtain ⟨peer, found⟩ := Option.isSome_iff_exists.mp known
  by_cases learned : ∃ models, done = some (.models nodeId models)
  · obtain ⟨models, rfl⟩ := learned
    rw [lookup_after_models t found]
    rfl
  · obtain ⟨after, found, -⟩ :=
      lookup_after (d := d) t done (fun models same => learned ⟨models, same⟩) found
    rw [found]
    rfl

/-! ## Who is polled -/

theorem listed_probes {rest : List (String × String × UInt16)} {table : RoutingTable}
    (listed : ∀ peer ∈ rest, (table.peers.lookup peer.1).isSome) :
    ListedAt table (probes t rest).point := by
  cases rest with
  | nil => trivial
  | cons peer rest => exact listed

theorem listed_pinnedPeers {table : RoutingTable} (keyed : Keyed table) :
    ∀ peer ∈ table.pinnedPeers, (table.peers.lookup peer.1).isSome := by
  rintro ⟨nodeId, host, port⟩ member
  obtain ⟨key, peer, found, named, -⟩ := RoutingTable.mem_pinnedPeers member
  rw [← named, keyed key peer found, found]
  rfl

theorem ListedAt.after {point : Point} (done : Option Effect) (listed : ListedAt t.routing point) :
    ListedAt (t.after d done).2 point := by
  cases point with
  | fetchModels peers => exact fun peer member => known_after t done (listed peer member)
  | _ => trivial

theorem listed_start (call : Call) (table : RoutingTable) : ListedAt table (start d t call).point := by
  cases call with
  | browse => trivial
  | pollPeers => trivial
  | pollLocal => trivial
  | pinPeer faults cwd paired => trivial
  | addCert body =>
    simp only [start, addCert]
    split
    · split <;> trivial
    · trivial
  | pair body =>
    simp only [start, pair]
    split
    · trivial
    · trivial
    · split <;> trivial

theorem listed_advance (keyed : Keyed t.routing) {io : Io} {point : Point} {table : RoutingTable}
    (kept : ∀ key, (t.routing.peers.lookup key).isSome → (table.peers.lookup key).isSome)
    (listed : ListedAt t.routing point) : ListedAt table (advance d t io point).point := by
  -- The peers of a poll were listed when it began, and no later write removes one.
  cases point with
  | listPeers =>
    exact listed_probes fun peer member => kept _ (listed_pinnedPeers keyed peer member)
  | fetchModels peers =>
    cases peers with
    | nil => trivial
    | cons peer rest =>
      have later : ∀ peer ∈ rest, (table.peers.lookup peer.1).isSome :=
        fun peer member => kept _ (listed peer (List.mem_cons_of_mem _ member))
      cases models : io.models with
      | error e =>
        simp only [advance, learnModels, models]
        exact listed_probes later
      | ok models' =>
        simp only [advance, learnModels, models]
        exact listed_probes later
  | receive =>
    simp only [advance, receive]
    split <;> trivial
  | found nodeUuid host port pinned => trivial
  | fetchLocal =>
    simp only [advance, learnLocal]
    split <;> trivial
  | pairStatus host port =>
    simp only [advance, pairStatus]
    split
    · trivial
    · split <;> trivial
  | pairCert host port nodeUuid ingressPort =>
    simp only [advance, pairCert]
    split
    · trivial
    · split
      · trivial
      · split <;> trivial
  | pairPush host nodeUuid ingressPort =>
    simp only [advance, pairPush]
    split
    · trivial
    · split <;> trivial
  | returned => trivial

theorem listed_step (x : State) (event : Event) (keyed : Keyed x.shared.routing)
    (listed : Listed x) : Listed ((program d).step x event).1 := by
  intro id task found
  have routing := routing_step (d := d) x event
  by_cases mine : id = (program d).id event
  · have kept (key : String) (known : (x.shared.routing.peers.lookup key).isSome) :
        (((program d).step x event).1.shared.routing.peers.lookup key).isSome := by
      rw [routing]
      exact known_after _ _ known
    rcases step_cases (program d) x event with idle | ⟨serial, call, rfl, -, started⟩ |
      ⟨turn, io, before, rfl, waiting, advanced⟩
    · rw [idle] at found ⊢
      exact listed id task found
    · rw [started, mine] at found
      cases (put_self _ _ _).symm.trans found
      exact listed_start call _
    · rw [advanced, mine] at found
      cases (put_self _ _ _).symm.trans found
      exact listed_advance keyed kept (listed turn before waiting)
  · rw [step_tasks_other mine] at found
    rw [routing]
    exact (listed id task found).after _

end

namespace Wiring

variable {V : Type} {w : Wiring V} {nodeId : String} {models : List String}

theorem Learned.poll {polled : List String → Step → Prop} {history : List Step} {e : Step}
    (now : polled models e) : Learned polled (history ++ [e]) models :=
  .inr ⟨e, LastOf.concat_self history ⟨models, now⟩, now⟩

theorem Learned.keep {polled : List String → Step → Prop} {history : List Step} {e : Step}
    (other : ∀ models, ¬ polled models e) (learned : Learned polled history models) :
    Learned polled (history ++ [e]) models := by
  rcases learned with ⟨never, none⟩ | ⟨f, last, polled⟩
  · refine .inl ⟨fun f member models => ?_, none⟩
    rcases List.mem_append.mp member with old | new
    · exact never f old models
    · rw [List.mem_singleton.mp new]
      exact other models
  · exact .inr ⟨f, last.concat_other fun ⟨models, now⟩ => other models now, polled⟩

theorem Polled.known {history : List Step} {x : State} {input : Moment × Event}
    (polled : w.Polled nodeId models (entry w.step x input)) (sourced : w.Sourced history x) :
    (x.shared.routing.peers.lookup nodeId).isSome := by
  obtain ⟨id, io, task, host, port, rest, -, waiting, point, -⟩ := effect_models polled
  have listed := sourced.listed id task waiting
  rw [point] at listed
  exact listed _ List.mem_cons_self

theorem sourced_step (history : List Step) (x : State) (input : Moment × Event)
    (sourced : w.Sourced history x) :
    w.Sourced (history ++ [entry w.step x input]) (w.step x input).1 := by
  have routing : (w.step x input).1.shared.routing =
      (x.shared.after w.setup (w.effectOf (entry w.step x input))).2 := routing_step x _
  refine ⟨keyed_step x _ sourced.keyed, listed_step x _ sourced.keyed sourced.listed, ?_, ?_, ?_⟩
  -- A node without an entry was never polled: a poll names listed peers only.
  · intro nodeId absent e member models polled
    have before : x.shared.routing.peers.lookup nodeId = none := by
      by_contra known
      have after := known_after (d := w.setup) x.shared (w.effectOf (entry w.step x input))
        (Option.isSome_iff_ne_none.mpr known)
      rw [← routing, absent] at after
      cases after
    rcases List.mem_append.mp member with old | new
    · exact sourced.unknown nodeId before e old models polled
    · rw [List.mem_singleton.mp new] at polled
      have known := polled.known sourced
      rw [before] at known
      cases known
  · intro nodeId peer found
    rw [routing] at found
    -- Either this step writes the models of the peer, or its entry keeps the ones it had.
    by_cases learned : ∃ models, w.Polled nodeId models (entry w.step x input)
    · obtain ⟨models, polled⟩ := learned
      have effect : w.effectOf (entry w.step x input) = some (.models nodeId models) := polled
      rw [effect] at found
      obtain ⟨before, known⟩ := Option.isSome_iff_exists.mp (polled.known sourced)
      rw [lookup_after_models x.shared known] at found
      cases found
      exact Learned.poll polled
    · have other (models : List String) : ¬ w.Polled nodeId models (entry w.step x input) :=
        fun polled => learned ⟨models, polled⟩
      cases before : x.shared.routing.peers.lookup nodeId with
      | none =>
        have none := lookup_after_new x.shared _ before found
        refine Learned.keep other (.inl ⟨sourced.unknown nodeId before, none⟩)
      | some peer' =>
        obtain ⟨after, found', same⟩ := lookup_after (d := w.setup) x.shared _ other before
        obtain rfl := Option.some.inj (found'.symm.trans found)
        rw [same]
        exact (sourced.peers nodeId peer' before).keep other
  · rw [routing]
    by_cases learned : ∃ models, w.LocalPolled models (entry w.step x input)
    · obtain ⟨models, polled⟩ := learned
      have effect : w.effectOf (entry w.step x input) = some (.localModels models) := polled
      rw [effect]
      exact Learned.poll polled
    · have other (models : List String) : ¬ w.LocalPolled models (entry w.step x input) :=
        fun polled => learned ⟨models, polled⟩
      rw [localModels_after x.shared _ other]
      exact sourced.own.keep other

theorem sourced (sink : ClusterTrustSink) (inputs : List (Moment × Event)) :
    w.Sourced (trace w.step (fresh w.setup sink) inputs) (run w.step (fresh w.setup sink) inputs) := by
  apply run_history sourced_step
  refine ⟨?_, ?_, ?_, ?_, ?_⟩
  · intro key peer found
    cases found
  · intro id task found
    cases found
  · exact fun _ _ e member => absurd member List.not_mem_nil
  · intro nodeId peer found
    cases found
  · exact .inl ⟨fun e member => absurd member List.not_mem_nil, rfl⟩

theorem live_resume {x : State} {moment : Moment} {event : Event} {id : TaskId} {io : Io}
    {task : Task Call Point} (resumed : w.live x moment event = .resume id io)
    (waiting : x.tasks id = some task) :
    ∃ given, io = w.fetched x.shared moment given task.point := by
  cases event with
  | call serial call => cases resumed
  | resume id' given =>
    unfold live at resumed
    dsimp only at resumed
    split at resumed
    · next task' found =>
      cases resumed
      obtain rfl := Option.some.inj (found.symm.trans waiting)
      exact ⟨given, rfl⟩
    · next absent =>
      cases resumed
      rw [absent] at waiting
      cases waiting

/-- A server at an address of its list answered a poll of a peer: it had a
certificate that was pinned then, and took the node's own. -/
def Answered (nodeId : String) (models : List String) (e : Step) : Prop :=
  ∃ id task host port rest server, e.before.tasks id = some task ∧
    task.point = .fetchModels ((nodeId, host, port) :: rest) ∧
    e.input.1.servers host port = .ok server ∧
    e.before.shared.pins.isPinned server.certDer = true ∧ server.accepts w.certDer = true ∧
    server.Reports w.values w.proxy models

theorem Polled.answered {e : Step} (polled : w.Polled nodeId models e) :
    w.Answered nodeId models e := by
  obtain ⟨id, io, task, host, port, rest, resumed, waiting, point, learned⟩ := effect_models polled
  obtain ⟨given, rfl⟩ := live_resume resumed waiting
  rw [point] at learned
  obtain ⟨server, found, accepted, accepts, reports⟩ := fetchPeerModels_ok learned
  exact ⟨id, task, host, port, rest, server, waiting, point, found,
    ((PeerPinStore.accept_iff _ _).mp accepted).2, accepts, reports⟩

theorem LocalPolled.reported {e : Step} (polled : w.LocalPolled models e) :
    e.input.1.engine.Reports w.values models := by
  obtain ⟨id, io, task, resumed, waiting, point, learned⟩ := effect_localModels polled
  obtain ⟨given, rfl⟩ := live_resume resumed waiting
  rw [point] at learned
  exact fetchLocalModels_ok learned

theorem Learned.of_mem {polled : List String → Step → Prop} {history : List Step} {model : String}
    (learned : Learned polled history models) (member : model ∈ models) :
    ∃ e, LastOf (fun e => ∃ models, polled models e) history e ∧ polled models e := by
  rcases learned with ⟨-, none⟩ | reported
  · rw [none] at member
    cases member
  · exact reported

/-- The last poll of a target has found a model: the node's own engine lists it, or
a server that answered for the peer does. -/
inductive Finds (w : Wiring V) (history : List Step) (model : String) (target : Candidate) : Prop where
  | own {models : List String} {e : Step} (self : target.isSelf = true) (member : model ∈ models)
      (last : LastOf (fun e => ∃ models, w.LocalPolled models e) history e)
      (polled : w.LocalPolled models e) (reported : e.input.1.engine.Reports w.values models)
  | peer {models : List String} {e : Step} (remote : target.isSelf = false)
      (member : model ∈ models)
      (last : LastOf (fun e => ∃ models, w.Polled target.nodeId models e) history e)
      (polled : w.Polled target.nodeId models e) (answered : w.Answered target.nodeId models e)

end Wiring

/-- A request for a model goes where the last poll has found it: to the node's own
engine, or to a peer for which a server with a pinned certificate has answered. -/
theorem routed_models_reported {V : Type} (w : Wiring V) (sink : ClusterTrustSink)
    (inputs : List (Moment × Event)) {model backend : String} {target : Candidate}
    (chosen : select ((run w.step (fresh w.setup sink) inputs).shared.routing.candidatesFor
      (some model) backend) = some target) :
    w.Finds (trace w.step (fresh w.setup sink) inputs) model target := by
  have sourced := Wiring.sourced (w := w) sink inputs
  obtain ⟨listed, eligible⟩ := (select_preferred chosen).eligible
  rcases List.mem_cons.mp listed with rfl | listed
  · have member : model ∈ (run w.step (fresh w.setup sink) inputs).shared.routing.localModels := by
      simpa [Candidate.eligible, RoutingTable.localCandidate] using eligible
    obtain ⟨e, last, polled⟩ := sourced.own.of_mem member
    exact .own rfl member last polled polled.reported
  · obtain ⟨⟨key, peer⟩, entry, rfl⟩ := List.mem_map.mp listed
    have found := AList.mem_lookup_iff.mpr entry
    have both : peer.models.contains model = true ∧ peer.pinned = true := by
      simpa [Candidate.eligible, PeerEntry.candidate] using eligible
    have member : model ∈ peer.models := List.contains_iff_mem.mp both.1
    obtain ⟨e, last, polled⟩ := (sourced.peers key peer found).of_mem member
    have named : (peer.candidate model).nodeId = key := sourced.keyed key peer found
    rw [← named] at last polled
    exact .peer rfl member last polled polled.answered

end Daemon

namespace Reference

def wiring : Daemon.Wiring (Json.Tree Empty) where
  setup := setup
  certDer := inviterCertificate.der
  values := valueCrate
  proxy := proxyCrates
  tls := tlsCrate

-- An engine that lists `llama3` and answers every other request alike.
def llamaEngine : Backend := fun request =>
  if request.path = tagsPath then .ok ⟨200, utf8 (tagsText ["llama3"]), ok_valid⟩
  else .ok ⟨200, utf8 "done", ok_valid⟩

def joinerProxy : ProxyNode where
  certDer := joinerCertificate.der
  pins := pinning inviterCertificate.der
  routing := .new joinerCertificate.nodeUuid
  backend := "127.0.0.1:11434"
  engine := llamaEngine

-- The joiner is reached, and the inviter's own engine lists `phi3`.
def joinerReached : Daemon.Moment where
  servers _ _ := .ok (joinerProxy.ingress proxyCrates)
  engine _ := .ok ⟨200, utf8 (tagsText ["phi3"]), ok_valid⟩

def trustingSink : ClusterTrustSink :=
  { memorySink with trust := ⟨fun _ => none, (pinning joinerCertificate.der).store⟩ }

/-- The joiner is found on the network and polled, and then the own engine. -/
def bothPolled : List (Daemon.Moment × Daemon.Event) :=
  let io := foundPeer alignedConfig
  let polls : List Daemon.Event := [.call 0 .pollPeers, .resume .peerModels io,
    .resume .peerModels io, .call 0 .pollLocal, .resume .localModels io]
  (peerDiscovery alignedConfig ++ polls).map (joinerReached, ·)

def foundTables : Daemon.Tables where
  sink := trustingSink
  routing := (RoutingTable.new setup.nodeId).upsertPeerMeta joinerCertificate.nodeUuid
    "joiner.local" 7443 true

def polledRouting : RoutingTable :=
  (foundTables.routing.setPeerModels joinerCertificate.nodeUuid ["llama3"]).setLocalModels ["phi3"]

theorem foundTables_reaches : ProxyNode.Reaches proxyCrates joinerReached.servers
    (wiring.node foundTables "" joinerReached.engine) joinerProxy "joiner.local" 7443 where
  listens := rfl
  accepts := by decide +kernel
  accepted := by decide +kernel

set_option maxRecDepth 20000 in
theorem bothPolled_routing :
    (run wiring.step (Daemon.fresh wiring.setup trustingSink) bothPolled).shared.routing =
      polledRouting := by
  have learned : (run wiring.step (Daemon.fresh wiring.setup trustingSink) bothPolled).shared.routing =
      (Daemon.learnModels foundTables (fetchPeerModels valueCrate proxyCrates
          ((wiring.node foundTables "" joinerReached.engine).dial tlsCrate joinerReached.servers)
            "joiner.local" 7443)
          [(joinerCertificate.nodeUuid, "joiner.local", 7443)]).shared.routing.setLocalModels
        (parseOllamaTags valueCrate (utf8 (tagsText ["phi3"]))) := rfl
  have lists : llamaEngine ⟨"GET", tagsPath, []⟩ =
      .ok ⟨200, utf8 (tagsText ["llama3"]), ok_valid⟩ := if_pos rfl
  rw [learned, foundTables_reaches.fetched proxyLawful lists, fromUtf8Lossy_utf8, parse_tagsText,
    parse_tagsText]
  rfl

def polledJoiner : PeerEntry :=
  { PeerEntry.new joinerCertificate.nodeUuid "joiner.local" 7443 true with models := ["llama3"] }

def polledSelf : Candidate := polledRouting.localCandidate (some "phi3") "127.0.0.1:11434"

end Reference

/-- Each model is routed to where it was found. -/
theorem Daemon.routed_models_reported_both :
    Reference.wiring.Finds (trace Reference.wiring.step
        (fresh Reference.setup Reference.trustingSink) Reference.bothPolled) "llama3"
        (Reference.polledJoiner.candidate "llama3") ∧
      Reference.wiring.Finds (trace Reference.wiring.step
        (fresh Reference.setup Reference.trustingSink) Reference.bothPolled) "phi3"
        Reference.polledSelf := by
  have routing : (run Reference.wiring.step (fresh Reference.wiring.setup Reference.trustingSink)
      Reference.bothPolled).shared.routing = Reference.polledRouting := Reference.bothPolled_routing
  have toPeer : select (Reference.polledRouting.candidatesFor (some "llama3") "127.0.0.1:11434") =
      some (Reference.polledJoiner.candidate "llama3") := by
    decide
  have toSelf : select (Reference.polledRouting.candidatesFor (some "phi3") "127.0.0.1:11434") =
      some Reference.polledSelf := by
    decide
  rw [← routing] at toPeer toSelf
  constructor
  · exact routed_models_reported Reference.wiring Reference.trustingSink _ toPeer
  · exact routed_models_reported Reference.wiring Reference.trustingSink _ toSelf

end OpenPair
