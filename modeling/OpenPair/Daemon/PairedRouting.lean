import OpenPair.Daemon.Dashboards
import OpenPair.Daemon.ModelReports

/-! From a pairing to the first answer: what a node gets from a peer it has just
paired with, once it has polled the peer's models.
-/

set_option autoImplicit false

namespace OpenPair

open Tasks Transition

theorem select_only {candidates : List Candidate} {target : Candidate} (listed : target ∈ candidates)
    (eligible : target.eligible = true)
    (only : ∀ other ∈ candidates, other.eligible = true → other = target) :
    select candidates = some target := by
  cases chosen : select candidates with
  | none => exact absurd ⟨listed, eligible⟩ (select_eq_none_iff.mp chosen target)
  | some other =>
    obtain ⟨member, fits⟩ := (select_preferred chosen).eligible
    rw [only other member fits]

/-! ## A peer behind its receiver -/

section

variable {c : ProxyCrates} {tls : TlsCrate} {near far : ProxyNode} {servers : Servers}
  {host : String} {port : UInt16}

namespace ProxyNode

variable {key model : String} {peer : PeerEntry} {request : ProxyRequest}

/-- A model that one peer only is known for is that peer's to serve. -/
theorem target_only (entry : near.routing.peers.lookup key = some peer) (pinned : peer.pinned = true)
    (listed : model ∈ peer.models) (named : c.extractModel request.body = some model)
    (remote : model ∉ near.routing.localModels)
    (only : ∀ other entry, near.routing.peers.lookup other = some entry → other ≠ key →
      entry.pinned = true → model ∉ entry.models) :
    near.target c request = some (peer.candidate model) := by
  rw [ProxyNode.target, named]
  apply select_only
  · exact List.mem_cons_of_mem _ (List.mem_map_of_mem (AList.mem_lookup_iff.mp entry))
  · simp [Candidate.eligible, PeerEntry.candidate, pinned, listed]
  · intro candidate member eligible
    rcases List.mem_cons.mp member with rfl | member
    · have near : model ∈ near.routing.localModels := by
        simpa [Candidate.eligible, RoutingTable.localCandidate] using eligible
      exact absurd near remote
    · obtain ⟨⟨other, entry'⟩, within, rfl⟩ := List.mem_map.mp member
      have found := AList.mem_lookup_iff.mpr within
      have both : entry'.models.contains model = true ∧ entry'.pinned = true := by
        simpa [Candidate.eligible, PeerEntry.candidate] using eligible
      by_cases same : other = key
      · cases (same ▸ found).symm.trans entry
        rfl
      · exact absurd (List.contains_iff_mem.mp both.1) (only other entry' found same both.2)

/-- The peer's engine gives the answer, up to what is no text in it. -/
theorem serve_target (lawful : c.Lawful) (reaches : Reaches c servers near far host port)
    (chosen : near.target c request = some (peer.candidate model)) (hosted : peer.host = host)
    (served : peer.ingressPort = port) {response : ProxyResponse}
    (answers : far.engine request.unwrapped = .ok response) :
    near.serve c tls servers request =
      ⟨response.status, utf8 (fromUtf8Lossy response.body), response.valid⟩ := by
  have reply : ingressReply far.engine (request.wrapped c) =
      { code := some response.status, data := some (fromUtf8Lossy response.body), txt := some "ok" } := by
    have asked : far.engine ⟨"POST", request.path, utf8 (fromUtf8Lossy request.body)⟩ = .ok response :=
      answers
    simp only [ingressReply, ProxyRequest.wrapped, Option.getD_some, Option.getD_none, asked]
  have forwarded := reaches.forward tls lawful (request.wrapped c)
  rw [ProxyRequest.wrapped] at forwarded
  have selected : select (near.routing.candidatesFor (c.extractModel request.body) near.backend) =
      some (peer.candidate model) := chosen
  simp only [ProxyNode.serve, route, routeInner, selected, PeerEntry.candidate, Bool.false_eq_true,
    if_false, Option.getD_some, hosted, served, forwarded]
  rw [← ProxyRequest.wrapped, reply]
  simp only [Option.getD_some, buildResponse, dif_pos response.valid, settle]

end ProxyNode

end

namespace Daemon

/-! ## A peer that has just paired -/

section

variable {c : Crates}

def Console.node (console : Console c) (t : Tables) (backend : String) (engine : Backend) :
    ProxyNode where
  certDer := console.certDer
  pins := ⟨t.pins, false⟩
  routing := t.routing
  backend := backend
  engine := engine

theorem accept_pinned {pins : PeerPinStore} {nodeUuid : String} {certDer : Bytes}
    (pinned : pins.cert nodeUuid = some certDer) :
    (PinnedPeerVerifier.mk ⟨pins, false⟩).accept certDer = true := by
  obtain ⟨peer, found, same⟩ := Option.map_eq_some_iff.mp pinned
  exact List.any_eq_true.mpr ⟨_, AList.mem_lookup_iff.mp found, beq_iff_eq.mpr same⟩

/-- A peer's models are all that a poll of it changes. -/
structure Learns (t t' : Tables) (nodeId : String) (entry : PeerEntry) : Prop where
  pins : t'.pins = t.pins
  localModels : t'.routing.localModels = t.routing.localModels
  entry : t'.routing.peers.lookup nodeId = some entry
  other (key : String) : key ≠ nodeId → t'.routing.peers.lookup key = t.routing.peers.lookup key

theorem learns_models {t : Tables} {nodeId : String} {peer : PeerEntry} (models : List String)
    (host : String) (port : UInt16) (rest : List (String × String × UInt16))
    (entry : t.routing.peers.lookup nodeId = some peer) :
    Learns t (learnModels t (.ok models) ((nodeId, host, port) :: rest)).shared nodeId
      { peer with models := models } := by
  have shared (t : Tables) : (probes t rest).shared = t := by
    cases rest <;> rfl
  simp only [learnModels, shared, RoutingTable.setPeerModels, entry]
  exact ⟨rfl, rfl, AList.lookup_insert _, fun key differs => AList.lookup_insert_ne differs⟩

variable {ui : UiCrates} {server : UiServer} {V : Type} {v : ValueCrate V} {pc : ProxyCrates}
  {tls : TlsCrate} {body : Bytes} {io : Io}

variable (tls) in
/-- A model that only a peer's engine lists is served by that engine, for the first
request after an undisturbed pairing with the peer and one poll of its models. -/
theorem Link.paired_then_served (l : Link c) (lawful : ui.Lawful) (proxied : pc.Lawful)
    (targets : l.Targets ui body) (served : l.far.ingressPort ≠ 0) (x : Joint) (serial : Nat)
    (free : x.near.tasks (.request serial) = none) {ignored : UInt16 × Bytes}
    (received : io.response = .ok ignored)
    (nearBackend farBackend : String) (nearEngine : Backend) {farEngine : Backend} {servers : Servers}
    {listing response : ProxyResponse} {model : String} {request : ProxyRequest}
    (listens : servers l.host l.far.ingressPort = .ok ((l.far.node
      (run (l.step ui server) x (undisturbed serial body io)).far.shared farBackend
        farEngine).ingress pc))
    (lists : farEngine ⟨"GET", tagsPath, []⟩ = .ok listing)
    (listed : model ∈ parseOllamaTags v (utf8 (fromUtf8Lossy listing.body)))
    (named : pc.extractModel request.body = some model)
    (remote : model ∉ x.near.shared.routing.localModels)
    (only : ∀ key peer, x.near.shared.routing.peers.lookup key = some peer →
      key ≠ l.far.nodeId → peer.pinned = true → model ∉ peer.models)
    (answers : farEngine request.unwrapped = .ok response)
    (rest : List (String × String × UInt16)) :
    let t := (run (l.step ui server) x (undisturbed serial body io)).near.shared
    let fetched := fetchPeerModels v pc
      ((l.near.node t nearBackend nearEngine).dial tls servers) l.host l.far.ingressPort
    let polled := learnModels t fetched ((l.far.nodeId, l.host, l.far.ingressPort) :: rest)
    (l.near.node polled.shared nearBackend nearEngine).serve pc tls servers request =
      ⟨response.status, utf8 (fromUtf8Lossy response.body), response.valid⟩ := by
  have paired := (undisturbed_succeeds server serial lawful targets free received).2
  generalize run (l.step ui server) x (undisturbed serial body io) = y at listens paired ⊢
  intro t fetched polled
  -- Pairing left each certificate in the other's store; the rest follows from the tables then.
  have accepted : (l.far.node y.far.shared farBackend farEngine).verifier.accept
      l.near.certDer = true := accept_pinned paired.far
  have reaches (t' : Tables) (same : t'.pins = t.pins) : ProxyNode.Reaches pc servers
      (l.near.node t' nearBackend nearEngine) (l.far.node y.far.shared farBackend farEngine)
      l.host l.far.ingressPort :=
    ⟨listens, accept_pinned ((congrArg (PeerPinStore.cert · l.far.nodeId) same).trans paired.near),
      accepted⟩
  have fetches : fetched = .ok (parseOllamaTags v (utf8 (fromUtf8Lossy listing.body))) :=
    (reaches t rfl).fetched proxied lists
  obtain ⟨peer, entry, host, port, pinned⟩ :=
    lookup_paired x.near.shared.routing l.far.nodeId l.host l.far.ingressPort
  have routing : t.routing = _ := paired.routing served
  have learns : Learns t polled.shared _ _ := fetches ▸ learns_models
    (parseOllamaTags v (utf8 (fromUtf8Lossy listing.body))) l.host l.far.ingressPort rest
    (by rw [routing]; exact entry)
  have chosen : (l.near.node polled.shared nearBackend nearEngine).target pc request =
      some (PeerEntry.candidate { peer with
        models := parseOllamaTags v (utf8 (fromUtf8Lossy listing.body)) } model) := by
    refine ProxyNode.target_only learns.entry pinned listed named ?_ ?_
    · show model ∉ polled.shared.routing.localModels
      rw [learns.localModels, routing]
      exact remote
    · intro other entry' found differs
      have before := (learns.other other differs).symm.trans found
      rw [routing, RoutingTable.lookup_upsertPeerMeta_ne differs] at before
      exact only other entry' before differs
  exact ProxyNode.serve_target proxied (reaches polled.shared learns.pins) chosen host port answers

end

end Daemon

namespace Reference

open Daemon

/-- The reference nodes after the inviter has paired with the joiner from its dashboard. -/
def pairedLink : Joint :=
  run (link.step uiCrates uiServer) (link.start uiCrates memorySink memorySink)
    (Link.undisturbed 0 pairBody answeredIo)

def joinerServers : Servers := fun _ _ =>
  .ok ((link.far.node pairedLink.far.shared "127.0.0.1:11434" llamaEngine).ingress proxyCrates)

/-- The inviter before its next poll, without an engine of its own. -/
def inviterProxy (t : Tables) : ProxyNode :=
  link.near.node t "127.0.0.1:11434" fun _ => .error "refused"

theorem llama_listed :
    "llama3" ∈ parseOllamaTags valueCrate (utf8 (fromUtf8Lossy (utf8 (tagsText ["llama3"])))) := by
  rw [fromUtf8Lossy_utf8, parse_tagsText]
  exact List.mem_singleton_self _

end Reference

theorem Daemon.Link.paired_then_served_reference :
    (Reference.inviterProxy (learnModels Reference.pairedLink.near.shared
        (fetchPeerModels Reference.valueCrate Reference.proxyCrates
          ((Reference.inviterProxy Reference.pairedLink.near.shared).dial Reference.tlsCrate
            Reference.joinerServers) "10.0.0.6" 7443)
        [(Reference.joinerCertificate.nodeUuid, "10.0.0.6", 7443)]).shared).serve
      Reference.proxyCrates Reference.tlsCrate Reference.joinerServers Reference.modelRequest =
        ⟨200, utf8 "done", Reference.ok_valid⟩ := by
  have answered : Reference.answeredIo.response = .ok (0, []) := rfl
  have port : Reference.link.far.ingressPort ≠ 0 := by decide
  have free : (Reference.link.start Reference.uiCrates Reference.memorySink
      Reference.memorySink).near.tasks (.request 0) = none := rfl
  have listens : Reference.joinerServers Reference.link.host Reference.link.far.ingressPort =
      .ok ((Reference.link.far.node Reference.pairedLink.far.shared "127.0.0.1:11434"
        Reference.llamaEngine).ingress Reference.proxyCrates) := rfl
  have lists : Reference.llamaEngine ⟨"GET", tagsPath, []⟩ =
      .ok ⟨200, utf8 (Reference.tagsText ["llama3"]), Reference.ok_valid⟩ := if_pos rfl
  have answers : Reference.llamaEngine Reference.modelRequest.unwrapped =
      .ok ⟨200, utf8 "done", Reference.ok_valid⟩ := if_neg (by decide)
  have unlisted : "llama3" ∉ (Reference.link.start Reference.uiCrates Reference.memorySink
      Reference.memorySink).near.shared.routing.localModels := List.not_mem_nil
  have alone : ∀ key peer, (Reference.link.start Reference.uiCrates Reference.memorySink
      Reference.memorySink).near.shared.routing.peers.lookup key = some peer →
        key ≠ Reference.link.far.nodeId → peer.pinned = true → "llama3" ∉ peer.models := by
    intro key peer found
    cases (RoutingTable.lookup_new _ key).symm.trans found
  have served := Link.paired_then_served Reference.tlsCrate Reference.link Reference.uiCrates_lawful
    Reference.proxyLawful Reference.link_targets port _ 0 free answered "127.0.0.1:11434"
    "127.0.0.1:11434" (fun _ => .error "refused") listens lists Reference.llama_listed
    Reference.modelBody_named unlisted alone answers []
  rw [fromUtf8Lossy_utf8] at served
  exact served

end OpenPair
