import OpenPair.Proxy.Selection
import OpenPair.Proxy.Transparency
import OpenPair.Trust.PinHistory

/-! The proxies of several nodes and the mutual TLS between them (`live.rs`,
`ingress_server.rs`, `mtls.rs`): whose answer a client gets, and who can have a
part in it.
-/

set_option autoImplicit false

namespace OpenPair

/-! ## TLS -/

/-- A server by the certificate whose key it holds, the client certificates it
takes, and its answers to those who present one. -/
structure TlsServer where
  certDer : Bytes
  accepts : Bytes → Bool
  answer : String → Bytes → ProxyResponse

/-- The server behind a host and a port, or why none is reached. -/
abbrev Servers := String → UInt16 → Except String TlsServer

/-- The errors of a handshake that the client or the server ends. -/
structure TlsCrate where
  unpinned : String
  alerted : String

/-- What a node's proxy and its receiver are set up with. -/
structure ProxyNode where
  certDer : Bytes
  pins : SharedPins
  routing : RoutingTable
  backend : String
  engine : Backend

variable (c : ProxyCrates) (tls : TlsCrate)

namespace ProxyNode

variable (n : ProxyNode)

def verifier : PinnedPeerVerifier := ⟨n.pins⟩

-- A connection under `client_config`: both certificates have to be accepted.
def dial (servers : Servers) : Network := fun host port =>
  match servers host port with
  | .error e => .error e
  | .ok server =>
    if n.verifier.accept server.certDer = false then .error tls.unpinned
    else if server.accepts n.certDer = false then .error tls.alerted
    else .ok server.answer

-- `serve_ingress` under `server_config`.
def ingress : TlsServer := ⟨n.certDer, n.verifier.accept, ingressHandle c n.engine⟩

def serve (servers : Servers) (request : ProxyRequest) : ProxyResponse :=
  route c n.routing n.backend n.engine (n.dial tls servers) request

def target (request : ProxyRequest) : Option Candidate :=
  select (n.routing.candidatesFor (c.extractModel request.body) n.backend)

end ProxyNode

def ProxyRequest.wrapped (request : ProxyRequest) : IngressEnvelope :=
  { path := some request.path
    data := some (fromUtf8Lossy request.body)
    name := c.extractModel request.body }

def ProxyRequest.unwrapped (request : ProxyRequest) : ProxyRequest :=
  ⟨"POST", request.path, utf8 (fromUtf8Lossy request.body)⟩

/-- Nodes, and who listens at an address: one of them, or someone else. -/
structure Mesh (N : Type) where
  node : N → ProxyNode
  listens : String → UInt16 → Except String (N ⊕ TlsServer)

namespace Mesh

variable {N : Type} (m : Mesh N)

def servers : Servers := fun host port =>
  (m.listens host port).map fun
    | .inl b => (m.node b).ingress c
    | .inr other => other

def serve (a : N) (request : ProxyRequest) : ProxyResponse :=
  (m.node a).serve c tls (m.servers c) request

/-- The engine that is asked for the answer, and what it is asked: the node's own, or
that of the node at the target's address once both have accepted each other's certificate. -/
def asked (a : N) (request : ProxyRequest) : Option (N × ProxyRequest) :=
  ((m.node a).target c request).bind fun target =>
    if target.isSelf then some (a, request)
    else
      match m.listens (target.host.getD "") (target.ingressPort.getD 0) with
      | .ok (.inl b) =>
        if (m.node a).verifier.accept (m.node b).certDer &&
            (m.node b).verifier.accept (m.node a).certDer then
          some (b, request.unwrapped)
        else none
      | _ => none

def withEngines (engines : N → Backend) : Mesh N :=
  { m with node := fun b => { m.node b with engine := engines b } }

end Mesh

/-! ## What a response depends on -/

section

variable {c tls} {n : ProxyNode} {table : RoutingTable} {address : String}
  {localEngine localEngine' : Backend} {network network' : Network} {request : ProxyRequest}

/-- Only the target of a request has a part in its response. -/
theorem route_congr
    (near : ∀ target, select (table.candidatesFor (c.extractModel request.body) address) = some target →
      target.isSelf = true → localEngine request = localEngine' request)
    (far : ∀ target, select (table.candidatesFor (c.extractModel request.body) address) = some target →
      target.isSelf = false →
        forwardToPeer c network (target.host.getD "") (target.ingressPort.getD 0)
            (request.wrapped c) =
          forwardToPeer c network' (target.host.getD "") (target.ingressPort.getD 0)
            (request.wrapped c)) :
    route c table address localEngine network request =
      route c table address localEngine' network' request := by
  unfold route routeInner
  dsimp only
  cases chosen : select (table.candidatesFor (c.extractModel request.body) address) with
  | none => rfl
  | some target =>
    dsimp only
    cases self : target.isSelf with
    | true =>
      have same := near target chosen self
      simp only [if_true, routeLocally, same]
    | false =>
      have same := far target chosen self
      rw [ProxyRequest.wrapped] at same
      simp only [Bool.false_eq_true, if_false, same]

theorem ingressReply_congr {backend backend' : Backend} {env : IngressEnvelope}
    (same : backend ⟨env.method.getD "POST", env.path.getD "/", utf8 (env.data.getD "")⟩ =
      backend' ⟨env.method.getD "POST", env.path.getD "/", utf8 (env.data.getD "")⟩) :
    ingressReply backend env = ingressReply backend' env := by
  simp only [ingressReply, same]

theorem ingressHandle_congr (lawful : c.Lawful) {backend backend' : Backend}
    (same : backend request.unwrapped = backend' request.unwrapped) :
    ingressHandle c backend ingressPath (c.encodeEnvelope (request.wrapped c)) =
      ingressHandle c backend' ingressPath (c.encodeEnvelope (request.wrapped c)) := by
  have reply : ingressReply backend (request.wrapped c) =
      ingressReply backend' (request.wrapped c) := ingressReply_congr same
  simp only [ingressHandle, lawful.envelope, reply]

theorem ProxyNode.target_entry {target : Candidate} (chosen : n.target c request = some target)
    (remote : target.isSelf = false) :
    ∃ model key peer, c.extractModel request.body = some model ∧
      n.routing.peers.lookup key = some peer ∧ peer.pinned = true ∧ model ∈ peer.models ∧
      target.host = some peer.host ∧ target.ingressPort = some peer.ingressPort := by
  obtain ⟨listed, eligible⟩ := (select_preferred chosen).eligible
  rcases List.mem_cons.mp listed with rfl | listed
  · cases remote
  · cases named : c.extractModel request.body with
    | none =>
      rw [named] at listed
      cases listed
    | some model =>
      rw [named] at listed
      obtain ⟨⟨key, peer⟩, member, rfl⟩ := List.mem_map.mp listed
      have both : peer.models.contains model = true ∧ peer.pinned = true := by
        simpa [Candidate.eligible, PeerEntry.candidate] using eligible
      exact ⟨model, key, peer, rfl, AList.mem_lookup_iff.mpr member, both.2,
        List.contains_iff_mem.mp both.1, rfl, rfl⟩

end

/-! ## The answers of a mesh -/

section

variable {c tls} {N : Type} {m : Mesh N} {a b : N} {request asked : ProxyRequest}

theorem Mesh.forward_withEngines (lawful : c.Lawful) {engines : N → Backend} {target : Candidate}
    (chosen : (m.node a).target c request = some target) (remote : target.isSelf = false)
    (same : ∀ b asked, m.asked c a request = some (b, asked) →
      engines b asked = (m.node b).engine asked) :
    forwardToPeer c ((m.node a).dial tls ((m.withEngines engines).servers c))
        (target.host.getD "") (target.ingressPort.getD 0) (request.wrapped c) =
      forwardToPeer c ((m.node a).dial tls (m.servers c))
        (target.host.getD "") (target.ingressPort.getD 0) (request.wrapped c) := by
  have listens : (m.withEngines engines).listens = m.listens := rfl
  unfold forwardToPeer ProxyNode.dial Mesh.servers
  rw [listens]
  cases found : m.listens (target.host.getD "") (target.ingressPort.getD 0) with
  | error e => rfl
  | ok listener =>
    cases listener with
    | inr other => rfl
    | inl b =>
      have certDer : ((m.withEngines engines).node b).certDer = (m.node b).certDer := rfl
      have accept : ((m.withEngines engines).node b).verifier = (m.node b).verifier := rfl
      simp only [Except.map, ProxyNode.ingress, certDer, accept]
      cases accepts : (m.node a).verifier.accept (m.node b).certDer with
      | false => rfl
      | true =>
        cases accepted : (m.node b).verifier.accept (m.node a).certDer with
        | false => rfl
        | true =>
          have reached : m.asked c a request = some (b, request.unwrapped) := by
            simp only [Mesh.asked, chosen, Option.bind_some, remote, Bool.false_eq_true, if_false,
              found, accepts, accepted, Bool.and_self, if_true]
          have asks : engines b request.unwrapped = (m.node b).engine request.unwrapped :=
            same b _ reached
          have handled := ingressHandle_congr lawful asks
          have engine : ((m.withEngines engines).node b).engine = engines b := rfl
          simp only [Bool.true_eq_false, if_false, engine, handled]

theorem Mesh.serve_withEngines (lawful : c.Lawful) {engines : N → Backend}
    (same : ∀ b asked, m.asked c a request = some (b, asked) →
      engines b asked = (m.node b).engine asked) :
    (m.withEngines engines).serve c tls a request = m.serve c tls a request := by
  apply route_congr
  · intro target chosen self
    apply same
    have chosen : (m.node a).target c request = some target := chosen
    rw [Mesh.asked, chosen, Option.bind_some, if_pos self]
  · exact fun target chosen remote => Mesh.forward_withEngines (m := m) lawful chosen remote same

/-- The target of a request stands at an address of another node, which this one
has an entry for, and each has pinned the other's certificate. -/
structure Mesh.Reaches (m : Mesh N) (a b : N) (model : String) : Prop where
  entry : ∃ key peer, (m.node a).routing.peers.lookup key = some peer ∧ peer.pinned = true ∧
    model ∈ peer.models ∧ m.listens peer.host peer.ingressPort = .ok (.inl b)
  accepts : (m.node a).verifier.accept (m.node b).certDer = true
  accepted : (m.node b).verifier.accept (m.node a).certDer = true

/-- A body that names a model comes out of its envelope as it was. -/
theorem ProxyRequest.unwrapped_of_named (lawful : c.Lawful) {model : String}
    (named : c.extractModel request.body = some model) : request.unwrapped = request.posted := by
  obtain ⟨text, body⟩ := lawful.json named
  rw [ProxyRequest.unwrapped, ProxyRequest.posted, body, fromUtf8Lossy_utf8]

theorem Mesh.asked_cases (lawful : c.Lawful) (found : m.asked c a request = some (b, asked)) :
    (b = a ∧ asked = request) ∨
      asked = request.posted ∧ ∃ model, c.extractModel request.body = some model ∧
        m.Reaches a b model := by
  obtain ⟨target, chosen, found⟩ := Option.bind_eq_some_iff.mp found
  cases self : target.isSelf with
  | true =>
    rw [self, if_pos rfl] at found
    cases found
    exact .inl ⟨rfl, rfl⟩
  | false =>
    rw [self, if_neg Bool.false_ne_true] at found
    obtain ⟨model, key, peer, named, entry, pinned, serves, host, port⟩ :=
      ProxyNode.target_entry chosen self
    rw [host, port, Option.getD_some, Option.getD_some] at found
    split at found
    · next listener listens =>
      split at found
      · next both =>
        cases found
        rw [Bool.and_eq_true] at both
        exact .inr ⟨ProxyRequest.unwrapped_of_named lawful named, model, named,
          ⟨key, peer, entry, pinned, serves, listens⟩, both.1, both.2⟩
      · cases found
    · cases found

end

/-- An answer is read from one engine at most, which is asked once and sends
nothing on: the node's own, as the client asked, or a directly reached peer's, as
a POST, where each of the two nodes has pinned the other. -/
theorem Mesh.serve_reads_one_engine {c : ProxyCrates} (lawful : c.Lawful) (tls : TlsCrate)
    {N : Type} (m : Mesh N) (a : N) (request : ProxyRequest) :
    (∀ engines : N → Backend,
      (∀ b asked, m.asked c a request = some (b, asked) →
        engines b asked = (m.node b).engine asked) →
      (m.withEngines engines).serve c tls a request = m.serve c tls a request) ∧
    ∀ b asked, m.asked c a request = some (b, asked) →
      (b = a ∧ asked = request) ∨
        asked = request.posted ∧ ∃ model, c.extractModel request.body = some model ∧
          m.Reaches a b model :=
  ⟨fun _ same => Mesh.serve_withEngines lawful same, fun _ _ => Mesh.asked_cases lawful⟩

/-! ## The reference mesh -/

namespace Reference

def tlsCrate : TlsCrate := ⟨"server certificate not pinned", "certificate rejected"⟩

def pinning (der : Bytes) : SharedPins := ⟨((({} : PeerPinStore).pin crates der)).1, false⟩

/-- A node that has an entry for the other one, and that one, behind its receiver. -/
def mesh : Mesh Bool where
  node peer :=
    if peer then
      { certDer := joinerCertificate.der
        pins := pinning inviterCertificate.der
        routing := .new "peer"
        backend := "127.0.0.1:11434"
        engine := deletingEngine.backend }
    else
      { certDer := inviterCertificate.der
        pins := pinning joinerCertificate.der
        routing := routingTable
        backend := "127.0.0.1:11434"
        engine := fun _ => .error "refused" }
  listens host port :=
    if host = "10.0.0.5" ∧ port = 9443 then .ok (.inl true) else .error "connection refused"

theorem pinning_accepts {certificate : Certificate} (known : certificate ∈ certificates) :
    (PinnedPeerVerifier.mk (pinning certificate.der)).accept certificate.der = true := by
  rw [PeerPinStore.accept_iff]
  refine ⟨rfl, PeerPinStore.isPinned_iff.mpr ⟨certificate.nodeUuid,
    .of crates certificate.nodeUuid certificate.der, ?_, rfl⟩⟩
  have named := principal (found known)
  rw [pinning, PeerPinStore.pin_ok named]
  exact AList.lookup_insert _

def modelRequest : ProxyRequest := ⟨"POST", "/api/generate", modelBody⟩

theorem mesh_asked : mesh.asked proxyCrates false modelRequest =
    some (true, modelRequest.unwrapped) := by
  have near : (mesh.node false).verifier.accept (mesh.node true).certDer = true :=
    pinning_accepts (by simp [certificates])
  have far : (mesh.node true).verifier.accept (mesh.node false).certDer = true :=
    pinning_accepts (by simp [certificates])
  have chosen : (mesh.node false).target proxyCrates modelRequest =
      some (peerEntry.candidate "llama3") := by
    have named : proxyCrates.extractModel modelRequest.body = some "llama3" := modelBody_named
    rw [ProxyNode.target, named]
    exact peer_selected
  have listens : mesh.listens "10.0.0.5" 9443 = .ok (.inl true) := by simp [mesh]
  rw [Mesh.asked, chosen, Option.bind_some, if_neg (by decide)]
  simp only [PeerEntry.candidate, peerEntry, Option.getD_some, listens, near, far, Bool.and_self,
    if_true]

end Reference

/-- The reference peer is asked, and both nodes have pinned each other. -/
theorem Mesh.serve_reads_one_engine_peer :
    Reference.modelRequest.unwrapped = Reference.modelRequest.posted ∧
      ∃ model, Reference.proxyCrates.extractModel Reference.modelRequest.body = some model ∧
        Reference.mesh.Reaches false true model := by
  rcases (Mesh.serve_reads_one_engine Reference.proxyLawful Reference.tlsCrate Reference.mesh false
    Reference.modelRequest).2 true _ Reference.mesh_asked with ⟨wrong, -⟩ | reached
  · cases wrong
  · exact reached

end OpenPair
