import OpenPair.Proxy.IngressJson

/-! Whether a client can tell a peer's engine from the local one. -/

set_option autoImplicit false

namespace OpenPair

variable {c : ProxyCrates}

/-! ## What the client gets from a peer -/

/-- The request as the peer's engine gets it: the envelope carries no method. -/
def ProxyRequest.posted (request : ProxyRequest) : ProxyRequest := { request with method := "POST" }

theorem buildResponse_valid {code : UInt16} {body : Bytes} (valid : 100 ≤ code ∧ code < 1000) :
    buildResponse code body = .ok ⟨code, body, valid⟩ := dif_pos valid

theorem settle_routeLocally (engine : Engine) (request : ProxyRequest) :
    settle (routeLocally engine.backend request) = engine request := by
  simp only [routeLocally, Engine.backend, buildResponse_valid (engine request).valid, settle]

section

variable {table : RoutingTable} {address model : String} {localEngine : Backend}
  {network : Network} {request : ProxyRequest} {target : Candidate} {engine : Engine}
  (lawful : c.Lawful)
include lawful

/-- The request's body is JSON and arrives as it was; the response's body is
read with replacement. -/
theorem route_remote (named : c.extractModel request.body = some model)
    (chosen : select (table.candidatesFor (some model) address) = some target)
    (remote : target.isSelf = false)
    (served : network (target.host.getD "") (target.ingressPort.getD 0) =
      .ok (ingressHandle c engine.backend)) :
    route c table address localEngine network request =
      { engine request.posted with
        body := utf8 (fromUtf8Lossy (engine request.posted).body) } := by
  obtain ⟨text, body⟩ := lawful.json named
  have data : utf8 (fromUtf8Lossy request.body) = request.body := by
    rw [body, fromUtf8Lossy_utf8]
  simp only [route, routeInner, named, chosen, remote, Bool.false_eq_true, if_false, forwardToPeer,
    served, ingressHandle, ne_eq, not_true_eq_false, lawful.envelope, ingressReply, Engine.backend,
    Option.getD_some, Option.getD_none, data]
  rw [if_neg (by decide)]
  simp only [Option.getD_some, ProxyRequest.posted, buildResponse_valid (engine _).valid, settle]

/-- The client gets from a peer what the same engine would answer locally
exactly when the engine gives the posted request that status, and a body that
read as UTF-8 is that body. For a posted request the body has to be UTF-8. -/
theorem peer_forwarding_transparent_iff (named : c.extractModel request.body = some model)
    (chosen : select (table.candidatesFor (some model) address) = some target)
    (remote : target.isSelf = false)
    (served : network (target.host.getD "") (target.ingressPort.getD 0) =
      .ok (ingressHandle c engine.backend)) :
    (route c table address localEngine network request =
        settle (routeLocally engine.backend request) ↔
      (engine request.posted).status = (engine request).status ∧
        utf8 (fromUtf8Lossy (engine request.posted).body) = (engine request).body) ∧
    (request.method = "POST" →
      (route c table address localEngine network request =
          settle (routeLocally engine.backend request) ↔
        ∃ text, (engine request).body = utf8 text)) := by
  have result : route c table address localEngine network request = _ :=
    route_remote lawful named chosen remote served
  rw [result, settle_routeLocally, ProxyResponse.mk.injEq]
  refine ⟨Iff.rfl, fun posted => ?_⟩
  have same : request.posted = request := by rw [ProxyRequest.posted, ← posted]
  rw [same, utf8_fromUtf8Lossy_iff]
  exact ⟨fun both => both.2, fun text => ⟨rfl, text⟩⟩

end

/-! ## The reference crates -/

namespace Reference

-- A peer that serves `llama3`.
def peerEntry : PeerEntry where
  nodeId := "peer"
  host := "10.0.0.5"
  ingressPort := 9443
  models := ["llama3"]
  pinned := true
  priorityRank := none
  manuallySelected := false

def routingTable : RoutingTable := ⟨[], AList.singleton "peer" peerEntry, "self"⟩

/-- The peer's receiver in front of this engine, at its address only. -/
def peerNetwork (engine : Engine) : Network := fun host port =>
  if host = "10.0.0.5" ∧ port = 9443 then .ok (ingressHandle proxyCrates engine.backend)
  else .error "connection refused"

theorem peer_selected :
    select (routingTable.candidatesFor (some "llama3") "127.0.0.1:11434") =
      some (peerEntry.candidate "llama3") := by
  decide

theorem ok_valid : 100 ≤ (200 : UInt16) ∧ (200 : UInt16) < 1000 := by decide

-- An engine that removes a model on `DELETE` only.
def deletingEngine : Engine := fun request =>
  if request.method = "DELETE" then ⟨200, [], ok_valid⟩
  else ⟨405, utf8 "method not allowed", by decide⟩

end Reference

/-- A posted request is answered by the peer with the engine's own text. -/
theorem peer_forwarding_transparent_post :
    route Reference.proxyCrates Reference.routingTable "127.0.0.1:11434" (fun _ => .error "refused")
        (Reference.peerNetwork Reference.deletingEngine)
        ⟨"POST", "/api/generate", Reference.modelBody⟩ =
      settle (routeLocally Reference.deletingEngine.backend
        ⟨"POST", "/api/generate", Reference.modelBody⟩) :=
  ((peer_forwarding_transparent_iff Reference.proxyLawful Reference.modelBody_named
    Reference.peer_selected rfl (if_pos ⟨rfl, rfl⟩)).2 rfl).mpr ⟨"method not allowed", rfl⟩

/-- A peer's engine is sent a `POST` for the client's `DELETE`. -/
theorem forwarded_delete_is_posted :
    route Reference.proxyCrates Reference.routingTable "127.0.0.1:11434" (fun _ => .error "refused")
        (Reference.peerNetwork Reference.deletingEngine)
        ⟨"DELETE", "/api/delete", Reference.modelBody⟩ ≠
      settle (routeLocally Reference.deletingEngine.backend
        ⟨"DELETE", "/api/delete", Reference.modelBody⟩) := by
  rw [route_remote Reference.proxyLawful Reference.modelBody_named Reference.peer_selected rfl
    (if_pos ⟨rfl, rfl⟩), settle_routeLocally]
  intro same
  have statuses := congrArg ProxyResponse.status same
  revert statuses
  decide

end OpenPair
