import OpenPair.Daemon.Peers

/-! What a turn does to the trust store and to the routing table, said once: it
pins a certificate, writes an entry, learns models, or leaves both as they are.
-/

set_option autoImplicit false

namespace OpenPair

open FileTree Tasks Transition

namespace Daemon

inductive Effect where
  | pin (nodeUuid : String) (der : Bytes)
  | entry (nodeUuid host : String) (port : UInt16) (pinned : Bool)
  | models (nodeUuid : String) (models : List String)
  | localModels (models : List String)

variable (d : Setup)

def Tables.shown (t : Tables) : PeerPinStore × RoutingTable := (t.pins, t.routing)

def Tables.after (t : Tables) : Option Effect → PeerPinStore × RoutingTable
  | none => t.shown
  | some (.pin uuid der) => ({ byUuid := t.pins.byUuid.insert uuid (.of d.crates uuid der) }, t.routing)
  | some (.entry nodeUuid host port pinned) =>
    (t.pins, t.routing.upsertPeerMeta nodeUuid host port pinned)
  | some (.models nodeUuid models) => (t.pins, t.routing.setPeerModels nodeUuid models)
  | some (.localModels models) => (t.pins, t.routing.setLocalModels models)

def pinEffect (der : Bytes) : Option Effect :=
  (nodeUuidFromCert d.crates der).map fun uuid => .pin uuid der

def bodyEffect (body : Bytes) : Option Effect :=
  (pemCertToDer (fromUtf8Lossy body)).bind (pinEffect d)

def startEffect (t : Tables) : Call → Option Effect
  | .pinPeer _ _ paired => (t.sink.certOf paired).bind (pinEffect d)
  | .addCert body => bodyEffect d body
  | _ => none

def turnEffect (io : Io) : Point → Option Effect
  | .found nodeUuid host port pinned => some (.entry nodeUuid host port pinned)
  | .fetchModels ((nodeUuid, _, _) :: _) => io.models.toOption.map (.models nodeUuid)
  | .fetchLocal => io.models.toOption.map .localModels
  | .pairCert .. => io.response.toOption.bind fun reply => bodyEffect d reply.2
  | .pairPush host nodeUuid ingressPort =>
    io.response.toOption.bind fun reply =>
      if reply.1 < 400 ∧ ingressPort ≠ 0 then some (.entry nodeUuid host ingressPort true) else none
  | _ => none

def effect : State → Event → Option Effect :=
  (program d).effect (startEffect d) fun _ => turnEffect d

section

variable {d} {t : Tables}

theorem probes_shared (rest : List (String × String × UInt16)) : (probes t rest).shared = t := by
  cases rest with
  | nil => rfl
  | cons peer rest => rfl

theorem shown_setPins_pin (der : Bytes) :
    (t.setPins (t.pins.pin d.crates der).1).shown = t.after d (pinEffect d der) := by
  unfold pinEffect
  cases named : nodeUuidFromCert d.crates der with
  | none =>
    rw [PeerPinStore.pin_refused named]
    rfl
  | some uuid =>
    rw [PeerPinStore.pin_ok named]
    rfl

theorem shown_pinPeer (faults : Faults) (cwd : Place) (paired : Paired) :
    Tables.shown { t with sink := t.sink.pinPeer d.crates faults cwd paired } =
      t.after d ((t.sink.certOf paired).bind (pinEffect d)) := by
  have same (pins : PeerPinStore)
      (after : (t.sink.pinPeer d.crates faults cwd paired).trust.pins = pins) :
      Tables.shown { t with sink := t.sink.pinPeer d.crates faults cwd paired } =
        (pins, t.routing) := by
    unfold Tables.shown Tables.pins
    rw [after]
  cases cert : t.sink.certOf paired with
  | none =>
    have refused : (t.sink.certOf paired).bind (nodeUuidFromCert d.crates) = none := by
      rw [cert, Option.bind_none]
    exact same _ (ClusterTrustSink.pinPeer_pins_refused refused)
  | some der =>
    rw [Option.bind_some, pinEffect]
    cases named : nodeUuidFromCert d.crates der with
    | none =>
      have refused : (t.sink.certOf paired).bind (nodeUuidFromCert d.crates) = none := by
        rw [cert, Option.bind_some, named]
      exact same _ (ClusterTrustSink.pinPeer_pins_refused refused)
    | some uuid => exact same _ (ClusterTrustSink.pinPeer_pins_accepted cert named)

theorem shown_addCert (body : Bytes) :
    (addCert d t body).shared.shown = t.after d (bodyEffect d body) := by
  unfold addCert bodyEffect
  cases pemCertToDer (fromUtf8Lossy body) with
  | none => rfl
  | some der =>
    rw [Option.bind_some, ← shown_setPins_pin]
    dsimp only
    cases t.pins.pin d.crates der with
    | mk pins result =>
      cases result with
      | ok nodeUuid => rfl
      | error e => rfl

theorem pair_shared (body : Bytes) : (pair d t body).shared = t := by
  unfold pair
  cases d.ui.readPeer body with
  | error e => rfl
  | ok peer =>
    cases peer with
    | none => rfl
    | some peer =>
      dsimp only
      cases parseUrl peer with
      | error e => rfl
      | ok url => rfl

theorem receive_shared (peer : DiscoveredPeer) : (receive d t peer).shared = t := by
  unfold receive
  cases peer.node d.nodeId with
  | none => rfl
  | some nodeUuid => rfl

theorem shown_learnModels (models : Except String (List String))
    (nodeUuid host : String) (port : UInt16) (rest : List (String × String × UInt16)) :
    (learnModels t models ((nodeUuid, host, port) :: rest)).shared.shown =
      t.after d (models.toOption.map (.models nodeUuid)) := by
  unfold learnModels
  cases models with
  | error e => exact congrArg Tables.shown (probes_shared rest)
  | ok models => exact congrArg Tables.shown (probes_shared rest)

theorem pairStatus_shared (host : String) (port : UInt16)
    (response : Except String (UInt16 × Bytes)) :
    (pairStatus d t host port response).shared = t := by
  cases response with
  | error e => rfl
  | ok reply =>
    unfold pairStatus
    dsimp only
    cases d.ui.readStatus reply.2 with
    | error e => rfl
    | ok status => rfl

theorem shown_pairCert (host nodeUuid : String) (port ingressPort : UInt16)
    (response : Except String (UInt16 × Bytes)) :
    (pairCert d t host port nodeUuid ingressPort response).shared.shown =
      t.after d (response.toOption.bind fun reply => bodyEffect d reply.2) := by
  cases response with
  | error e => rfl
  | ok reply =>
    have some : (Except.ok reply : Except String (UInt16 × Bytes)).toOption = .some reply := rfl
    rw [some, Option.bind_some]
    unfold pairCert bodyEffect
    dsimp only
    cases pemCertToDer (fromUtf8Lossy reply.2) with
    | none => rfl
    | some der =>
      rw [Option.bind_some, ← shown_setPins_pin]
      dsimp only
      cases t.pins.pin d.crates der with
      | mk pins result =>
        cases result with
        | ok nodeUuid => rfl
        | error e => rfl

theorem shown_pairPush (host nodeUuid : String) (ingressPort : UInt16)
    (response : Except String (UInt16 × Bytes)) :
    (pairPush t host nodeUuid ingressPort response).shared.shown =
      t.after d (response.toOption.bind fun reply =>
        if reply.1 < 400 ∧ ingressPort ≠ 0 then some (.entry nodeUuid host ingressPort true)
        else none) := by
  cases response with
  | error e => rfl
  | ok reply =>
    have some : (Except.ok reply : Except String (UInt16 × Bytes)).toOption = .some reply := rfl
    rw [some, Option.bind_some]
    unfold pairPush
    dsimp only
    by_cases refused : 400 ≤ reply.1
    · rw [if_pos refused, if_neg fun both => absurd both.1 (UInt16.not_lt.mpr refused)]
      rfl
    · have accepted : reply.1 < 400 := UInt16.not_le.mp refused
      rw [if_neg refused]
      by_cases known : ingressPort ≠ 0
      · rw [if_pos known, if_pos ⟨accepted, known⟩]
        rfl
      · rw [if_neg known, if_neg fun both => known both.2]
        rfl

theorem shown_start (call : Call) :
    (start d t call).shared.shown = t.after d (startEffect d t call) := by
  cases call with
  | browse => rfl
  | pollPeers => rfl
  | pollLocal => rfl
  | pinPeer faults cwd paired => exact shown_pinPeer faults cwd paired
  | addCert body => exact shown_addCert body
  | pair body => exact congrArg Tables.shown (pair_shared body)

theorem shown_advance (io : Io) (point : Point) :
    (advance d t io point).shared.shown = t.after d (turnEffect d io point) := by
  cases point with
  | receive => exact congrArg Tables.shown (receive_shared io.discovered)
  | found nodeUuid host port pinned => rfl
  | listPeers => exact congrArg Tables.shown (probes_shared t.routing.pinnedPeers)
  | fetchModels peers =>
    cases peers with
    | nil => rfl
    | cons peer rest => exact shown_learnModels io.models peer.1 peer.2.1 peer.2.2 rest
  | fetchLocal =>
    cases models : io.models with
    | error e => simp only [advance, turnEffect, models]; rfl
    | ok models => simp only [advance, turnEffect, models]; rfl
  | pairStatus host port => exact congrArg Tables.shown (pairStatus_shared host port io.response)
  | pairCert host port nodeUuid ingressPort =>
    exact shown_pairCert host nodeUuid port ingressPort io.response
  | pairPush host nodeUuid ingressPort => exact shown_pairPush host nodeUuid ingressPort io.response
  | returned => rfl

theorem shown_step (x : State) (event : Event) :
    ((program d).step x event).1.shared.shown = x.shared.after d (effect d x event) :=
  step_effect (p := program d) (R := fun t effect t' => t'.shown = t.after d effect)
    (fun _ => rfl) (fun _ call => shown_start call) (fun _ _ io point => shown_advance io point)
    x event

/-- What a turn other than a first one can do, and where. -/
inductive Source (io : Io) : Point → Effect → Prop where
  | pin {host nodeUuid uuid : String} {port ingressPort : UInt16} {der : Bytes} :
    Source io (.pairCert host port nodeUuid ingressPort) (.pin uuid der)
  | found {nodeUuid host : String} {port : UInt16} {pinned : Bool} :
    Source io (.found nodeUuid host port pinned) (.entry nodeUuid host port pinned)
  | paired {host nodeUuid : String} {ingressPort : UInt16} (known : ingressPort ≠ 0) :
    Source io (.pairPush host nodeUuid ingressPort) (.entry nodeUuid host ingressPort true)
  | models {nodeUuid host : String} {port : UInt16} {rest : List (String × String × UInt16)}
      {models : List String} (fetched : io.models = .ok models) :
    Source io (.fetchModels ((nodeUuid, host, port) :: rest)) (.models nodeUuid models)
  | localModels {models : List String} (fetched : io.models = .ok models) :
    Source io .fetchLocal (.localModels models)

theorem bodyEffect_pin {body : Bytes} {effect : Effect} (sent : bodyEffect d body = some effect) :
    ∃ uuid der, effect = .pin uuid der := by
  obtain ⟨der, -, named⟩ := Option.bind_eq_some_iff.mp sent
  obtain ⟨uuid, -, rfl⟩ := Option.map_eq_some_iff.mp named
  exact ⟨uuid, der, rfl⟩

theorem eq_ok_of_toOption {α : Type} {result : Except String α} {value : α}
    (given : result.toOption = some value) : result = .ok value := by
  cases result with
  | error e => cases given
  | ok given' =>
    cases given
    rfl

theorem turnEffect_source {io : Io} {point : Point} {effect : Effect}
    (turned : turnEffect d io point = some effect) : Source io point effect := by
  cases point with
  | found nodeUuid host port pinned =>
    cases turned
    exact .found
  | fetchModels peers =>
    cases peers with
    | nil => cases turned
    | cons peer rest =>
      obtain ⟨models, given, rfl⟩ := Option.map_eq_some_iff.mp turned
      exact .models (eq_ok_of_toOption given)
  | fetchLocal =>
    obtain ⟨models, given, rfl⟩ := Option.map_eq_some_iff.mp turned
    exact .localModels (eq_ok_of_toOption given)
  | pairCert host port nodeUuid ingressPort =>
    obtain ⟨reply, -, sent⟩ := Option.bind_eq_some_iff.mp turned
    obtain ⟨uuid, der, rfl⟩ := bodyEffect_pin sent
    exact .pin
  | pairPush host nodeUuid ingressPort =>
    obtain ⟨reply, -, turned⟩ := Option.bind_eq_some_iff.mp turned
    split at turned
    · next accepted =>
      cases turned
      exact .paired accepted.2
    · cases turned
  | receive => cases turned
  | listPeers => cases turned
  | pairStatus host port => cases turned
  | returned => cases turned

/-- A call pins at most; a later turn has the effect of its point. -/
theorem effect_cases {x : State} {event : Event} {done : Effect}
    (had : effect d x event = some done) : (∃ uuid der, done = .pin uuid der) ∨
      ∃ id io task, event = .resume id io ∧ x.tasks id = some task ∧ Source io task.point done := by
  cases event with
  | call serial call =>
    left
    unfold effect Program.effect at had
    dsimp only at had
    split at had
    · cases had
    · cases call with
      | pinPeer faults cwd paired =>
        obtain ⟨der, -, named⟩ := Option.bind_eq_some_iff.mp had
        obtain ⟨uuid, -, rfl⟩ := Option.map_eq_some_iff.mp named
        exact ⟨uuid, der, rfl⟩
      | addCert body => exact bodyEffect_pin had
      | browse => cases had
      | pollPeers => cases had
      | pollLocal => cases had
      | pair body => cases had
  | resume id io =>
    obtain ⟨task, waiting, turned⟩ := Option.bind_eq_some_iff.mp had
    exact .inr ⟨id, io, task, rfl, waiting, turnEffect_source turned⟩

def Keyed (table : RoutingTable) : Prop :=
  ∀ key peer, table.peers.lookup key = some peer → peer.nodeId = key

theorem routing_step (x : State) (event : Event) :
    ((program d).step x event).1.shared.routing = (x.shared.after d (effect d x event)).2 :=
  congrArg Prod.snd (shown_step x event)

theorem keyed_step (x : State) (event : Event) (keyed : Keyed x.shared.routing) :
    Keyed ((program d).step x event).1.shared.routing := by
  rw [routing_step]
  cases effect d x event with
  | none => exact keyed
  | some effect =>
    cases effect with
    | pin nodeUuid der => exact keyed
    | entry nodeUuid host port pinned =>
      intro key peer found
      by_cases same : key = nodeUuid
      · subst same
        obtain ⟨written, found', -, -, named⟩ := x.shared.routing.lookup_upsertPeerMeta_self
          key host port pinned
        obtain rfl := Option.some.inj (found.symm.trans found')
        rcases named with new | ⟨before, found, same⟩
        · exact new
        · exact same.trans (keyed key before found)
      · apply keyed key peer
        rw [← found]
        exact (RoutingTable.lookup_upsertPeerMeta_ne same).symm
    | models nodeUuid models =>
      intro key peer found
      have same := x.shared.routing.lookup_setPeerModels nodeUuid models PeerEntry.nodeId key
        fun _ _ => rfl
      change (x.shared.routing.setPeerModels nodeUuid models).peers.lookup key = some peer at found
      rw [found] at same
      obtain ⟨before, found, same⟩ := Option.map_eq_some_iff.mp same.symm
      exact same.symm.trans (keyed key before found)
    | localModels models => exact keyed

end

end Daemon

end OpenPair
