import OpenPair.Daemon.Effects
import OpenPair.Library.Mirror

/-! Whether the routing table says of its peers what the trust store says.

The store holds certificates by the node they name; an entry's flag is what its
writer took the store to hold. The two are a mirror of a set of nodes, in which
a pinned certificate puts its node and a written entry flags one.
-/

set_option autoImplicit false

namespace OpenPair

open FileTree Tasks Transition

namespace Daemon

/-- Every entry is flagged as pinned exactly when a certificate is pinned for its node. -/
def Tables.FlagsTrackPins (t : Tables) : Prop :=
  ∀ key peer, t.routing.peers.lookup key = some peer →
    (peer.pinned = true ↔ (t.pins.cert peer.nodeId).isSome)

def Effect.update : Effect → Option (Mirror.Update String)
  | .pin nodeUuid _ => some (.hold nodeUuid)
  | .entry nodeUuid _ _ pinned => some (.write nodeUuid pinned)
  | .models .. => none
  | .localModels _ => none

/-- The nodes that a certificate is pinned for, and the flags of those that are listed. -/
def mirror (shown : PeerPinStore × RoutingTable) : Mirror.State String where
  held nodeId := (shown.1.cert nodeId).isSome
  flag nodeId := (shown.2.peers.lookup nodeId).map PeerEntry.pinned

variable (d : Setup)

/-- A step pins a certificate only for a node that is not listed, or has one
already, and flags an entry as the store is when the entry is written. -/
def Timely (x : State) (event : Event) : Prop :=
  match effect d x event with
  | some (.pin nodeUuid _) =>
    x.shared.pins.cert nodeUuid = none → x.shared.routing.peers.lookup nodeUuid = none
  | some (.entry nodeUuid _ _ pinned) =>
    (pinned = true ↔ (x.shared.pins.cert nodeUuid).isSome)
  | _ => True

section

variable {d} {t : Tables} {table : RoutingTable}

/-- For such tables the mirror is what is said of the entries. -/
theorem flagsTrackPins_iff (keyed : Keyed t.routing) :
    t.FlagsTrackPins ↔ (mirror t.shown).Coherent := by
  constructor
  · intro track key value flagged
    obtain ⟨peer, found, rfl⟩ := Option.map_eq_some_iff.mp flagged
    have right := track key peer found
    rw [keyed key peer found] at right
    exact Bool.eq_iff_iff.mpr right
  · intro coherent key peer found
    have flagged : (mirror t.shown).flag key = some peer.pinned := by
      simp only [mirror, Tables.shown, found, Option.map_some]
    rw [keyed key peer found]
    exact Bool.eq_iff_iff.mp (coherent key peer.pinned flagged)

theorem mirror_upsert (pins : PeerPinStore) (nodeId host : String) (port : UInt16) (pinned : Bool) :
    mirror (pins, table.upsertPeerMeta nodeId host port pinned) =
      (mirror (pins, table)).update (some (.write nodeId pinned)) := by
  unfold mirror Mirror.State.update
  congr 1
  funext other
  by_cases same : other = nodeId
  · subst same
    obtain ⟨peer, found, -, flagged, -⟩ := table.lookup_upsertPeerMeta_self other host
      port pinned
    rw [found, Option.map_some, flagged, Function.update_self]
  · rw [RoutingTable.lookup_upsertPeerMeta_ne same, Function.update_of_ne same]

theorem mirror_pin (pins : PeerPinStore) (uuid : String) (der : Bytes) :
    mirror ({ byUuid := pins.byUuid.insert uuid (.of d.crates uuid der) }, table) =
      (mirror (pins, table)).update (some (.hold uuid)) := by
  unfold mirror Mirror.State.update
  congr 1
  funext other
  rw [PeerPinStore.cert_insert]
  by_cases same : other = uuid
  · rw [if_pos same.symm, same, Function.update_self]
    rfl
  · rw [if_neg (Ne.symm same), Function.update_of_ne same]

theorem mirror_models (pins : PeerPinStore) (nodeId : String) (models : List String) :
    mirror (pins, table.setPeerModels nodeId models) = mirror (pins, table) := by
  unfold mirror
  congr 1
  funext other
  exact table.lookup_setPeerModels nodeId models PeerEntry.pinned other fun _ _ => rfl

theorem mirror_after (effect : Option Effect) :
    mirror (t.after d effect) = (mirror t.shown).update (effect.bind Effect.update) := by
  cases effect with
  | none => rfl
  | some effect =>
    cases effect with
    | pin nodeUuid der => exact mirror_pin t.pins nodeUuid der
    | entry nodeUuid host port pinned => exact mirror_upsert t.pins nodeUuid host port pinned
    | models nodeUuid models => exact mirror_models t.pins nodeUuid models
    | localModels models => rfl

/-- The node refines the mirror. -/
theorem mirror_step (x : State) (event : Event) :
    mirror ((program d).step x event).1.shared.shown =
      (mirror x.shared.shown).update ((effect d x event).bind Effect.update) := by
  rw [shown_step, mirror_after]

theorem timely_iff (x : State) (event : Event) :
    Timely d x event ↔
      (mirror x.shared.shown).Timely ((effect d x event).bind Effect.update) := by
  unfold Timely
  cases effect d x event with
  | none => exact Iff.rfl
  | some effect =>
    cases effect with
    | pin nodeUuid der =>
      have held : (mirror x.shared.shown).held nodeUuid = false ↔
          x.shared.pins.cert nodeUuid = none := Option.isSome_eq_false_iff.trans Option.isNone_iff_eq_none
      have flag : (mirror x.shared.shown).flag nodeUuid = none ↔
          x.shared.routing.peers.lookup nodeUuid = none := Option.map_eq_none_iff
      exact (imp_congr held flag).symm
    | entry nodeUuid host port pinned => exact Bool.eq_iff_iff.symm
    | models nodeUuid models => exact Iff.rfl
    | localModels models => exact Iff.rfl

end

/-- In every state of a run the flags track the pins exactly when every step of
the run is timely. -/
theorem pinned_flags_iff (sink : ClusterTrustSink) (events : List Event) :
    Throughout (program d).step (fun x => x.shared.FlagsTrackPins) (fresh d sink) events ↔
      EveryStep (fun _ e => Timely d e.before e.input) (trace (program d).step (fresh d sink) events) := by
  have start : (mirror (fresh d sink).shared.shown).Coherent := by
    intro key value flagged
    cases flagged
  have keyed (first : List Event) :
      Keyed (run (program d).step (fresh d sink) first).shared.routing := by
    apply run_invariant (P := fun x : State => Keyed x.shared.routing) (program d).step keyed_step
    intro key peer found
    cases found
  have track : Throughout (program d).step (fun x => x.shared.FlagsTrackPins) (fresh d sink) events ↔
      Throughout (program d).step (fun x => (mirror x.shared.shown).Coherent) (fresh d sink) events := by
    unfold Throughout
    simp only [flagsTrackPins_iff (keyed _)]
  rw [track]
  simp only [timely_iff]
  exact Mirror.coherent_run_iff (fun x : State => mirror x.shared.shown) (mirror_step (d := d))
    start events

/-- A peer that is found first and pairs then is pinned but not flagged. -/
theorem paired_after_discovery_unflagged :
    ¬ Throughout (program Reference.setup).step (fun x => x.shared.FlagsTrackPins)
      (fresh Reference.setup Reference.memorySink)
      (Reference.peerDiscovery Reference.joinerConfig ++
        [.call 0 (.pinPeer {} [] Reference.joinerPaired)]) := by
  intro every
  let shared : Tables :=
    { sink := Reference.memorySink.pinPeer Reference.crates {} [] Reference.joinerPaired
      routing := (RoutingTable.new Reference.setup.nodeId).upsertPeerMeta
        Reference.joinerCertificate.nodeUuid "joiner.local" 7071 false }
  have known : Reference.joinerCertificate ∈ Reference.certificates := by
    simp [Reference.certificates]
  have cert : Reference.memorySink.certOf Reference.joinerPaired =
      some Reference.joinerCertificate.der := rfl
  have named := Reference.principal (Reference.found known)
  have ended : (run (program Reference.setup).step (fresh Reference.setup Reference.memorySink)
      (Reference.peerDiscovery Reference.joinerConfig ++
          [.call 0 (.pinPeer {} [] Reference.joinerPaired)])).shared =
      shared := rfl
  have track : shared.FlagsTrackPins := ended ▸ every _ [] (List.append_nil _).symm
  have entry : shared.routing.peers.lookup Reference.joinerCertificate.nodeUuid =
      some (.new Reference.joinerCertificate.nodeUuid "joiner.local" 7071 false) :=
    AList.lookup_insert _
  have right := track _ _ entry
  simp only [shared, Tables.pins, ClusterTrustSink.pinPeer_pins_accepted cert named] at right
  rw [PeerEntry.new, PeerPinStore.cert_insert, if_pos rfl] at right
  cases right.mpr rfl

end Daemon

end OpenPair
