import Mathlib.Data.List.AList
import OpenPair.Trust.Identity

/-! The peers a node trusts, by the raw certificates it has pinned (`pin.rs`). -/

set_option autoImplicit false

namespace OpenPair

/-- `HashMap<String, _>`. -/
abbrev Table (V : Type) := AList fun _ : String => V

structure PinnedPeer where
  nodeUuid : String
  certDer : Bytes
  fingerprint : String
  deriving DecidableEq

def PinnedPeer.of (c : Crates) (nodeUuid : String) (certDer : Bytes) : PinnedPeer :=
  { nodeUuid := nodeUuid, certDer := certDer, fingerprint := certFingerprint c certDer }

structure PeerPinStore where
  byUuid : Table PinnedPeer := ∅

namespace PeerPinStore

variable (c : Crates)

-- `pin`, which refuses a certificate that names no node.
def pin (store : PeerPinStore) (certDer : Bytes) : PeerPinStore × Except String String :=
  match nodeUuidFromCert c certDer with
  | none => (store, .error "refusing to pin: cert has no urn:nvpair:node SAN")
  | some nodeUuid =>
    ({ byUuid := store.byUuid.insert nodeUuid
        { nodeUuid := nodeUuid, certDer := certDer, fingerprint := certFingerprint c certDer } },
      .ok nodeUuid)

-- `is_pinned`, by the exact certificate.
def isPinned (store : PeerPinStore) (certDer : Bytes) : Bool :=
  store.byUuid.entries.any fun entry => entry.2.certDer == certDer

def cert (store : PeerPinStore) (nodeUuid : String) : Option Bytes :=
  (store.byUuid.lookup nodeUuid).map (·.certDer)

variable {c} {store : PeerPinStore} {certDer : Bytes} {nodeUuid : String}

theorem pin_ok (named : nodeUuidFromCert c certDer = some nodeUuid) :
    store.pin c certDer =
      ({ byUuid := store.byUuid.insert nodeUuid (.of c nodeUuid certDer) }, .ok nodeUuid) := by
  simp only [pin, named, PinnedPeer.of]

theorem pin_refused (unnamed : nodeUuidFromCert c certDer = none) :
    store.pin c certDer = (store, .error "refusing to pin: cert has no urn:nvpair:node SAN") := by
  simp only [pin, unnamed]

theorem cert_insert (other : String) :
    cert { byUuid := store.byUuid.insert nodeUuid (.of c nodeUuid certDer) } other =
      if nodeUuid = other then some certDer else store.cert other := by
  unfold cert
  split
  · next same =>
    subst same
    rw [AList.lookup_insert]
    rfl
  · next differ => rw [AList.lookup_insert_ne (Ne.symm differ)]

end PeerPinStore

end OpenPair
