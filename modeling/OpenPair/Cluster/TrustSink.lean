import OpenPair.Cluster.Requests
import OpenPair.Trust.ClusterInit

/-! Where the daemon pins a paired peer (`pairing.rs` of the node), and what a
failure in the middle leaves behind.

The certificate is pinned in memory before the directory and the file are made,
and the flag is set last.
-/

set_option autoImplicit false

namespace OpenPair

open FileTree

variable (c : Crates)

/-! ## Calls that fail -/

/-- What the system refuses during a call although the tree would allow it. -/
structure Faults where
  /-- Creating the directory fails after so many parts of its path. -/
  dirs : Option Nat := none
  /-- Writing the file fails, and leaves it as it was or with other bytes in it. -/
  file : Option (Option Bytes) := none

def Faults.createDirs (faults : Faults) (tree : Files Bytes) (cwd : Place) (p : Path) :
    Files Bytes × Bool :=
  match faults.dirs with
  | none => tree.createDirs cwd p
  | some parts => ((tree.createDirs cwd { p with parts := p.parts.take parts }).1, false)

def Faults.write (faults : Faults) (tree : Files Bytes) (cwd : Place) (p : Path) (content : Bytes) :
    Files Bytes × Bool :=
  match faults.file with
  | none => tree.write cwd p content
  | some none => (tree, false)
  | some (some rest) => ((tree.write cwd p rest).1, false)

/-- `trusted/{uuid}.crt`. -/
def peerPath (dir : Path) (uuid : String) : Path := (trustedPath dir).join (peerFile uuid)

-- The two calls of `add_trusted_peer` that can fail.
def Faults.store (faults : Faults) (tree : Files Bytes) (cwd : Place) (dir : Path)
    (uuid pem : String) : Files Bytes × Bool :=
  let made := faults.createDirs tree cwd (trustedPath dir)
  if made.2 then faults.write made.1 cwd (peerPath dir uuid) (utf8 pem) else made

-- `add_trusted_peer` where calls can fail.
def Faults.addTrustedPeer (faults : Faults) (s : TrustState) (cwd : Place) (dir : Path)
    (peerCertPem : String) : TrustState × Except TrustError String :=
  match pemCertToDer peerCertPem with
  | none => (s, .error (.message "no CERTIFICATE block in peer PEM"))
  | some der =>
    match s.pins.pin c der with
    | (pins, .error e) => ({ s with pins := pins }, .error (.message e))
    | (pins, .ok uuid) =>
      let stored := faults.store s.tree cwd dir uuid peerCertPem
      (⟨stored.1, pins⟩, if stored.2 then .ok uuid else .error .io)

/-- Where nothing else fails, the call is the one on the tree. -/
theorem addTrustedPeer_none (s : TrustState) (cwd : Place) (dir : Path) (peerCertPem : String) :
    Faults.addTrustedPeer c {} s cwd dir peerCertPem = addTrustedPeer c s cwd dir peerCertPem := by
  unfold Faults.addTrustedPeer addTrustedPeer
  cases pemCertToDer peerCertPem with
  | none => rfl
  | some der =>
    dsimp only
    cases s.pins.pin c der with
    | mk pins result =>
      cases result with
      | error e => rfl
      | ok uuid =>
        simp only [Faults.store, Faults.createDirs, Faults.write, peerPath]
        by_cases ready : (s.tree.createDirs cwd (trustedPath dir)).2 = true
        · simp [ready]
        · simp [Bool.eq_false_of_not_eq_true ready]

/-! ## The sink -/

structure ClusterTrustSink where
  trust : TrustState
  clusterDir : Option Path
  clustered : Bool
  clusterId : String := ""

namespace ClusterTrustSink

def pinPeer (faults : Faults) (cwd : Place) (sink : ClusterTrustSink) (paired : Paired) :
    ClusterTrustSink :=
  let result : TrustState × Except TrustError String :=
    match sink.clusterDir with
    | some dir => faults.addTrustedPeer c sink.trust cwd dir paired.peer.cert
    | none =>
      let pinned := sink.trust.pins.pin c paired.peerCertDer
      ({ sink.trust with pins := pinned.1 }, pinned.2.mapError .message)
  match result with
  | (trust, .ok _) =>
    { sink with
      trust := trust
      clusterId := if paired.peer.clusterId.isEmpty then sink.clusterId else paired.peer.clusterId
      clustered := true }
  | (trust, .error _) => { sink with trust := trust }

def isClustered (sink : ClusterTrustSink) : Bool := sink.clustered

/-! ## All or nothing -/

/-- The certificate that is pinned: the peer's text where there is a directory,
else the one that came with the pairing. -/
def certOf (sink : ClusterTrustSink) (paired : Paired) : Option Bytes :=
  match sink.clusterDir with
  | some _ => pemCertToDer paired.peer.cert
  | none => some paired.peerCertDer

-- The peer's file, directly inside `trusted/`.
def Inside (tree : Files Bytes) (cwd : Place) (dir : Path) (uuid : String) (place : Place) : Prop :=
  ∃ name, tree.target cwd (peerPath dir uuid) = some place ∧
    (tree.place cwd (trustedPath dir)).map (· ++ [name]) = some place

/-- The peer's file is in `trusted/` and holds the text. -/
def Stored (tree : Files Bytes) (cwd : Place) (dir : Path) (uuid pem : String) : Prop :=
  ∃ place, Inside tree cwd dir uuid place ∧ tree place = some (.file (utf8 pem))

/-- Certificate pinned, file in `trusted/` where there is a directory, flag set. -/
structure Established (cwd : Place) (sink : ClusterTrustSink) (paired : Paired) (uuid : String)
    (der : Bytes) : Prop where
  cert : sink.certOf paired = some der
  named : nodeUuidFromCert c der = some uuid
  pinned : sink.trust.pins.byUuid.lookup uuid = some (.of c uuid der)
  stored (dir : Path) : sink.clusterDir = some dir →
    Stored sink.trust.tree cwd dir uuid paired.peer.cert
  clustered : sink.clustered = true

def SameFiles (before after : Files Bytes) : Prop :=
  KeepsFiles before after ∧ KeepsFiles after before

/-- The pins, the files and the flag are as they were. -/
structure Unchanged (before after : ClusterTrustSink) : Prop where
  pins (uuid : String) :
    after.trust.pins.byUuid.lookup uuid = before.trust.pins.byUuid.lookup uuid
  files : SameFiles before.trust.tree after.trust.tree
  clustered : after.clustered = before.clustered

/-- The directory can be made and the file be written, in `trusted/`. -/
def Storable (faults : Faults) (cwd : Place) (tree : Files Bytes) (dir : Path)
    (uuid pem : String) : Prop :=
  (faults.store tree cwd dir uuid pem).2 = true ∧
    ∃ place, Inside (tree.createDirs cwd (trustedPath dir)).1 cwd dir uuid place

/-- The call comes to nothing new: the certificate was pinned and no file is
touched, or the node was clustered and the file is there all the same. -/
def Repeats (faults : Faults) (cwd : Place) (sink : ClusterTrustSink) (dir : Path)
    (uuid pem : String) (der : Bytes) : Prop :=
  let stored := faults.store sink.trust.tree cwd dir uuid pem
  (sink.trust.pins.byUuid.lookup uuid = some (.of c uuid der) ∧
      SameFiles sink.trust.tree stored.1 ∧ (stored.2 = true → sink.clustered = true)) ∨
    (sink.clustered = true ∧ Stored stored.1 cwd dir uuid pem)

/-- A certificate that names a node, for a sink with a directory, can be stored
unless it is nothing new. -/
def Persists (faults : Faults) (cwd : Place) (sink : ClusterTrustSink) (paired : Paired) : Prop :=
  ∀ dir der uuid, sink.clusterDir = some dir → pemCertToDer paired.peer.cert = some der →
    nodeUuidFromCert c der = some uuid →
      Storable faults cwd sink.trust.tree dir uuid paired.peer.cert ∨
        Repeats c faults cwd sink dir uuid paired.peer.cert der

section

variable {c} {faults : Faults} {cwd : Place} {sink : ClusterTrustSink} {paired : Paired}
  {tree : Files Bytes} {dir : Path} {uuid pem : String} {der : Bytes}

theorem SameFiles.refl (tree : Files Bytes) : SameFiles tree tree := ⟨.refl tree, .refl tree⟩

theorem Unchanged.refl (sink : ClusterTrustSink) : sink.Unchanged sink := ⟨fun _ => rfl, .refl _, rfl⟩

/-- Pinning changes nothing exactly when the entry is there already. -/
theorem insert_lookup_iff {table : Table PinnedPeer} {entry : PinnedPeer} :
    (∀ other, (table.insert uuid entry).lookup other = table.lookup other) ↔
      table.lookup uuid = some entry := by
  constructor
  · intro same
    rw [← same uuid, AList.lookup_insert]
  · intro held other
    by_cases here : other = uuid
    · rw [here, AList.lookup_insert, held]
    · rw [AList.lookup_insert_ne here]

theorem store_ok (stored : (faults.store tree cwd dir uuid pem).2 = true) :
    ∃ place, (tree.createDirs cwd (trustedPath dir)).1.target cwd (peerPath dir uuid) = some place ∧
      (tree.createDirs cwd (trustedPath dir)).1.isDir place = false ∧
      (faults.store tree cwd dir uuid pem).1 =
        Function.update (tree.createDirs cwd (trustedPath dir)).1 place
          (some (.file (utf8 pem))) := by
  unfold Faults.store Faults.createDirs at stored ⊢
  cases broken : faults.dirs with
  | some parts => simp [broken] at stored
  | none =>
    simp only [broken] at stored ⊢
    split at stored
    · next made =>
      rw [if_pos made]
      unfold Faults.write at stored ⊢
      split at stored
      · exact Files.write_ok stored
      · cases stored
      · cases stored
    · next refused => exact absurd stored refused

theorem stored_of_store (stored : (faults.store tree cwd dir uuid pem).2 = true) :
    Stored (faults.store tree cwd dir uuid pem).1 cwd dir uuid pem ↔
      ∃ place, Inside (tree.createDirs cwd (trustedPath dir)).1 cwd dir uuid place := by
  obtain ⟨target, found, free, written⟩ := store_ok stored
  rw [written]
  simp only [Stored, Inside, Files.target_update _ free, Files.place_update _ free, found]
  constructor
  · rintro ⟨place, inside, -⟩
    exact ⟨place, inside⟩
  · rintro ⟨place, name, same, inside⟩
    cases same
    exact ⟨target, ⟨name, rfl, inside⟩, Function.update_self _ _ _⟩

/-! ### The ways through the call -/

theorem pinPeer_unread (configured : sink.clusterDir = some dir)
    (unread : pemCertToDer paired.peer.cert = none) : pinPeer c faults cwd sink paired = sink := by
  cases sink
  cases configured
  simp only [pinPeer, Faults.addTrustedPeer, unread]

theorem pinPeer_unnamed (configured : sink.clusterDir = some dir)
    (read : pemCertToDer paired.peer.cert = some der) (unnamed : nodeUuidFromCert c der = none) :
    pinPeer c faults cwd sink paired = sink := by
  cases sink
  cases configured
  simp only [pinPeer, Faults.addTrustedPeer, read, PeerPinStore.pin_refused unnamed]

theorem pinPeer_stored (configured : sink.clusterDir = some dir)
    (read : pemCertToDer paired.peer.cert = some der) (named : nodeUuidFromCert c der = some uuid)
    {stored : Files Bytes × Bool}
    (ended : faults.store sink.trust.tree cwd dir uuid paired.peer.cert = stored) :
    let after := pinPeer c faults cwd sink paired
    after.trust = ⟨stored.1, { byUuid := sink.trust.pins.byUuid.insert uuid (.of c uuid der) }⟩ ∧
      after.clusterDir = some dir ∧ after.clustered = (stored.2 || sink.clustered) := by
  cases sink
  cases configured
  obtain ⟨tree, done⟩ := stored
  cases done with
  | true => simp [pinPeer, Faults.addTrustedPeer, read, PeerPinStore.pin_ok named, ended]
  | false => simp [pinPeer, Faults.addTrustedPeer, read, PeerPinStore.pin_ok named, ended]

theorem established_iff (configured : sink.clusterDir = some dir)
    (read : pemCertToDer paired.peer.cert = some der) (named : nodeUuidFromCert c der = some uuid)
    {stored : Files Bytes × Bool}
    (ended : faults.store sink.trust.tree cwd dir uuid paired.peer.cert = stored) :
    (∃ uuid der, (pinPeer c faults cwd sink paired).Established c cwd paired uuid der) ↔
      Stored stored.1 cwd dir uuid paired.peer.cert ∧ (stored.2 || sink.clustered) = true := by
  obtain ⟨trust, kept, flag⟩ := pinPeer_stored configured read named ended
  have cert : (pinPeer c faults cwd sink paired).certOf paired = some der := by
    simp only [certOf, kept, read]
  constructor
  · rintro ⟨uuid', der', held⟩
    obtain rfl := Option.some.inj (cert.symm.trans held.cert)
    obtain rfl := Option.some.inj (named.symm.trans held.named)
    have file := held.stored dir kept
    rw [trust] at file
    exact ⟨file, flag.symm.trans held.clustered⟩
  · rintro ⟨file, clustered⟩
    refine ⟨uuid, der, cert, named, ?_, ?_, flag.trans clustered⟩
    · rw [trust]
      exact AList.lookup_insert _
    · intro dir' same
      obtain rfl := Option.some.inj (kept.symm.trans same)
      rw [trust]
      exact file

theorem unchanged_iff (configured : sink.clusterDir = some dir)
    (read : pemCertToDer paired.peer.cert = some der) (named : nodeUuidFromCert c der = some uuid)
    {stored : Files Bytes × Bool}
    (ended : faults.store sink.trust.tree cwd dir uuid paired.peer.cert = stored) :
    sink.Unchanged (pinPeer c faults cwd sink paired) ↔
      sink.trust.pins.byUuid.lookup uuid = some (.of c uuid der) ∧
        SameFiles sink.trust.tree stored.1 ∧ (stored.2 = true → sink.clustered = true) := by
  obtain ⟨trust, -, flag⟩ := pinPeer_stored configured read named ended
  have flags : (pinPeer c faults cwd sink paired).clustered = sink.clustered ↔
      (stored.2 = true → sink.clustered = true) := by
    rw [flag]
    cases stored.2 with
    | true =>
      rw [Bool.true_or]
      exact ⟨fun same _ => same.symm, fun flagged => (flagged rfl).symm⟩
    | false => simp
  constructor
  · intro same
    have pins := same.pins
    have files := same.files
    rw [trust] at pins files
    exact ⟨insert_lookup_iff.mp pins, files, flags.mp same.clustered⟩
  · rintro ⟨pinned, files, clustered⟩
    refine ⟨?_, ?_, flags.mpr clustered⟩
    · rw [trust]
      exact insert_lookup_iff.mpr pinned
    · rw [trust]
      exact files

theorem pinPeer_added (configured : sink.clusterDir = some dir) {trust : TrustState}
    (added : addTrustedPeer c sink.trust cwd dir paired.peer.cert = (trust, .ok uuid)) :
    (pinPeer c {} cwd sink paired).trust = trust ∧
      (pinPeer c {} cwd sink paired).clustered = true := by
  rw [← addTrustedPeer_none] at added
  simp only [pinPeer, configured, added, and_self]

/-- Without a directory nothing can fail once the certificate is accepted. -/
theorem pinPeer_memory (memory : sink.clusterDir = none) :
    (∃ uuid der, (pinPeer c faults cwd sink paired).Established c cwd paired uuid der) ∨
      sink.Unchanged (pinPeer c faults cwd sink paired) := by
  cases named : nodeUuidFromCert c paired.peerCertDer with
  | none =>
    right
    have same : pinPeer c faults cwd sink paired = sink := by
      cases sink
      cases memory
      simp only [pinPeer, PeerPinStore.pin_refused named, Except.mapError]
    rw [same]
    exact .refl sink
  | some uuid =>
    left
    refine ⟨uuid, paired.peerCertDer, ?_⟩
    cases sink
    cases memory
    simp only [pinPeer, PeerPinStore.pin_ok named, Except.mapError]
    refine ⟨rfl, named, AList.lookup_insert _, ?_, rfl⟩
    intro dir configured
    cases configured

theorem pinPeer_pins_accepted (cert : sink.certOf paired = some der)
    (named : nodeUuidFromCert c der = some uuid) :
    (pinPeer c faults cwd sink paired).trust.pins =
      { byUuid := sink.trust.pins.byUuid.insert uuid (.of c uuid der) } := by
  cases configured : sink.clusterDir with
  | none =>
    simp only [certOf, configured, Option.some.injEq] at cert
    subst cert
    simp only [pinPeer, configured, PeerPinStore.pin_ok named, Except.mapError]
  | some dir =>
    simp only [certOf, configured] at cert
    rw [(pinPeer_stored configured cert named rfl).1]

theorem pinPeer_pins_refused (refused : (sink.certOf paired).bind (nodeUuidFromCert c) = none) :
    (pinPeer c faults cwd sink paired).trust.pins = sink.trust.pins := by
  cases configured : sink.clusterDir with
  | none =>
    simp only [certOf, configured, Option.bind_some] at refused
    simp only [pinPeer, configured, PeerPinStore.pin_refused refused, Except.mapError]
  | some dir =>
    simp only [certOf, configured] at refused
    cases read : pemCertToDer paired.peer.cert with
    | none => rw [pinPeer_unread configured read]
    | some der =>
      rw [read, Option.bind_some] at refused
      rw [pinPeer_unnamed configured read refused]

end

end ClusterTrustSink

open ClusterTrustSink in
/-- Pinning is all or nothing exactly when the certificate can be stored in
`trusted/` once it is pinned, or the call comes to nothing new. -/
theorem pinning_all_or_nothing_iff (faults : Faults) (cwd : Place) (sink : ClusterTrustSink)
    (paired : Paired) :
    ((∃ uuid der, (pinPeer c faults cwd sink paired).Established c cwd paired uuid der) ∨
        sink.Unchanged (pinPeer c faults cwd sink paired)) ↔
      Persists c faults cwd sink paired := by
  cases configured : sink.clusterDir with
  | none =>
    apply iff_of_true (pinPeer_memory configured)
    intro dir der uuid wrong
    rw [configured] at wrong
    cases wrong
  | some dir =>
    cases read : pemCertToDer paired.peer.cert with
    | none =>
      apply iff_of_true
      · rw [pinPeer_unread configured read]
        exact .inr (.refl sink)
      · intro _ der uuid _ wrong
        rw [read] at wrong
        cases wrong
    | some der =>
      cases named : nodeUuidFromCert c der with
      | none =>
        apply iff_of_true
        · rw [pinPeer_unnamed configured read named]
          exact .inr (.refl sink)
        · intro _ der' uuid _ same wrong
          rw [read] at same
          cases same
          rw [named] at wrong
          cases wrong
      | some uuid =>
        have persists : Persists c faults cwd sink paired ↔
            Storable faults cwd sink.trust.tree dir uuid paired.peer.cert ∨
              Repeats c faults cwd sink dir uuid paired.peer.cert der := by
          constructor
          · intro persists
            exact persists dir der uuid configured read named
          · intro held dir' der' uuid' configured' read' named'
            rw [configured] at configured'
            cases configured'
            rw [read] at read'
            cases read'
            rw [named] at named'
            cases named'
            exact held
        rw [persists, established_iff configured read named rfl,
          unchanged_iff configured read named rfl, Storable, Repeats]
        cases ended : (faults.store sink.trust.tree cwd dir uuid paired.peer.cert).2 with
        | true =>
          rw [stored_of_store ended]
          simp only [Bool.true_or, and_true, true_and, true_imp_iff]
          -- A repetition that stores as well adds nothing to the storing.
          constructor
          · intro held
            exact held.imp_right .inl
          · intro held
            rcases held with stored | repeats | ⟨_, stored⟩
            · exact .inl stored
            · exact .inr repeats
            · exact .inl stored
        | false =>
          simp only [Bool.false_or, Bool.false_eq_true, false_and, false_or, false_imp_iff, and_true]
          exact or_comm.trans (or_congr_right and_comm)

namespace Reference

def joinerPaired : Paired :=
  { peer := joinerInfo
    peerCertDer := joinerCertificate.der
    kz := ⟨List.replicate 32 0, rfl⟩
    cryptosuitep := 1 }

def clusterSink : ClusterTrustSink :=
  { trust := ⟨clusterTree, {}⟩, clusterDir := some clusterPath, clustered := false }

end Reference

/-- Where the file cannot be written, as on a full disk, the joiner's certificate
is trusted by a node that is in no cluster, and is not on disk. -/
theorem unwritten_peer_stays_pinned :
    ¬ ((∃ uuid der, (Reference.clusterSink.pinPeer Reference.crates { file := some none } []
          Reference.joinerPaired).Established Reference.crates [] Reference.joinerPaired uuid der) ∨
        Reference.clusterSink.Unchanged (Reference.clusterSink.pinPeer Reference.crates
          { file := some none } [] Reference.joinerPaired)) := by
  have known : Reference.joinerCertificate ∈ Reference.certificates := by
    simp [Reference.certificates]
  have read : pemCertToDer Reference.joinerPaired.peer.cert =
      some Reference.joinerCertificate.der := Reference.pemCertToDer_pem nofun
  have made : (Reference.clusterTree.createDirs [] (trustedPath Reference.clusterPath)).2 = true := by
    decide
  have refused : Faults.store { file := some none } Reference.clusterSink.trust.tree []
      Reference.clusterPath Reference.joinerCertificate.nodeUuid Reference.joinerPaired.peer.cert =
        ((Reference.clusterTree.createDirs [] (trustedPath Reference.clusterPath)).1, false) := by
    simp [Faults.store, Faults.createDirs, Faults.write, Reference.clusterSink, made]
  obtain ⟨trust, -, flag⟩ := ClusterTrustSink.pinPeer_stored rfl read
    (Reference.principal (Reference.found known)) refused
  rintro (⟨uuid, der, done⟩ | same)
  · exact absurd (flag.symm.trans done.clustered) nofun
  · have pinned := same.pins Reference.joinerCertificate.nodeUuid
    rw [trust, AList.lookup_insert] at pinned
    cases pinned

end OpenPair
