import OpenPair.Reference
import OpenPair.Trust.NodeIdentity
import OpenPair.Trust.PinStore

/-! The trust directory of a cluster on disk (`cluster_dir.rs`).

The file of a peer is named after the text in its certificate, and that text is
the remote side's choice. Paths are those of a POSIX system.
-/

set_option autoImplicit false

namespace OpenPair

open FileTree

variable (c : Crates)

/-- What a node has on disk and in memory. -/
structure TrustState where
  tree : Files Bytes
  pins : PeerPinStore

def trustedName : Name := "trusted".toList

/-- `<dir>/trusted`. -/
def trustedPath (dir : Path) : Path := dir.join ⟨false, [trustedName]⟩

/-- `{uuid}.crt`. -/
def peerFile (uuid : String) : Path := .posix (uuid ++ ".crt").toList

-- `add_trusted_peer`, in a working directory.
def addTrustedPeer (s : TrustState) (cwd : Place) (dir : Path) (peerCertPem : String) :
    TrustState × Except TrustError String :=
  match pemCertToDer peerCertPem with
  | none => (s, .error (.message "no CERTIFICATE block in peer PEM"))
  | some der =>
    match s.pins.pin c der with
    | (pins, .error e) => ({ s with pins := pins }, .error (.message e))
    | (pins, .ok uuid) =>
      let made := s.tree.createDirs cwd (trustedPath dir)
      if made.2 = false then ({ tree := made.1, pins := pins }, .error .io)
      else
        let written := made.1.write cwd ((trustedPath dir).join (peerFile uuid)) (utf8 peerCertPem)
        ({ tree := written.1, pins := pins }, if written.2 then .ok uuid else .error .io)

/-! ## What changes on disk -/

/-- At most one place directly inside a directory changes; the directory itself
can be made. -/
def StaysInside (trusted : Place) (before after : Files Bytes) : Prop :=
  ∃ name, ∀ place, place ≠ trusted ++ [name] → after place = before place ∨
    (place = trusted ∧ before trusted = none ∧ after trusted = some .dir)

/-- The tree with the `trusted` directory in it, `none` where a file is in its place. -/
def withTrusted (tree : Files Bytes) (trusted : Place) : Option (Files Bytes) :=
  match tree trusted with
  | none => some (Function.update tree trusted (some .dir))
  | some .dir => some tree
  | some (.file _) => none

/-- The place that the name of a peer's file leads to, seen from `trusted`. -/
def destination (tree : Files Bytes) (trusted : Place) (uuid : String) : Option Place :=
  (withTrusted tree trusted).bind fun tree => tree.target trusted (peerFile uuid)

/-- The path of a cluster directory that exists, and its place. -/
structure ClusterDir (tree : Files Bytes) (cwd : Place) (dir : Path) (base : Place) : Prop where
  valid : dir.valid = true
  opened : tree.walk (dir.start cwd) dir.parts = some base

section

variable {c} {tree made : Files Bytes} {cwd base trusted place : Place} {dir : Path} {uuid : String}

theorem enter_trusted : enter base trustedName = base ++ [trustedName] := by
  have normal : trustedName ≠ [] ∧ trustedName ≠ ['.'] ∧ trustedName ≠ ['.', '.'] := by decide
  simp [enter, normal.1, normal.2.1, normal.2.2]

theorem withTrusted_isDir (opens : withTrusted tree trusted = some made) :
    made.isDir trusted = true := by
  unfold withTrusted at opens
  split at opens
  · cases opens
    simp [Files.isDir, Entry.isDir]
  · next held =>
    cases opens
    simp [Files.isDir, Entry.isDir, held]
  · cases opens

theorem withTrusted_other {p : Place} (opens : withTrusted tree trusted = some made) :
    made p = tree p ∨ (p = trusted ∧ tree trusted = none ∧ made trusted = some .dir) := by
  unfold withTrusted at opens
  split at opens
  · next absent =>
    cases opens
    by_cases same : p = trusted
    · exact .inr ⟨same, absent, by simp⟩
    · exact .inl (Function.update_of_ne same _ _)
  · cases opens
    exact .inl rfl
  · cases opens

theorem withTrusted_mono (opens : withTrusted tree trusted = some made)
    (held : tree.isDir place = true) : made.isDir place = true := by
  rcases withTrusted_other (p := place) opens with same | ⟨rfl, -, new⟩
  · rw [Files.isDir, same]
    exact held
  · simp [Files.isDir, new, Entry.isDir]

theorem trustedPath_valid (valid : dir.valid = true) : (trustedPath dir).valid = true := by
  have parts : (trustedPath dir).parts = dir.parts ++ [trustedName] := rfl
  rw [Path.valid, parts, List.all_append, Bool.and_eq_true]
  exact ⟨valid, by decide⟩

theorem createDirs_trusted (held : ClusterDir tree cwd dir base) :
    tree.createDirs cwd (trustedPath dir) =
      match withTrusted tree (base ++ [trustedName]) with
      | some made => (made, true)
      | none => (tree, false) := by
  have parts : (trustedPath dir).parts = dir.parts ++ [trustedName] := rfl
  have start : (trustedPath dir).start cwd = dir.start cwd := rfl
  rw [Files.createDirs, trustedPath_valid held.valid, parts, start, Files.makeDirs_walk held.opened,
    Files.makeDirs, enter_trusted, withTrusted]
  cases present : tree (base ++ [trustedName]) with
  | none => simp [Files.makeDirs, Files.isDir, Entry.isDir]
  | some entry =>
    cases entry with
    | dir => simp [Files.makeDirs, Files.isDir, Entry.isDir, present]
    | file content => simp

def persisted (tree : Files Bytes) (trusted : Place) (uuid pem : String) : Files Bytes :=
  match withTrusted tree trusted with
  | none => tree
  | some made =>
    match made.target trusted (peerFile uuid) with
    | none => made
    | some place => Function.update made place (some (.file (utf8 pem)))

theorem peerFile_parts (uuid : String) : (peerFile uuid).parts ≠ [] := by
  intro none
  have some {text : List Char} : posixParts text ≠ [] := by
    unfold posixParts
    split
    · exact List.cons_ne_nil _ _
    · split
      · exact List.cons_ne_nil _ _
      · split <;> exact List.cons_ne_nil _ _
  exact some none

theorem addTrustedPeer_tree {s : TrustState} {pem : String} {der : Bytes}
    (held : ClusterDir s.tree cwd dir base) (decoded : pemCertToDer pem = some der)
    (named : nodeUuidFromCert c der = some uuid) :
    (addTrustedPeer c s cwd dir pem).1.tree =
      persisted s.tree (base ++ [trustedName]) uuid pem := by
  simp only [addTrustedPeer, decoded, PeerPinStore.pin, named, createDirs_trusted held, persisted]
  cases opens : withTrusted s.tree (base ++ [trustedName]) with
  | none => simp
  | some made =>
    -- Seen from the directory, the joined path leads where the file name does.
    have walked : made.walk ((trustedPath dir).start cwd) (trustedPath dir).parts =
        some (base ++ [trustedName]) := by
      have before := Files.walk_mono (fun _ => withTrusted_mono opens) held.opened
      have parts : (trustedPath dir).parts = dir.parts ++ [trustedName] := rfl
      have start : (trustedPath dir).start cwd = dir.start cwd := rfl
      rw [parts, start, Files.walk_append, before, Option.bind_some, Files.walk,
        if_pos (Files.isDir_of_walk before).2, enter_trusted, Files.walk,
        if_pos (withTrusted_isDir opens)]
    simp only [Bool.true_eq_false, if_false, Files.write,
      Files.target_join (trustedPath_valid held.valid) walked (peerFile_parts uuid)]
    cases made.target (base ++ [trustedName]) (peerFile uuid) <;> rfl

/-- The file stays inside exactly when its name leads to a place inside, to none
that can be written, or to a file that holds this text already. -/
theorem persisted_staysInside_iff {pem : String} :
    StaysInside trusted tree (persisted tree trusted uuid pem) ↔
      ∀ place, destination tree trusted uuid = some place →
        place.dropLast = trusted ∨ tree place = some (.file (utf8 pem)) := by
  unfold destination
  cases opens : withTrusted tree trusted with
  | none =>
    have same : persisted tree trusted uuid pem = tree := by simp only [persisted, opens]
    rw [same]
    exact iff_of_true ⟨[], fun _ _ => .inl rfl⟩ fun _ wrong => by cases wrong
  | some made =>
    have other (place : Place) := withTrusted_other (p := place) opens
    rw [Option.bind_some]
    cases found : made.target trusted (peerFile uuid) with
    | none =>
      have same : persisted tree trusted uuid pem = made := by simp only [persisted, opens, found]
      rw [same]
      exact iff_of_true ⟨[], fun place _ => other place⟩ fun _ wrong => by cases wrong
    | some place =>
      have same : persisted tree trusted uuid pem =
          Function.update made place (some (.file (utf8 pem))) := by
        simp only [persisted, opens, found]
      rw [same]
      obtain ⟨inner, last, rfl, -⟩ := Files.target_eq_some found
      have written : Function.update made (inner ++ [last]) (some (.file (utf8 pem)))
          (inner ++ [last]) = some (.file (utf8 pem)) := Function.update_self _ _ _
      constructor
      · rintro ⟨name, stays⟩ _ same
        cases same
        -- The one file that is written lies inside, or it is as it was.
        by_cases inside : inner ++ [last] = trusted ++ [name]
        · exact .inl (by rw [inside, List.dropLast_concat])
        · right
          rcases stays _ inside with kept | ⟨rfl, -, made⟩
          · rw [← kept, written]
          · rw [written] at made
            cases made
      · intro lands
        refine ⟨last, fun place outside => ?_⟩
        by_cases here : place = inner ++ [last]
        · subst here
          rcases lands _ rfl with inside | same
          · rw [List.dropLast_concat] at inside
            exact absurd (by rw [inside]) outside
          · exact .inl (by rw [written, same])
        · rw [Function.update_of_ne here]
          rcases other place with kept | ⟨rfl, absent, opened⟩
          · exact .inl kept
          · exact .inr ⟨rfl, absent, by rw [Function.update_of_ne here, opened]⟩

theorem destination_plain (plain : '/' ∉ uuid.toList)
    (found : destination tree trusted uuid = some place) : place.dropLast = trusted := by
  obtain ⟨made, opens, found⟩ := Option.bind_eq_some_iff.mp found
  obtain ⟨inner, last, rfl, named, walked, -⟩ := Files.target_eq_some found
  have text : '/' ∉ (uuid ++ ".crt").toList := by
    have suffix : '/' ∉ ".crt".toList := by decide
    rw [String.toList_append, List.mem_append, not_or]
    exact ⟨plain, suffix⟩
  have parts : (peerFile uuid).parts = [(uuid ++ ".crt").toList] := posixParts_of_not_mem text
  have relative : (peerFile uuid).start trusted = trusted := by
    have first : (uuid ++ ".crt").toList.head? ≠ some '/' := fun slash =>
      text (List.mem_of_mem_head? slash)
    have absolute : (peerFile uuid).absolute = false := beq_eq_false_iff_ne.mpr first
    rw [Path.start, absolute]
    rfl
  rw [parts, relative, List.dropLast_singleton, Files.walk, if_pos (withTrusted_isDir opens)] at walked
  cases walked
  rw [List.dropLast_concat]

end

/-- On a POSIX system persisting a peer stays inside `trusted` exactly when the name
of its file leads to a place directly inside, to none that can be written, or to a
file that holds the certificate already. A name without a slash, the one separator
there, leads inside. -/
theorem add_trusted_peer_stays_iff {s : TrustState} {cwd base : Place} {dir : Path}
    {pem uuid : String} {der : Bytes} (held : ClusterDir s.tree cwd dir base)
    (decoded : pemCertToDer pem = some der) (named : nodeUuidFromCert c der = some uuid) :
    (StaysInside (base ++ [trustedName]) s.tree (addTrustedPeer c s cwd dir pem).1.tree ↔
      ∀ place, destination s.tree (base ++ [trustedName]) uuid = some place →
        place.dropLast = base ++ [trustedName] ∨ s.tree place = some (.file (utf8 pem))) ∧
    ('/' ∉ uuid.toList →
      StaysInside (base ++ [trustedName]) s.tree (addTrustedPeer c s cwd dir pem).1.tree) := by
  rw [addTrustedPeer_tree held decoded named, persisted_staysInside_iff]
  exact ⟨Iff.rfl, fun plain place found => .inl (destination_plain plain found)⟩

namespace Reference

-- A cluster directory after `load_or_init`.
def clusterTree : Files Bytes := fun place =>
  if place = [] ∨ place = ["cluster".toList] ∨ place = ["cluster".toList, trustedName] then some .dir
  else if place = ["cluster".toList, "node.crt".toList] then some (.file (utf8 (pem inviterDer)))
  else none

def clusterPath : Path := .posix "/cluster".toList

theorem clusterDir : ClusterDir clusterTree [] clusterPath ["cluster".toList] where
  valid := by decide
  opened := by decide

-- A self-signed certificate whose URI is `urn:nvpair:node:../node`.
def crossingDer : Bytes :=
  [
    0x30, 0x82, 0x01, 0x54, 0x30, 0x82, 0x01, 0x06, 0xa0, 0x03, 0x02, 0x01, 0x02, 0x02, 0x14, 0x6f,
    0xc6, 0x29, 0xc0, 0x5f, 0xfd, 0x26, 0x02, 0x1c, 0x56, 0xc9, 0xf2, 0x79, 0x96, 0x90, 0x1c, 0x3c,
    0x3b, 0x5f, 0xbd, 0x30, 0x05, 0x06, 0x03, 0x2b, 0x65, 0x70, 0x30, 0x0f, 0x31, 0x0d, 0x30, 0x0b,
    0x06, 0x03, 0x55, 0x04, 0x03, 0x0c, 0x04, 0x6e, 0x6f, 0x64, 0x65, 0x30, 0x1e, 0x17, 0x0d, 0x32,
    0x36, 0x31, 0x31, 0x31, 0x39, 0x30, 0x31, 0x34, 0x34, 0x30, 0x37, 0x5a, 0x17, 0x0d, 0x32, 0x38,
    0x31, 0x31, 0x31, 0x38, 0x30, 0x31, 0x34, 0x34, 0x30, 0x37, 0x5a, 0x30, 0x0f, 0x31, 0x0d, 0x30,
    0x0b, 0x06, 0x03, 0x55, 0x04, 0x03, 0x0c, 0x04, 0x6e, 0x6f, 0x64, 0x65, 0x30, 0x2a, 0x30, 0x05,
    0x06, 0x03, 0x2b, 0x65, 0x70, 0x03, 0x21, 0x00, 0x23, 0x87, 0x71, 0x65, 0x2c, 0x8f, 0x2e, 0xb1,
    0x0c, 0x10, 0x69, 0x23, 0x1a, 0xc5, 0x89, 0xf9, 0xf5, 0xf0, 0x61, 0xf9, 0x99, 0x32, 0x70, 0xc4,
    0x47, 0xc9, 0x37, 0x42, 0x20, 0x86, 0x96, 0x76, 0xa3, 0x74, 0x30, 0x72, 0x30, 0x1d, 0x06, 0x03,
    0x55, 0x1d, 0x0e, 0x04, 0x16, 0x04, 0x14, 0x78, 0x9d, 0xb8, 0x80, 0xbd, 0x99, 0x94, 0x36, 0xfa,
    0x15, 0x08, 0x96, 0x65, 0x3e, 0xe9, 0xc0, 0x9a, 0xe7, 0x58, 0xa3, 0x30, 0x1f, 0x06, 0x03, 0x55,
    0x1d, 0x23, 0x04, 0x18, 0x30, 0x16, 0x80, 0x14, 0x78, 0x9d, 0xb8, 0x80, 0xbd, 0x99, 0x94, 0x36,
    0xfa, 0x15, 0x08, 0x96, 0x65, 0x3e, 0xe9, 0xc0, 0x9a, 0xe7, 0x58, 0xa3, 0x30, 0x22, 0x06, 0x03,
    0x55, 0x1d, 0x11, 0x04, 0x1b, 0x30, 0x19, 0x86, 0x17, 0x75, 0x72, 0x6e, 0x3a, 0x6e, 0x76, 0x70,
    0x61, 0x69, 0x72, 0x3a, 0x6e, 0x6f, 0x64, 0x65, 0x3a, 0x2e, 0x2e, 0x2f, 0x6e, 0x6f, 0x64, 0x65,
    0x30, 0x0c, 0x06, 0x03, 0x55, 0x1d, 0x13, 0x01, 0x01, 0xff, 0x04, 0x02, 0x30, 0x00, 0x30, 0x05,
    0x06, 0x03, 0x2b, 0x65, 0x70, 0x03, 0x41, 0x00, 0x00, 0x3b, 0x9b, 0x0f, 0xe5, 0x0b, 0x6a, 0x77,
    0xe2, 0x4f, 0xd8, 0xfa, 0x9b, 0x47, 0x29, 0xcd, 0x0c, 0xd7, 0x13, 0xec, 0x17, 0x2c, 0xe3, 0x06,
    0xd0, 0x03, 0x88, 0x19, 0x36, 0xc2, 0x1e, 0xdb, 0x7e, 0xf1, 0x66, 0x79, 0x87, 0x3e, 0x9c, 0x3d,
    0x47, 0xa6, 0x85, 0xe0, 0x0a, 0x03, 0xfa, 0x06, 0xbd, 0xcd, 0x3b, 0x27, 0x2f, 0xce, 0x80, 0x46,
    0x91, 0x5f, 0x24, 0x3f, 0x3d, 0xf3, 0xd3, 0x0e]

def crossingUris (der : Bytes) : Option (List String) :=
  if der = crossingDer then some [nodeUrn "../node"] else sanUris der

def crossingCrates : Crates := { crates with sanUris := crossingUris }

theorem crossing_named : nodeUuidFromCert crossingCrates crossingDer = some "../node" := by
  have table : crossingCrates.sanUris = crossingUris := rfl
  refine nodeUuidFromCert_urn ?_
  rw [table, crossingUris, if_pos rfl]

end Reference

/-- The peer's own certificate goes into its own file. -/
theorem add_trusted_peer_stays_joiner :
    StaysInside (["cluster".toList] ++ [trustedName]) Reference.clusterTree
      (addTrustedPeer Reference.crates ⟨Reference.clusterTree, {}⟩ [] Reference.clusterPath
        (Reference.pem Reference.joinerCertificate.der)).1.tree := by
  have known : Reference.joinerCertificate ∈ Reference.certificates := by
    simp [Reference.certificates]
  have decoded : pemCertToDer (Reference.pem Reference.joinerCertificate.der) =
      some Reference.joinerCertificate.der := Reference.pemCertToDer_pem nofun
  have named := Reference.principal (Reference.found known)
  have plain : '/' ∉ Reference.joinerCertificate.nodeUuid.toList := by decide
  exact (add_trusted_peer_stays_iff Reference.crates (s := ⟨Reference.clusterTree, {}⟩)
    Reference.clusterDir decoded named).2 plain

/-- A certificate that names `../node` replaces the node's own. -/
theorem crossing_peer_leaves_trusted :
    ¬ StaysInside (["cluster".toList] ++ [trustedName]) Reference.clusterTree
      (addTrustedPeer Reference.crossingCrates ⟨Reference.clusterTree, {}⟩ [] Reference.clusterPath
        (Reference.pem Reference.crossingDer)).1.tree := by
  have decoded : pemCertToDer (Reference.pem Reference.crossingDer) = some Reference.crossingDer :=
    Reference.pemCertToDer_pem nofun
  have own : pemCertToDer (Reference.pem Reference.inviterDer) = some Reference.inviterDer :=
    Reference.pemCertToDer_pem nofun
  have found : destination Reference.clusterTree (["cluster".toList] ++ [trustedName]) "../node" =
      some ["cluster".toList, "node.crt".toList] := by decide
  rw [addTrustedPeer_tree (s := ⟨Reference.clusterTree, {}⟩) Reference.clusterDir decoded
    Reference.crossing_named]
  intro stays
  rcases persisted_staysInside_iff.mp stays _ found with inside | same
  · exact absurd inside (by decide)
  · -- The node's certificate is another one.
    have before : Reference.clusterTree ["cluster".toList, "node.crt".toList] =
        some (.file (utf8 (Reference.pem Reference.inviterDer))) := rfl
    rw [before] at same
    have ders := congrArg pemCertToDer (utf8_injective (Entry.file.inj (Option.some.inj same)))
    rw [decoded, own] at ders
    exact absurd (Option.some.inj ders) (by decide)

end OpenPair
