import OpenPair.Trust.ClusterDir
import OpenPair.Trust.ReferenceKeys

/-! Initialization of a cluster directory (`cluster_dir.rs`), and whether it
destroys what is there.

An identity is taken from its two files when both are there and minted when one
is missing; the minted one is written over the file that is not missing.
-/

set_option autoImplicit false

namespace OpenPair

open FileTree

variable (c : Crates) (k : KeyCrates)

def nodeCrt : Name := "node.crt".toList

def nodeKey : Name := "node.key".toList

-- `Path::extension`: what follows the last dot, unless the name starts with it.
def extension (name : Name) : Option Name :=
  let stem := ((name.reverse.dropWhile (· ≠ '.')).drop 1).reverse
  if '.' ∈ name ∧ stem ≠ [] then some (name.reverse.takeWhile (· ≠ '.')).reverse else none

-- One entry of `trusted/`, in the loop of `load_trusted_into`.
def loadEntry (tree : Files Bytes) (cwd : Place) (trusted : Path) (pins : PeerPinStore × Nat)
    (name : Name) : PeerPinStore × Nat :=
  if extension name = some "crt".toList ∨ extension name = some "pem".toList then
    match readToString tree cwd (trusted.child name) with
    | none => pins
    | some pem =>
      match pemCertToDer pem with
      | none => pins
      | some der =>
        match pins.1.pin c der with
        | (store, .ok _) => (store, pins.2 + 1)
        | (store, .error _) => (store, pins.2)
  else pins

/-- `load_trusted_into`, on the names in the order in which the directory is read. -/
def loadTrustedInto (tree : Files Bytes) (cwd : Place) (trusted : Path) (names : List Name)
    (pins : PeerPinStore) : Except TrustError (PeerPinStore × Nat) :=
  match tree.lookup cwd trusted with
  | none => .ok (pins, 0)
  | some (.file _) => .error .io
  | some .dir => .ok (names.foldl (loadEntry c tree cwd trusted) (pins, 0))

-- The identity of `load_or_init`, once `trusted/` is there.
def initIdentity (draws : MintDraws) (tree : Files Bytes) (cwd : Place) (dir : Path) :
    Files Bytes × Except TrustError KeyedIdentity :=
  if pathExists tree cwd (dir.child nodeCrt) && pathExists tree cwd (dir.child nodeKey) then
    (tree, fromFiles c k tree cwd (dir.child nodeCrt) (dir.child nodeKey))
  else
    match generate k draws with
    | .error e => (tree, .error (.message e))
    | .ok identity =>
      let written := writeBoth tree cwd (dir.child nodeCrt) identity.certPem (dir.child nodeKey)
        identity.keyPem
      (written.1, if written.2 then .ok identity else .error .io)

def loadOrInit (draws : MintDraws) (names : List Name) (tree : Files Bytes) (cwd : Place)
    (dir : Path) : Files Bytes × Except TrustError (KeyedIdentity × PeerPinStore) :=
  let made := tree.createDirs cwd (trustedPath dir)
  if made.2 then
    match initIdentity c k draws made.1 cwd dir with
    | (tree, .error e) => (tree, .error e)
    | (tree, .ok identity) =>
      match loadTrustedInto c tree cwd (trustedPath dir) names {} with
      | .error e => (tree, .error e)
      | .ok pins => (tree, .ok (identity, pins.1))
  else (made.1, .error .io)

/-! ## What is written over -/

section

variable {c k} {tree made : Files Bytes} {cwd base : Place} {dir : Path} {draws : MintDraws}

def KeepsFiles (before after : Files Bytes) : Prop :=
  ∀ place content, before place = some (.file content) → after place = some (.file content)

theorem KeepsFiles.refl (tree : Files Bytes) : KeepsFiles tree tree := fun _ _ held => held

theorem keepsFiles_createDirs (tree : Files Bytes) (cwd : Place) (path : Path) :
    KeepsFiles tree (tree.createDirs cwd path).1 :=
  fun place content => (tree.createDirs_file cwd path place content).mpr

theorem keepsFiles_of_createDirs (path : Path) {after : Files Bytes} :
    KeepsFiles (tree.createDirs cwd path).1 after ↔ KeepsFiles tree after := by
  constructor
  · intro keeps place content held
    exact keeps place content ((tree.createDirs_file cwd path place content).mpr held)
  · intro keeps place content held
    exact keeps place content ((tree.createDirs_file cwd path place content).mp held)

theorem normal_nodeCrt : Normal nodeCrt := by constructor <;> decide

theorem normal_nodeKey : Normal nodeKey := by constructor <;> decide

theorem normal_nodeKeyPem : Normal nodeKeyPem := by constructor <;> decide

theorem normal_nodeCertPem : Normal nodeCertPem := by constructor <;> decide

/-- Neither of two texts, written one after the other, goes over a file that
holds another text. -/
def Spares (tree : Files Bytes) (cwd : Place) (p : Path) (first : String) (q : Path)
    (second : String) : Prop :=
  (∀ content, tree.lookup cwd p = some (.file content) → content = utf8 first) ∧
    (tree.lookup cwd p ≠ some .dir →
      ∀ content, tree.lookup cwd q = some (.file content) → content = utf8 second)

theorem keepsFiles_update_iff {place : Place} {text : Bytes} :
    KeepsFiles tree (Function.update tree place (some (.file text))) ↔
      ∀ content, tree place = some (.file content) → content = text := by
  constructor
  · intro keeps content held
    have after := keeps place content held
    rw [Function.update_self] at after
    exact (Entry.file.inj (Option.some.inj after)).symm
  · intro spares p content held
    by_cases here : p = place
    · subst here
      rw [Function.update_self, spares content held]
    · rw [Function.update_of_ne here]
      exact held

theorem writeBoth_keeps_iff {a b : Name} (first : Normal a) (second : Normal b) (other : a ≠ b)
    {x y : String} :
    KeepsFiles tree (writeBoth tree cwd (dir.child a) x (dir.child b) y).1 ↔
      Spares tree cwd (dir.child a) x (dir.child b) y := by
  unfold Spares writeBoth
  simp only [Files.lookup_child first, Files.lookup_child second, Files.write,
    Files.target_child first]
  cases led : tree.place cwd dir with
  | none =>
    refine iff_of_true (.refl tree) ⟨?_, ?_⟩
    · intro content held
      cases held
    · intro _ content held
      cases held
  | some base =>
    simp only [Option.bind_some]
    cases blocked : tree.isDir (base ++ [a]) with
    | true =>
      -- The first file cannot be written, and the second one is not tried.
      have held : tree (base ++ [a]) = some .dir := Files.eq_dir blocked
      simp [held, KeepsFiles.refl]
    | false =>
      have open' : tree (base ++ [a]) ≠ some .dir := by
        intro held
        simp [Files.isDir, held, Entry.isDir] at blocked
      have apart : base ++ [b] ≠ base ++ [a] := by
        intro same
        exact other (List.singleton_injective (List.append_cancel_left same)).symm
      simp only [Bool.false_eq_true, if_false, if_true, Files.target_child second,
        Files.place_update _ blocked, Files.isDir_update _ blocked, led, Option.bind_some]
      cases blocked' : tree.isDir (base ++ [b]) with
      | true =>
        have held : tree (base ++ [b]) = some .dir := Files.eq_dir blocked'
        simp [held, keepsFiles_update_iff]
      | false =>
        simp only [Bool.false_eq_true, if_false]
        constructor
        · intro keeps
          constructor
          · intro content held
            have after := keeps _ _ held
            rw [Function.update_of_ne (Ne.symm apart), Function.update_self] at after
            exact (Entry.file.inj (Option.some.inj after)).symm
          · intro _ content held
            have after := keeps _ _ held
            rw [Function.update_self] at after
            exact (Entry.file.inj (Option.some.inj after)).symm
        · rintro ⟨keepsFirst, keepsSecond⟩ p content held
          -- The second file is written last, and is another place than the first.
          by_cases last : p = base ++ [b]
          · subst last
            rw [Function.update_self, keepsSecond open' content held]
          · rw [Function.update_of_ne last]
            exact keepsFiles_update_iff.mpr keepsFirst p content held

variable (k) in
/-- What `load_or_init` mints goes over no file that holds something else. -/
def InitSpares (draws : MintDraws) (tree : Files Bytes) (cwd : Place) (dir : Path) : Prop :=
  (tree.createDirs cwd (trustedPath dir)).2 = true →
    ¬ (pathExists (tree.createDirs cwd (trustedPath dir)).1 cwd (dir.child nodeCrt) = true ∧
      pathExists (tree.createDirs cwd (trustedPath dir)).1 cwd (dir.child nodeKey) = true) →
    ∀ identity, generate k draws = .ok identity →
      Spares (tree.createDirs cwd (trustedPath dir)).1 cwd (dir.child nodeCrt) identity.certPem
        (dir.child nodeKey) identity.keyPem

variable (k) in
/-- The same for `load_or_generate`, which writes the key first. -/
def GenerateSpares (draws : MintDraws) (tree : Files Bytes) (cwd : Place) (dir : Path) : Prop :=
  ¬ (pathExists tree cwd (dir.child nodeKeyPem) = true ∧
      pathExists tree cwd (dir.child nodeCertPem) = true) →
    ∀ identity, generate k draws = .ok identity → (tree.createDirs cwd dir).2 = true →
      Spares (tree.createDirs cwd dir).1 cwd (dir.child nodeKeyPem) identity.keyPem
        (dir.child nodeCertPem) identity.certPem

theorem initIdentity_fst :
    (initIdentity c k draws tree cwd dir).1 =
      if pathExists tree cwd (dir.child nodeCrt) && pathExists tree cwd (dir.child nodeKey) then tree
      else
        match generate k draws with
        | .error _ => tree
        | .ok identity => (writeBoth tree cwd (dir.child nodeCrt) identity.certPem
            (dir.child nodeKey) identity.keyPem).1 := by
  unfold initIdentity
  split
  · rfl
  · cases generate k draws <;> rfl

theorem loadOrInit_fst {names : List Name} :
    (loadOrInit c k draws names tree cwd dir).1 =
      if (tree.createDirs cwd (trustedPath dir)).2 then
        (initIdentity c k draws (tree.createDirs cwd (trustedPath dir)).1 cwd dir).1
      else (tree.createDirs cwd (trustedPath dir)).1 := by
  unfold loadOrInit
  dsimp only
  split
  · split
    · next ended => rw [ended]
    · next ended =>
      rw [ended]
      split <;> rfl
  · rfl

theorem loadOrInit_keeps_iff (names : List Name) :
    KeepsFiles tree (loadOrInit c k draws names tree cwd dir).1 ↔ InitSpares k draws tree cwd dir := by
  rw [loadOrInit_fst, InitSpares]
  cases ready : (tree.createDirs cwd (trustedPath dir)).2 with
  | false => exact iff_of_true (keepsFiles_createDirs tree cwd _) nofun
  | true =>
    simp only [if_true, true_imp_iff, initIdentity_fst, Bool.and_eq_true]
    split
    · next both =>
      exact iff_of_true (keepsFiles_createDirs tree cwd _) fun one => absurd both one
    · next one =>
      cases minted : generate k draws with
      | error e => exact iff_of_true (keepsFiles_createDirs tree cwd _) fun _ _ => nofun
      | ok identity =>
        rw [← keepsFiles_of_createDirs (trustedPath dir), writeBoth_keeps_iff normal_nodeCrt
          normal_nodeKey (by decide)]
        constructor
        · intro spares _ identity' same
          obtain rfl := Except.ok.inj same
          exact spares
        · intro spares
          exact spares one identity rfl

theorem loadOrGenerate_keeps_iff :
    KeepsFiles tree (loadOrGenerate c k draws tree cwd dir).1 ↔
      GenerateSpares k draws tree cwd dir := by
  unfold loadOrGenerate GenerateSpares
  split
  · next both =>
    exact iff_of_true (.refl tree) fun one => absurd (Bool.and_eq_true _ _ |>.mp both) one
  · next one =>
    rw [Bool.and_eq_true] at one
    cases minted : generate k draws with
    | error e => exact iff_of_true (.refl tree) fun _ _ => nofun
    | ok identity =>
      dsimp only
      unfold KeyedIdentity.save
      dsimp only
      cases ready : (tree.createDirs cwd dir).2 with
      | false =>
        refine iff_of_true (keepsFiles_createDirs tree cwd _) ?_
        intro _ _ _ wrong
        cases wrong
      | true =>
        rw [if_pos rfl, ← keepsFiles_of_createDirs dir, writeBoth_keeps_iff
          normal_nodeKeyPem normal_nodeCertPem (by decide)]
        constructor
        · intro spares _ identity' same _
          obtain rfl := Except.ok.inj same
          exact spares
        · intro spares
          exact spares one identity rfl rfl

/-! ## Once both files are there -/

theorem clusterDir_of_place (led : tree.place cwd dir = some base) :
    ClusterDir tree cwd dir base := by
  unfold Files.place at led
  split at led
  · cases led
  · next valid => exact ⟨by simpa using valid, led⟩

theorem ClusterDir.place (held : ClusterDir tree cwd dir base) :
    tree.place cwd dir = some base := by
  rw [Files.place, if_neg (by simp [held.valid]), held.opened]

-- `load_or_init` again and again, with what each call draws and reads.
def initRuns (c : Crates) (k : KeyCrates) (cwd : Place) (dir : Path) (tree : Files Bytes) :
    List (MintDraws × List Name) → List (Except TrustError (KeyedIdentity × PeerPinStore))
  | [] => []
  | call :: rest =>
    (loadOrInit c k call.1 call.2 tree cwd dir).2 ::
      initRuns c k cwd dir (loadOrInit c k call.1 call.2 tree cwd dir).1 rest

-- `load_or_generate` again and again.
def generateRuns (c : Crates) (k : KeyCrates) (cwd : Place) (dir : Path) (tree : Files Bytes) :
    List MintDraws → List (Except TrustError KeyedIdentity)
  | [] => []
  | draws :: rest =>
    (loadOrGenerate c k draws tree cwd dir).2 ::
      generateRuns c k cwd dir (loadOrGenerate c k draws tree cwd dir).1 rest

structure Holds (tree : Files Bytes) (cwd : Place) (certPath keyPath : Path)
    (certPem keyPem : String) : Prop where
  cert : readToString tree cwd certPath = some certPem
  key : readToString tree cwd keyPath = some keyPem

theorem Holds.fromFiles {certPath keyPath : Path} {certPem keyPem : String}
    (holds : Holds tree cwd certPath keyPath certPem keyPem) :
    fromFiles c k tree cwd certPath keyPath = (fromPem c k certPem keyPem).mapError .message := by
  simp only [OpenPair.fromFiles, holds.cert, holds.key]

theorem Holds.clusterDir {certPem keyPem : String}
    (holds : Holds tree cwd (dir.child nodeCrt) (dir.child nodeKey) certPem keyPem) :
    ∃ base, ClusterDir tree cwd dir base := by
  have present := pathExists_of_read holds.cert
  rw [pathExists, Files.lookup_child normal_nodeCrt] at present
  cases led : tree.place cwd dir with
  | none => simp [led] at present
  | some base => exact ⟨base, clusterDir_of_place led⟩

theorem generateRuns_holds {certPem keyPem : String}
    (holds : Holds tree cwd (dir.child nodeCertPem) (dir.child nodeKeyPem) certPem keyPem)
    (calls : List MintDraws) : ∀ r ∈ generateRuns c k cwd dir tree calls,
      r = (fromPem c k certPem keyPem).mapError .message := by
  have one (draws : MintDraws) : loadOrGenerate c k draws tree cwd dir =
      (tree, (fromPem c k certPem keyPem).mapError .message) := by
    simp only [loadOrGenerate, pathExists_of_read holds.cert, pathExists_of_read holds.key,
      Bool.and_self, if_true, holds.fromFiles]
  induction calls with
  | nil => exact fun _ member => absurd member List.not_mem_nil
  | cons draws rest ih =>
    rw [generateRuns, one]
    exact List.forall_mem_cons.mpr ⟨rfl, ih⟩

theorem ClusterDir.mono {after : Files Bytes} (held : ClusterDir tree cwd dir base)
    (more : ∀ p, tree.isDir p = true → after.isDir p = true) : ClusterDir after cwd dir base :=
  ⟨held.valid, Files.walk_mono more held.opened⟩

theorem readToString_child {name : Name} {after : Files Bytes} (normal : Normal name)
    (held : ClusterDir tree cwd dir base) (held' : ClusterDir after cwd dir base)
    (same : after (base ++ [name]) = tree (base ++ [name])) :
    readToString after cwd (dir.child name) = readToString tree cwd (dir.child name) := by
  simp only [readToString, Files.lookup_child normal, held.place, held'.place, Option.bind_some, same]

theorem append_singleton_ne {a b : Name} (other : a ≠ b) : base ++ [a] ≠ base ++ [b] := by
  intro same
  exact other (List.singleton_injective (List.append_cancel_left same))

/-- Once `trusted/` is a directory, a call on two readable files changes nothing. -/
theorem loadOrInit_holds (c : Crates) (k : KeyCrates) (draws : MintDraws) (names : List Name)
    {certPem keyPem : String} (held : ClusterDir tree cwd dir base) (opens : withTrusted tree (base ++ [trustedName]) = some made)
    (holds : Holds tree cwd (dir.child nodeCrt) (dir.child nodeKey) certPem keyPem) :
    ClusterDir made cwd dir base ∧ withTrusted made (base ++ [trustedName]) = some made ∧
      Holds made cwd (dir.child nodeCrt) (dir.child nodeKey) certPem keyPem ∧
      (loadOrInit c k draws names tree cwd dir).1 = made ∧
      (loadOrInit c k draws names tree cwd dir).2.map Prod.fst =
        (fromPem c k certPem keyPem).mapError .message := by
  have held' : ClusterDir made cwd dir base := held.mono fun _ => withTrusted_mono opens
  have trusted : made (base ++ [trustedName]) = some .dir := Files.eq_dir (withTrusted_isDir opens)
  have kept {name : Name} (other : name ≠ trustedName) :
      made (base ++ [name]) = tree (base ++ [name]) := by
    rcases withTrusted_other (p := base ++ [name]) opens with same | ⟨same, -⟩
    · exact same
    · exact absurd same (append_singleton_ne other)
  have holds' : Holds made cwd (dir.child nodeCrt) (dir.child nodeKey) certPem keyPem :=
    ⟨(readToString_child normal_nodeCrt held held' (kept (by decide))).trans holds.cert,
      (readToString_child normal_nodeKey held held' (kept (by decide))).trans holds.key⟩
  have again : withTrusted made (base ++ [trustedName]) = some made := by
    rw [withTrusted, trusted]
  have dirs : tree.createDirs cwd (trustedPath dir) = (made, true) := by
    rw [createDirs_trusted held, opens]
  have identity : initIdentity c k draws made cwd dir =
      (made, (fromPem c k certPem keyPem).mapError .message) := by
    simp only [initIdentity, pathExists_of_read holds'.cert, pathExists_of_read holds'.key,
      Bool.and_self, if_true, holds'.fromFiles]
  have listed : made.lookup cwd (trustedPath dir) = some .dir := by
    have normal : Normal trustedName := by constructor <;> decide
    rw [trustedPath, ← Path.child, Files.lookup_child normal, held'.place, Option.bind_some, trusted]
  refine ⟨held', again, holds', ?_, ?_⟩
  · rw [loadOrInit_fst, dirs, if_pos rfl, identity]
  · simp only [loadOrInit, dirs, if_true, identity]
    cases fromPem c k certPem keyPem with
    | error e => rfl
    | ok id => simp [Except.mapError, loadTrustedInto, listed, Except.map]

theorem initRuns_holds {certPem keyPem : String} (held : ClusterDir tree cwd dir base)
    (opens : withTrusted tree (base ++ [trustedName]) = some made)
    (holds : Holds tree cwd (dir.child nodeCrt) (dir.child nodeKey) certPem keyPem)
    (calls : List (MintDraws × List Name)) : ∀ r ∈ initRuns c k cwd dir tree calls,
      r.map Prod.fst = (fromPem c k certPem keyPem).mapError .message := by
  induction calls generalizing tree with
  | nil => exact fun _ member => absurd member List.not_mem_nil
  | cons call rest ih =>
    obtain ⟨held', again, holds', next, first⟩ :=
      loadOrInit_holds c k call.1 call.2 held opens holds
    rw [initRuns, next]
    exact List.forall_mem_cons.mpr ⟨first, ih held' again holds'⟩

end

/-- Initialization keeps every file exactly when what it mints goes over no file
that holds something else, which it can only where one of the two files is
missing; once both can be read, every later call returns the identity in them. -/
theorem initialization_keeps_identity_iff (draws : MintDraws) (tree : Files Bytes) (cwd : Place)
    (dir : Path) :
    (∀ names, KeepsFiles tree (loadOrInit c k draws names tree cwd dir).1 ↔
      InitSpares k draws tree cwd dir) ∧
    (KeepsFiles tree (loadOrGenerate c k draws tree cwd dir).1 ↔
      GenerateSpares k draws tree cwd dir) ∧
    (∀ certPem keyPem, Holds tree cwd (dir.child nodeCrt) (dir.child nodeKey) certPem keyPem →
      (tree.createDirs cwd (trustedPath dir)).2 = true →
        ∀ calls, ∀ r ∈ initRuns c k cwd dir tree calls,
          r.map Prod.fst = (fromPem c k certPem keyPem).mapError .message) ∧
    (∀ certPem keyPem, Holds tree cwd (dir.child nodeCertPem) (dir.child nodeKeyPem) certPem keyPem →
      ∀ calls, ∀ r ∈ generateRuns c k cwd dir tree calls,
        r = (fromPem c k certPem keyPem).mapError .message) := by
  refine ⟨loadOrInit_keeps_iff, loadOrGenerate_keeps_iff, ?_, fun _ _ holds calls =>
    generateRuns_holds holds calls⟩
  intro certPem keyPem holds ready calls
  obtain ⟨base, held⟩ := holds.clusterDir
  rw [createDirs_trusted held] at ready
  cases opens : withTrusted tree (base ++ [trustedName]) with
  | none => simp [opens] at ready
  | some made => exact initRuns_holds held opens holds calls

namespace Reference

/-- `/cluster` with these two files, either of which may be missing, and no peer. -/
def identityTree (crt key : Option String) : Files Bytes := fun place =>
  if place = [] ∨ place = ["cluster".toList] ∨ place = ["cluster".toList, trustedName] then some .dir
  else if place = ["cluster".toList, nodeCrt] then crt.map fun text => .file (utf8 text)
  else if place = ["cluster".toList, nodeKey] then key.map fun text => .file (utf8 text)
  else none

theorem identityTree_dir (crt key : Option String) :
    ClusterDir (identityTree crt key) [] clusterPath ["cluster".toList] where
  valid := by decide
  opened := rfl

theorem identityTree_ready (crt key : Option String) :
    (identityTree crt key).createDirs [] (trustedPath clusterPath) = (identityTree crt key, true) := by
  rw [createDirs_trusted (identityTree_dir crt key)]
  rfl

theorem identityTree_crt (crt key : Option String) :
    (identityTree crt key).lookup [] (clusterPath.child nodeCrt) =
      crt.map fun text => .file (utf8 text) := by
  rw [Files.lookup_child normal_nodeCrt, (identityTree_dir crt key).place]
  rfl

theorem identityTree_key (crt key : Option String) :
    (identityTree crt key).lookup [] (clusterPath.child nodeKey) =
      key.map fun text => .file (utf8 text) := by
  rw [Files.lookup_child normal_nodeKey, (identityTree_dir crt key).place]
  rfl

theorem identityTree_holds (certPem keyPem : String) :
    Holds (identityTree (some certPem) (some keyPem)) [] (clusterPath.child nodeCrt)
      (clusterPath.child nodeKey) certPem keyPem where
  cert := by rw [readToString, identityTree_crt]; exact decodeUtf8_utf8 certPem
  key := by rw [readToString, identityTree_key]; exact decodeUtf8_utf8 keyPem

def ownTree : Files Bytes := identityTree (some (pem mintedDer)) (some (keyText firstSeed))

theorem ownTree_ready :
    ownTree.createDirs [] (trustedPath clusterPath) = (ownTree, true) :=
  identityTree_ready _ _

theorem ownTree_holds : Holds ownTree [] (clusterPath.child nodeCrt) (clusterPath.child nodeKey)
    (pem mintedDer) (keyText firstSeed) :=
  identityTree_holds _ _

end Reference

/-- Two calls on a certificate and its key. -/
theorem initialization_keeps_identity_minted :
    ∀ r ∈ initRuns Reference.mintingCrates Reference.keyCrates [] Reference.clusterPath
        Reference.ownTree [(Reference.mintDraws, []), (Reference.mintDraws, [])],
      r.map Prod.fst = .ok Reference.mintedIdentity := by
  have ready := congrArg Prod.snd Reference.ownTree_ready
  have runs := (initialization_keeps_identity_iff Reference.mintingCrates Reference.keyCrates
    Reference.mintDraws _ _ _).2.2.1 _ _ Reference.ownTree_holds ready
    [(Reference.mintDraws, []), (Reference.mintDraws, [])]
  rw [Reference.fromPem_minted] at runs
  exact runs

/-- A key without its certificate is lost to the key of a new identity. -/
theorem lone_key_overwritten :
    ¬ KeepsFiles (Reference.identityTree none (some (Reference.keyText Reference.secondSeed)))
      (loadOrInit Reference.mintingCrates Reference.keyCrates Reference.mintDraws []
        (Reference.identityTree none (some (Reference.keyText Reference.secondSeed))) []
        Reference.clusterPath).1 := by
  intro keeps
  have spares := (loadOrInit_keeps_iff []).mp keeps
  unfold InitSpares at spares
  rw [Reference.identityTree_ready] at spares
  have one : ¬ (pathExists (Reference.identityTree none
      (some (Reference.keyText Reference.secondSeed))) [] (Reference.clusterPath.child nodeCrt) = true ∧
      pathExists (Reference.identityTree none (some (Reference.keyText Reference.secondSeed))) []
        (Reference.clusterPath.child nodeKey) = true) := by
    rintro ⟨present, -⟩
    rw [pathExists, Reference.identityTree_crt] at present
    cases present
  obtain ⟨-, key⟩ := spares rfl one _ Reference.generate_minted
  rw [Reference.identityTree_crt, Reference.identityTree_key] at key
  have texts := utf8_injective (key (by simp) _ rfl)
  exact absurd texts (by decide +kernel)

end OpenPair
