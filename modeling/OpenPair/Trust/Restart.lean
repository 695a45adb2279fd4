import Mathlib.Data.List.Dedup
import OpenPair.Library.LastWrite
import OpenPair.Trust.ClusterInit

/-! Whether the pins of a node are the ones it reads back after a restart.

A pin is kept in memory under the node's uuid and on disk under a file name, and
the files are read in the order in which the directory lists them.
-/

set_option autoImplicit false

namespace OpenPair

open FileTree LastWrite

variable (c : Crates) (k : KeyCrates)

-- `add_trusted_peer` for one peer after the other, while it succeeds.
def addTrustedPeers (cwd : Place) (dir : Path) (s : TrustState) :
    List String → Except TrustError TrustState
  | [] => .ok s
  | pem :: rest =>
    match addTrustedPeer c s cwd dir pem with
    | (s, .ok _) => addTrustedPeers cwd dir s rest
    | (_, .error e) => .error e

def certified (pem : String) : Option (String × Bytes) :=
  (pemCertToDer pem).bind fun der => (nodeUuidFromCert c der).map fun uuid => (uuid, der)

-- What an entry of `trusted/` certifies.
def certifiedBy (tree : Files Bytes) (trusted : Place) (name : Name) : Option (String × Bytes) :=
  if extension name = some "crt".toList ∨ extension name = some "pem".toList then
    match tree (trusted ++ [name]) with
    | some (.file bytes) => (decodeUtf8 bytes).bind (certified c)
    | _ => none
  else none

def Listed (tree : Files Bytes) (place : Place) (name : Name) : Prop :=
  Normal name ∧ (tree (place ++ [name])).isSome

/-- A uuid that is a plain file name. -/
structure PlainUuid (uuid : String) : Prop where
  some : uuid ≠ ""
  slash : '/' ∉ uuid.toList

def fileName (uuid : String) : Name := (uuid ++ ".crt").toList

/-- A file of `trusted/` that certifies a node. -/
structure Certifies (tree : Files Bytes) (trusted : Place) (uuid : String) (name : Name)
    (der : Bytes) : Prop where
  listed : Listed tree trusted name
  read : certifiedBy c tree trusted name = some (uuid, der)

/-- No added peer's file is the one of this name. -/
def Spared (peers : List (String × Bytes)) (name : Name) : Prop :=
  ∀ peer ∈ peers, fileName peer.1 ≠ name

/-- What `trusted/` holds of a node gives back its certificate. Of a node that is
added, every file that stays holds the certificate added last; of any other, all
files hold one certificate and one of them stays. -/
structure Recoverable (tree : Files Bytes) (trusted : Place) (peers : List (String × Bytes))
    (uuid : String) : Prop where
  added (der : Bytes) : last uuid peers = some der →
    ∀ name other, Certifies c tree trusted uuid name other → Spared peers name → other = der
  loaded : last uuid peers = none → ∀ name der, Certifies c tree trusted uuid name der →
    (∀ name other, Certifies c tree trusted uuid name other → other = der) ∧
      ∃ name, Certifies c tree trusted uuid name der ∧ Spared peers name

/-- What a run leaves in memory, peers being added after `load_or_init`, and what
a second `load_or_init` reads. -/
def restarted (draws draws' : MintDraws) (names names' : List Name) (tree : Files Bytes)
    (cwd : Place) (dir : Path) (pems : List String) :
    Except TrustError (PeerPinStore × PeerPinStore) :=
  match loadOrInit c k draws names tree cwd dir with
  | (_, .error e) => .error e
  | (tree, .ok (_, pins)) =>
    match addTrustedPeers c cwd dir ⟨tree, pins⟩ pems with
    | .error e => .error e
    | .ok after =>
      (loadOrInit c k draws' names' after.tree cwd dir).2.map fun read => (after.pins, read.2)

/-- What a minted identity is written as can be read: its certificate's text is
one certificate, and its key's text is a key. -/
structure KeyCrates.ReadsBack : Prop where
  cert {params : CertificateParams} {pair : k.KeyPair} {der : Bytes} {pem : String}
    (signed : k.selfSigned params pair = .ok (der, pem)) : pemCertToDer pem = some der
  pair {params : CertificateParams} {pair : k.KeyPair} {cert : Bytes × String}
    (signed : k.selfSigned params pair = .ok cert) :
    ∃ again, k.keyPairFromPem (k.serializePem pair) = .ok again
  seed {params : CertificateParams} {seed : ByteArr 32} {der : Bytes} {pair : k.KeyPair}
    {cert : Bytes × String} (written : k.toPkcs8Der seed = .ok der)
    (read : k.keyPairFromDer der = .ok pair) (signed : k.selfSigned params pair = .ok cert) :
    ∃ again, k.fromPkcs8Pem (k.serializePem pair) = .ok again

section

variable {c k} {tree made : Files Bytes} {cwd base trusted : Place} {dir : Path}
  {uuid pem : String} {der : Bytes} {names : List Name} {s s' : TrustState}

/-! ## Reading the directory -/

theorem certified_eq_some :
    certified c pem = some (uuid, der) ↔
      pemCertToDer pem = some der ∧ nodeUuidFromCert c der = some uuid := by
  unfold certified
  constructor
  · intro read
    obtain ⟨der', decoded, read⟩ := Option.bind_eq_some_iff.mp read
    obtain ⟨uuid', named, same⟩ := Option.map_eq_some_iff.mp read
    cases same
    exact ⟨decoded, named⟩
  · rintro ⟨decoded, named⟩
    rw [decoded, Option.bind_some, named]
    rfl

theorem certifiedBy_text {name : Name}
    (read : extension name = some "crt".toList ∨ extension name = some "pem".toList)
    (held : tree (trusted ++ [name]) = some (.file (utf8 pem))) :
    certifiedBy c tree trusted name = certified c pem := by
  rw [certifiedBy, if_pos read, held]
  simp only [decodeUtf8_utf8, Option.bind_some]

theorem loadEntry_cert {path : Path} (led : tree.place cwd path = some trusted) {name : Name}
    (normal : Normal name) (pins : PeerPinStore × Nat) (uuid : String) :
    (loadEntry c tree cwd path pins name).1.cert uuid =
      (last uuid ([name].filterMap (certifiedBy c tree trusted))).or (pins.1.cert uuid) := by
  unfold loadEntry
  simp only [List.filterMap_cons, List.filterMap_nil, certifiedBy]
  split
  · simp only [readToString, Files.lookup_child normal, led, Option.bind_some]
    cases tree (trusted ++ [name]) with
    | none => rfl
    | some entry =>
      cases entry with
      | dir => rfl
      | file bytes =>
        dsimp only
        cases decodeUtf8 bytes with
        | none => rfl
        | some pem =>
          simp only [Option.bind_some, certified]
          cases pemCertToDer pem with
          | none => rfl
          | some der =>
            simp only [Option.bind_some]
            cases named : nodeUuidFromCert c der with
            | none => simp [PeerPinStore.pin_refused named, last]
            | some node =>
              simp only [PeerPinStore.pin_ok named, PeerPinStore.cert_insert, Option.map_some, last,
                Option.none_or]
              split <;> rfl
  · rfl

theorem foldl_loadEntry_cert {path : Path} (led : tree.place cwd path = some trusted)
    (normal : ∀ name ∈ names, Normal name) (pins : PeerPinStore × Nat) (uuid : String) :
    (names.foldl (loadEntry c tree cwd path) pins).1.cert uuid =
      (last uuid (names.filterMap (certifiedBy c tree trusted))).or (pins.1.cert uuid) := by
  induction names generalizing pins with
  | nil => rfl
  | cons name rest ih =>
    have split : name :: rest = [name] ++ rest := rfl
    rw [List.foldl_cons, ih fun other member => normal other (List.mem_cons_of_mem _ member),
      loadEntry_cert led (normal name List.mem_cons_self), split, List.filterMap_append,
      last_append, Option.or_assoc]

/-- The pins of a directory are what its files certify, the last file winning. -/
theorem loadTrustedInto_cert {path : Path} (led : tree.place cwd path = some trusted)
    (found : tree.lookup cwd path = some .dir) (normal : ∀ name ∈ names, Normal name) :
    ∃ pins, loadTrustedInto c tree cwd path names {} = .ok pins ∧
      ∀ uuid, pins.1.cert uuid = last uuid (names.filterMap (certifiedBy c tree trusted)) := by
  refine ⟨_, by rw [loadTrustedInto, found], ?_⟩
  intro uuid
  rw [foldl_loadEntry_cert led normal]
  exact Option.or_none

/-! ## The directory once it is opened -/

/-- A cluster directory whose two files can be read and make an identity. -/
structure Opened (c : Crates) (k : KeyCrates) (tree : Files Bytes) (cwd : Place) (dir : Path)
    (base : Place) : Prop where
  held : ClusterDir tree cwd dir base
  trusted : tree (base ++ [trustedName]) = some .dir
  identity : ∃ certPem keyPem identity,
    Holds tree cwd (dir.child nodeCrt) (dir.child nodeKey) certPem keyPem ∧
      fromPem c k certPem keyPem = .ok identity

theorem normal_trustedName : Normal trustedName := by constructor <;> decide

theorem Opened.lookup (opened : Opened c k tree cwd dir base) :
    tree.lookup cwd (trustedPath dir) = some .dir := by
  rw [trustedPath, ← Path.child, Files.lookup_child normal_trustedName, opened.held.place,
    Option.bind_some, opened.trusted]

theorem Opened.place (opened : Opened c k tree cwd dir base) :
    tree.place cwd (trustedPath dir) = some (base ++ [trustedName]) := by
  have isDir : tree.isDir (base ++ [trustedName]) = true := by
    simp [Files.isDir, opened.trusted, Entry.isDir]
  have led := opened.held.opened
  have parts : (trustedPath dir).parts = dir.parts ++ [trustedName] := rfl
  have start : (trustedPath dir).start cwd = dir.start cwd := rfl
  rw [Files.place, if_neg (by simp [trustedPath_valid opened.held.valid]), parts, start,
    Files.walk_append, led, Option.bind_some, Files.walk, if_pos (Files.isDir_of_walk led).2,
    enter_trusted, Files.walk, if_pos isDir]

theorem Opened.loadOrInit (opened : Opened c k tree cwd dir base) (draws : MintDraws)
    (normal : ∀ name ∈ names, Normal name) : ∃ identity pins,
      loadOrInit c k draws names tree cwd dir = (tree, .ok (identity, pins)) ∧
        ∀ uuid, pins.cert uuid =
          last uuid (names.filterMap (certifiedBy c tree (base ++ [trustedName]))) := by
  obtain ⟨certPem, keyPem, identity, holds, read⟩ := opened.identity
  obtain ⟨pins, loaded, certs⟩ := loadTrustedInto_cert opened.place opened.lookup normal (c := c)
  refine ⟨identity, pins.1, ?_, certs⟩
  have again : initIdentity c k draws tree cwd dir = (tree, .ok identity) := by
    simp only [initIdentity, pathExists_of_read holds.cert, pathExists_of_read holds.key,
      Bool.and_self, if_true, holds.fromFiles, read]
    rfl
  simp only [OpenPair.loadOrInit, Files.createDirs_place opened.place, if_true, again, loaded]

theorem writeBoth_ok {a b : Name} (first : Normal a) (second : Normal b) (other : a ≠ b)
    {x y : String}
    (written : (writeBoth tree cwd (dir.child a) x (dir.child b) y).2 = true) :
    ∃ base, tree.place cwd dir = some base ∧
      (∀ p, (writeBoth tree cwd (dir.child a) x (dir.child b) y).1.isDir p = tree.isDir p) ∧
      Holds (writeBoth tree cwd (dir.child a) x (dir.child b) y).1 cwd (dir.child a) (dir.child b)
        x y := by
  unfold writeBoth at written ⊢
  dsimp only at written ⊢
  split at written
  · next first' =>
    rw [if_pos first']
    obtain ⟨p, found, free, update⟩ := Files.write_ok first'
    rw [update] at written ⊢
    obtain ⟨q, found', free', update'⟩ := Files.write_ok written
    rw [update']
    -- Both places are entries of the one directory.
    rw [Files.target_update _ free] at found'
    rw [Files.target_child first] at found
    rw [Files.target_child second] at found'
    obtain ⟨base, led, found⟩ := Option.bind_eq_some_iff.mp found
    rw [led, Option.bind_some] at found'
    split at found
    · cases found
    cases found
    split at found'
    · cases found'
    cases found'
    have dirs (place : Place) : Files.isDir (Function.update (Function.update tree (base ++ [a])
        (some (.file (utf8 x)))) (base ++ [b]) (some (.file (utf8 y)))) place = tree.isDir place := by
      rw [Files.isDir_update _ free', Files.isDir_update _ free]
    have led' : Files.place (Function.update (Function.update tree (base ++ [a])
        (some (.file (utf8 x)))) (base ++ [b]) (some (.file (utf8 y)))) cwd dir = some base := by
      rw [Files.place_update _ free', Files.place_update _ free, led]
    refine ⟨base, led, dirs, ⟨?_, ?_⟩⟩
    · rw [readToString, Files.lookup_child first, led', Option.bind_some,
        Function.update_of_ne (append_singleton_ne other), Function.update_self]
      exact decodeUtf8_utf8 x
    · rw [readToString, Files.lookup_child second, led', Option.bind_some, Function.update_self]
      exact decodeUtf8_utf8 y
  · next refused => exact absurd written refused

theorem fromPem_generated (lawful : k.Lawful c) (reads : k.ReadsBack) {draws : MintDraws}
    {identity : KeyedIdentity} (minted : generate k draws = .ok identity) :
    ∃ again, fromPem c k identity.certPem identity.keyPem = .ok again := by
  have named := (generateWithUuid_belongs lawful minted).nodeUuid
  obtain ⟨pkcs8, written, minted⟩ := Except.bind_eq_ok minted
  obtain ⟨pair, read, minted⟩ := Except.bind_eq_ok minted
  obtain ⟨host, -, minted⟩ := Except.bind_eq_ok minted
  obtain ⟨uri, -, minted⟩ := Except.bind_eq_ok minted
  obtain ⟨⟨der, pem⟩, signed, minted⟩ := Except.bind_eq_ok minted
  cases minted
  obtain ⟨again, pairRead⟩ := reads.pair signed
  obtain ⟨seed, seedRead⟩ := reads.seed written read signed
  exact ⟨_, fromPem_of pairRead (reads.cert signed) named seedRead⟩

theorem opened_of_loadOrInit (lawful : k.Lawful c) (reads : k.ReadsBack) {draws : MintDraws}
    {identity : KeyedIdentity} {pins : PeerPinStore}
    (loaded : loadOrInit c k draws names tree cwd dir = (made, .ok (identity, pins))) :
    ∃ base, Opened c k made cwd dir base := by
  unfold OpenPair.loadOrInit at loaded
  dsimp only at loaded
  split at loaded
  · next ready =>
    split at loaded
    · cases loaded
    · next tree' identity' ended =>
      have same : tree' = made := by
        split at loaded
        · cases loaded
        · exact (Prod.mk.inj loaded).1
      subst same
      unfold initIdentity at ended
      split at ended
      · -- Both files are there and nothing is written.
        obtain ⟨rfl, read⟩ := Prod.mk.inj ended
        obtain ⟨certPem, keyPem, cert, key, parsed⟩ := fromFiles_ok read
        have holds : Holds (tree.createDirs cwd (trustedPath dir)).1 cwd (dir.child nodeCrt)
            (dir.child nodeKey) certPem keyPem := ⟨cert, key⟩
        obtain ⟨base, held⟩ := holds.clusterDir
        exact ⟨base, held,
          Files.eq_dir (Files.createDirs_child normal_trustedName ready held.place),
          certPem, keyPem, _, holds, parsed⟩
      · split at ended
        · cases ended
        · next minted generated =>
          dsimp only at ended
          split at ended
          · next written =>
            obtain ⟨rfl, -⟩ := Prod.mk.inj ended
            obtain ⟨base, led, dirs, holds⟩ :=
              writeBoth_ok normal_nodeCrt normal_nodeKey (by decide) written
            have held := (clusterDir_of_place led).mono fun p opens => (dirs p).trans opens
            obtain ⟨again, parsed⟩ := fromPem_generated lawful reads generated
            refine ⟨base, held, Files.eq_dir ?_, _, _, _, holds, parsed⟩
            rw [dirs]
            exact Files.createDirs_child normal_trustedName ready led
          · cases ended
  · cases loaded

/-! ## Adding peers -/

theorem fileName_toList (uuid : String) : fileName uuid = uuid.toList ++ ".crt".toList :=
  String.toList_append ..

theorem fileName_injective {first second : String} (same : fileName first = fileName second) :
    first = second := by
  rw [fileName_toList, fileName_toList] at same
  exact String.toList_inj.mp (List.append_cancel_right same)

theorem peerFile_plain (plain : PlainUuid uuid) : peerFile uuid = ⟨false, [fileName uuid]⟩ := by
  have text : '/' ∉ fileName uuid := by
    have suffix : '/' ∉ ".crt".toList := by decide
    rw [fileName_toList, List.mem_append, not_or]
    exact ⟨plain.slash, suffix⟩
  have relative : (fileName uuid).head? ≠ some '/' := by
    intro first
    exact text (List.mem_of_mem_head? first)
  rw [peerFile, Path.posix, ← fileName, posixParts_of_not_mem text]
  simp [relative]

theorem extension_fileName (plain : PlainUuid uuid) :
    extension (fileName uuid) = some "crt".toList := by
  have some' : uuid.toList ≠ [] := fun empty => plain.some (String.toList_eq_nil_iff.mp empty)
  have reversed : (fileName uuid).reverse = 't' :: 'r' :: 'c' :: '.' :: uuid.toList.reverse := by
    rw [fileName_toList, List.reverse_append]
    rfl
  have dotted : '.' ∈ fileName uuid := by
    rw [← List.mem_reverse, reversed]
    simp
  simp [extension, reversed, dotted, some']

theorem normal_fileName {place : Place}
    (found : tree.target cwd ((trustedPath dir).child (fileName uuid)) = some place) :
    Normal (fileName uuid) := by
  have long : 4 ≤ (fileName uuid).length := by
    rw [fileName_toList, List.length_append]
    exact Nat.le_add_left 4 _
  have valid : ((trustedPath dir).child (fileName uuid)).valid = true := by
    unfold Files.target at found
    split at found
    · cases found
    · next valid => simpa using valid
  rw [Path.valid, Path.child_parts, List.all_append, Bool.and_eq_true] at valid
  constructor
  · intro same
    simp [same] at long
  · intro same
    simp [same] at long
  · intro same
    simp [same] at long
  · simpa using valid.2

theorem addTrustedPeer_plain (led : s.tree.place cwd (trustedPath dir) = some trusted)
    (added : addTrustedPeer c s cwd dir pem = (s', .ok uuid))
    (plain : ∀ uuid der, certified c pem = some (uuid, der) → PlainUuid uuid) :
    ∃ der, certified c pem = some (uuid, der) ∧ PlainUuid uuid ∧ Normal (fileName uuid) ∧
      s.tree.isDir (trusted ++ [fileName uuid]) = false ∧
      s' = ⟨Function.update s.tree (trusted ++ [fileName uuid]) (some (.file (utf8 pem))),
        { byUuid := s.pins.byUuid.insert uuid (.of c uuid der) }⟩ := by
  unfold addTrustedPeer at added
  cases decoded : pemCertToDer pem with
  | none => simp [decoded] at added
  | some der =>
    cases named : nodeUuidFromCert c der with
    | none => simp [decoded, PeerPinStore.pin_refused named] at added
    | some node =>
      simp only [decoded, PeerPinStore.pin_ok named, Files.createDirs_place led, Bool.true_eq_false,
        if_false] at added
      obtain ⟨rfl, result⟩ := Prod.mk.inj added
      split at result
      · next written =>
        cases result
        have certifies : certified c pem = some (uuid, der) := certified_eq_some.mpr ⟨decoded, named⟩
        have plain := plain uuid der certifies
        obtain ⟨place, found, free, update⟩ := Files.write_ok written
        rw [update]
        rw [peerFile_plain plain] at found
        have normal := normal_fileName found
        rw [← Path.child, Files.target_child normal, led, Option.bind_some] at found
        split at found
        · cases found
        · cases found
          exact ⟨der, certifies, plain, normal, free, rfl⟩
      · cases result

theorem addTrustedPeer_stores (led : s.tree.place cwd (trustedPath dir) = some trusted)
    (certifies : certified c pem = some (uuid, der)) (plain : PlainUuid uuid)
    (normal : Normal (fileName uuid)) (free : s.tree.isDir (trusted ++ [fileName uuid]) = false) :
    addTrustedPeer c s cwd dir pem =
      (⟨Function.update s.tree (trusted ++ [fileName uuid]) (some (.file (utf8 pem))),
        { byUuid := s.pins.byUuid.insert uuid (.of c uuid der) }⟩, .ok uuid) := by
  obtain ⟨decoded, named⟩ := certified_eq_some.mp certifies
  have target : s.tree.target cwd ((trustedPath dir).child (fileName uuid)) =
      some (trusted ++ [fileName uuid]) := by
    rw [Files.target_child normal, led, Option.bind_some, if_neg (by simp [free])]
  have path : (trustedPath dir).join (peerFile uuid) = (trustedPath dir).child (fileName uuid) := by
    rw [peerFile_plain plain, Path.child]
  simp only [addTrustedPeer, decoded, PeerPinStore.pin_ok named, Files.createDirs_place led,
    Bool.true_eq_false, if_false, Files.write, path, target, if_true]

theorem addTrustedPeers_one (added : addTrustedPeer c s cwd dir pem = (s', .ok uuid)) :
    addTrustedPeers c cwd dir s [pem] = .ok s' := by
  simp only [addTrustedPeers, added]

theorem listed_file {name : Name} (normal : Normal name)
    (listed : Order (Listed tree trusted) names) (absent : name ∉ names) (content : Bytes) :
    Order (Listed (Function.update tree (trusted ++ [name]) (some (.file content))) trusted)
      (name :: names) where
  nodup := List.nodup_cons.mpr ⟨absent, listed.nodup⟩
  mem other := by
    rw [List.mem_cons, listed.mem, Listed, Listed]
    by_cases same : other = name
    · subst same
      simp [normal]
    · rw [Function.update_of_ne (append_singleton_ne same)]
      simp [same]

/-- What peers that were added one after the other have left. -/
structure Added (c : Crates) (k : KeyCrates) (cwd : Place) (dir : Path) (base : Place)
    (before after : TrustState) (peers : List (String × Bytes)) : Prop where
  opened : Opened c k after.tree cwd dir base
  pins (uuid : String) : after.pins.cert uuid = (last uuid peers).or (before.pins.cert uuid)
  normal (peer : String × Bytes) : peer ∈ peers → Normal (fileName peer.1)
  files (uuid : String) (der : Bytes) : last uuid peers = some der →
    certifiedBy c after.tree (base ++ [trustedName]) (fileName uuid) = some (uuid, der)
  others (name : Name) : (∀ peer ∈ peers, fileName peer.1 ≠ name) →
    after.tree (base ++ [trustedName] ++ [name]) = before.tree (base ++ [trustedName] ++ [name])

theorem Opened.update (opened : Opened c k tree cwd dir base) {name : Name} (content : Bytes)
    (free : tree.isDir (base ++ [trustedName] ++ [name]) = false) :
    Opened c k (Function.update tree (base ++ [trustedName] ++ [name]) (some (.file content))) cwd
      dir base := by
  have held := opened.held.mono fun p opens => (Files.isDir_update content free p).trans opens
  have kept {entry : Name} : Function.update tree (base ++ [trustedName] ++ [name])
      (some (.file content)) (base ++ [entry]) = tree (base ++ [entry]) := by
    apply Function.update_of_ne
    intro same
    have lengths := congrArg List.length same
    simp at lengths
  obtain ⟨certPem, keyPem, identity, holds, read⟩ := opened.identity
  refine ⟨held, kept.trans opened.trusted, certPem, keyPem, identity, ⟨?_, ?_⟩, read⟩
  · exact (readToString_child normal_nodeCrt opened.held held kept).trans holds.cert
  · exact (readToString_child normal_nodeKey opened.held held kept).trans holds.key

theorem addTrustedPeers_added (opened : Opened c k s.tree cwd dir base) {pems : List String}
    (plain : ∀ pem ∈ pems, ∀ uuid der, certified c pem = some (uuid, der) → PlainUuid uuid)
    {after : TrustState} (added : addTrustedPeers c cwd dir s pems = .ok after) :
    Added c k cwd dir base s after (pems.filterMap (certified c)) := by
  induction pems generalizing s with
  | nil =>
    cases added
    exact ⟨opened, fun _ => rfl, nofun, nofun, fun _ _ => rfl⟩
  | cons pem rest ih =>
    rw [addTrustedPeers] at added
    split at added
    · next next uuid one =>
      obtain ⟨der, certifies, plain', normal, free, rfl⟩ :=
        addTrustedPeer_plain opened.place one (plain pem List.mem_cons_self)
      have ih := ih (opened.update (utf8 pem) free)
        (fun other member => plain other (List.mem_cons_of_mem _ member)) added
      rw [List.filterMap_cons_some certifies]
      exact {
        opened := ih.opened
        pins := fun other => by
          rw [ih.pins, PeerPinStore.cert_insert, last, Option.or_assoc]
          congr 1
          split <;> rfl
        normal := fun peer member => by
          rcases List.mem_cons.mp member with rfl | later
          · exact normal
          · exact ih.normal peer later
        files := fun other der' found => by
          rw [last] at found
          cases later : last other (rest.filterMap (certified c)) with
          | some _ =>
            rw [later, Option.some_or] at found
            exact ih.files other der' (later.trans found)
          | none =>
            rw [later, Option.none_or] at found
            split at found
            · next same =>
              cases found
              subst same
              -- No later peer goes into this file.
              have kept := (ih.others (fileName uuid) fun peer member same =>
                last_eq_none_iff.mp later peer.2 (fileName_injective same ▸ member)).trans
                  (Function.update_self ..)
              rw [certifiedBy_text (.inl (extension_fileName plain')) kept, certifies]
            · cases found
        others := fun name apart => by
          rw [ih.others name fun peer member => apart peer (List.mem_cons_of_mem _ member)]
          apply Function.update_of_ne
          intro same
          have names := List.append_cancel_left same
          exact apart _ List.mem_cons_self (List.singleton_injective names).symm }
    · cases added

/-! ## Starting in another order -/

theorem loadOrInit_order {draws : MintDraws} {identity : KeyedIdentity} {pins : PeerPinStore}
    (loaded : loadOrInit c k draws names tree cwd dir = (made, .ok (identity, pins)))
    {other : List Name} {read : PeerPinStore × Nat}
    (reads : loadTrustedInto c made cwd (trustedPath dir) other {} = .ok read) :
    loadOrInit c k draws other tree cwd dir = (made, .ok (identity, read.1)) := by
  unfold OpenPair.loadOrInit at loaded ⊢
  dsimp only at loaded ⊢
  split at loaded
  · next ready =>
    rw [if_pos ready]
    split at loaded
    · cases loaded
    · split at loaded
      · cases loaded
      · cases loaded
        simp only [reads]
  · cases loaded

theorem addTrustedPeers_pins {pems : List String} {pins : PeerPinStore} {after : TrustState}
    (added : addTrustedPeers c cwd dir ⟨tree, pins⟩ pems = .ok after) (other : PeerPinStore) :
    ∃ pins, addTrustedPeers c cwd dir ⟨tree, other⟩ pems = .ok ⟨after.tree, pins⟩ := by
  induction pems generalizing tree pins other with
  | nil =>
    cases added
    exact ⟨other, rfl⟩
  | cons pem rest ih =>
    rw [addTrustedPeers] at added ⊢
    unfold addTrustedPeer at added ⊢
    cases decoded : pemCertToDer pem with
    | none => simp [decoded] at added
    | some der =>
      cases named : nodeUuidFromCert c der with
      | none => simp [decoded, PeerPinStore.pin_refused named] at added
      | some node =>
        simp only [decoded, PeerPinStore.pin_ok named] at added ⊢
        split at added
        · next next uuid one =>
          split at one
          · cases one
          · next ready =>
            rw [if_neg ready]
            obtain ⟨rfl, result⟩ := Prod.mk.inj one
            obtain ⟨pins', again⟩ := ih added _
            exact ⟨pins', by simp only [result]; exact again⟩
        · cases added

/-! ## The two directories -/

section

variable {before after : TrustState} {peers : List (String × Bytes)} {name : Name}

theorem Added.certifies_iff (added : Added c k cwd dir base before after peers)
    (spared : Spared peers name) {der : Bytes} :
    Certifies c after.tree (base ++ [trustedName]) uuid name der ↔
      Certifies c before.tree (base ++ [trustedName]) uuid name der := by
  have same := added.others name spared
  constructor
  · rintro ⟨⟨normal, held⟩, read⟩
    rw [same] at held
    rw [certifiedBy, same] at read
    exact ⟨⟨normal, held⟩, read⟩
  · rintro ⟨⟨normal, held⟩, read⟩
    rw [← same] at held
    rw [certifiedBy, ← same] at read
    exact ⟨⟨normal, held⟩, read⟩

theorem Added.written (added : Added c k cwd dir base before after peers) {der : Bytes}
    (found : last uuid peers = some der) :
    Certifies c after.tree (base ++ [trustedName]) uuid (fileName uuid) der := by
  have read := added.files uuid der found
  refine ⟨⟨added.normal (uuid, der) (mem_of_last found), ?_⟩, read⟩
  unfold certifiedBy at read
  split at read
  · split at read
    · next held => rw [held]; rfl
    · cases read
  · cases read

/-- A file of a node is the one it was added with, or one that was there. -/
theorem Added.certifies_cases (added : Added c k cwd dir base before after peers) {der : Bytes}
    (held : Certifies c after.tree (base ++ [trustedName]) uuid name der) :
    last uuid peers = some der ∨
      (Spared peers name ∧ Certifies c before.tree (base ++ [trustedName]) uuid name der) := by
  by_cases spared : Spared peers name
  · exact .inr ⟨spared, (added.certifies_iff spared).mp held⟩
  · left
    unfold Spared at spared
    push Not at spared
    obtain ⟨peer, member, rfl⟩ := spared
    obtain ⟨der', found⟩ := Option.isSome_iff_exists.mp (last_isSome_of_mem member)
    have same := (added.files _ _ found).symm.trans held.read
    cases same
    exact found

theorem Added.order (added : Added c k cwd dir base before after peers)
    (listed : Order (Listed before.tree (base ++ [trustedName])) names) :
    ∃ names, Order (Listed after.tree (base ++ [trustedName])) names := by
  refine ⟨(names ++ peers.map fun peer => fileName peer.1).dedup, List.nodup_dedup _, ?_⟩
  intro name
  rw [List.mem_dedup, List.mem_append, listed.mem]
  by_cases spared : Spared peers name
  · have absent : name ∉ peers.map fun peer => fileName peer.1 := by
      intro member
      obtain ⟨peer, member, same⟩ := List.mem_map.mp member
      exact spared peer member same
    simp only [absent, or_false, Listed, added.others name spared]
  · unfold Spared at spared
    push Not at spared
    obtain ⟨peer, member, rfl⟩ := spared
    obtain ⟨der, found⟩ := Option.isSome_iff_exists.mp (last_isSome_of_mem member)
    exact iff_of_true (.inr (List.mem_map_of_mem member)) (added.written found).listed

/-- In all orders a node is read back with its live certificate exactly when
`trusted/` gives it back. -/
theorem Added.recoverable_iff (added : Added c k cwd dir base before after peers)
    (listed : Order (Listed before.tree (base ++ [trustedName])) names) (uuid : String) :
    (∀ order order', Order (Listed before.tree (base ++ [trustedName])) order →
        Order (Listed after.tree (base ++ [trustedName])) order' →
          last uuid (order'.filterMap (certifiedBy c after.tree (base ++ [trustedName]))) =
            (last uuid peers).or
              (last uuid (order.filterMap (certifiedBy c before.tree (base ++ [trustedName]))))) ↔
      Recoverable c before.tree (base ++ [trustedName]) peers uuid := by
  obtain ⟨names', listed'⟩ := added.order listed
  cases found : last uuid peers with
  | some der =>
    -- The peer's own file gives it back, and so must every other file of its name.
    have written := added.written found
    simp only [Option.some_or]
    constructor
    · intro every
      have stays := (every_order_iff listed').mp fun order' held' => every names order' listed held'
      constructor
      · intro der' again name other held spared
        obtain rfl := Option.some.inj (found.symm.trans again)
        have kept := (added.certifies_iff spared).mpr held
        exact stays.2 name other kept.listed kept.read
      · intro absent
        rw [found] at absent
        cases absent
    · intro agree order order' _ held'
      refine (every_order_iff listed').mpr ⟨⟨_, written.listed, written.read⟩, ?_⟩ order' held'
      intro name other member read
      rcases added.certifies_cases ⟨member, read⟩ with again | ⟨spared, held⟩
      · exact (Option.some.inj (found.symm.trans again)).symm
      · exact agree.added der found name other held spared
  | none =>
    -- No file of these calls names the node, so that it is read from files that they spared.
    have stays {name : Name} {der : Bytes}
        (held : Certifies c after.tree (base ++ [trustedName]) uuid name der) :
        Spared peers name ∧ Certifies c before.tree (base ++ [trustedName]) uuid name der := by
      rcases added.certifies_cases held with again | stays
      · rw [found] at again
        cases again
      · exact stays
    simp only [Option.none_or]
    rw [every_orders_iff listed listed' fun name der member read =>
      have held := (stays ⟨member, read⟩).2
      ⟨held.listed, held.read⟩]
    constructor
    · intro agree
      constructor
      · intro der present
        rw [found] at present
        cases present
      · intro _ name der held
        obtain ⟨only, name', member, read⟩ := agree name der held.listed held.read
        obtain ⟨spared, kept⟩ := stays ⟨member, read⟩
        exact ⟨fun name other held => only name other held.listed held.read, name', kept, spared⟩
    · intro agree name der member read
      obtain ⟨only, name', kept, spared⟩ := agree.loaded found name der ⟨member, read⟩
      have left := (added.certifies_iff spared).mpr kept
      exact ⟨fun name other member read => only name other ⟨member, read⟩, name', left.listed,
        left.read⟩

end

end

variable {c k} in
/-- What is live and what is read, with the directory listed in these orders. -/
theorem restarted_certs {draws : MintDraws} {names order order' : List Name}
    {tree made : Files Bytes} {cwd base : Place} {dir : Path} {identity : KeyedIdentity}
    {pins : PeerPinStore} {pems : List String} {after : TrustState}
    (loaded : loadOrInit c k draws names tree cwd dir = (made, .ok (identity, pins)))
    (opened : Opened c k made cwd dir base)
    (added : addTrustedPeers c cwd dir ⟨made, pins⟩ pems = .ok after)
    (plain : ∀ pem ∈ pems, ∀ uuid der, certified c pem = some (uuid, der) → PlainUuid uuid)
    (draws' : MintDraws) (held : Order (Listed made (base ++ [trustedName])) order)
    (held' : Order (Listed after.tree (base ++ [trustedName])) order') : ∃ live read,
      restarted c k draws draws' order order' tree cwd dir pems = .ok (live, read) ∧
        ∀ uuid, read.cert uuid =
            last uuid (order'.filterMap (certifiedBy c after.tree (base ++ [trustedName]))) ∧
          live.cert uuid = (last uuid (pems.filterMap (certified c))).or
            (last uuid (order.filterMap (certifiedBy c made (base ++ [trustedName])))) := by
  obtain ⟨start, read, certs⟩ := loadTrustedInto_cert opened.place opened.lookup
    (c := c) fun name member => ((held.mem name).mp member).1
  obtain ⟨live, again⟩ := addTrustedPeers_pins added start.1
  have left : Added c k cwd dir base ⟨made, start.1⟩ ⟨after.tree, live⟩
      (pems.filterMap (certified c)) := addTrustedPeers_added opened plain again
  obtain ⟨identity', pins', reread, certs'⟩ := left.opened.loadOrInit draws'
    fun name member => ((held'.mem name).mp member).1
  refine ⟨live, pins', ?_, fun uuid => ⟨certs' uuid, ?_⟩⟩
  · simp only [restarted, loadOrInit_order loaded read, again, reread]
    rfl
  · rw [left.pins, certs]

/-- After a restart the pins are the live ones, in whatever order the directory
is listed, exactly when what `trusted/` holds after the first call gives back
every node's certificate. -/
theorem trust_survives_restart_iff (lawful : k.Lawful c) (reads : k.ReadsBack)
    {draws : MintDraws} {names : List Name} {tree made : Files Bytes} {cwd trusted : Place}
    {dir : Path} {identity : KeyedIdentity} {pins : PeerPinStore} {pems : List String}
    {after : TrustState}
    (loaded : loadOrInit c k draws names tree cwd dir = (made, .ok (identity, pins)))
    (led : made.place cwd (trustedPath dir) = some trusted)
    (listed : Order (Listed made trusted) names)
    (added : addTrustedPeers c cwd dir ⟨made, pins⟩ pems = .ok after)
    (plain : ∀ pem ∈ pems, ∀ uuid der, certified c pem = some (uuid, der) → PlainUuid uuid) :
    (∀ names names' draws', Order (Listed made trusted) names →
        Order (Listed after.tree trusted) names' → ∃ live read,
          restarted c k draws draws' names names' tree cwd dir pems = .ok (live, read) ∧
            ∀ uuid, read.cert uuid = live.cert uuid) ↔
      ∀ uuid, Recoverable c made trusted (pems.filterMap (certified c)) uuid := by
  obtain ⟨base, opened⟩ := opened_of_loadOrInit lawful reads loaded
  obtain rfl := Option.some.inj (led.symm.trans opened.place)
  have left : Added c k cwd dir base ⟨made, pins⟩ after (pems.filterMap (certified c)) :=
    addTrustedPeers_added opened plain added
  constructor
  · intro every uuid
    rw [← left.recoverable_iff listed]
    intro order order' held held'
    obtain ⟨live, read, ran, same⟩ := every order order' draws held held'
    obtain ⟨live', read', ran', certs⟩ :=
      restarted_certs loaded opened added plain draws held held'
    cases ran.symm.trans ran'
    rw [← (certs uuid).1, ← (certs uuid).2, same]
  · intro recoverable names names' draws' held held'
    obtain ⟨live, read, ran, certs⟩ := restarted_certs loaded opened added plain draws' held held'
    refine ⟨live, read, ran, fun uuid => ?_⟩
    rw [(certs uuid).1, (certs uuid).2]
    exact (left.recoverable_iff listed uuid).mpr (recoverable uuid) names names' held held'

namespace Reference

def joinerUuid : String := joinerCertificate.nodeUuid

def inviterUuid : String := inviterCertificate.nodeUuid

section

variable {certificate : Certificate} (known : certificate ∈ certificates)

include known

theorem certificate_plain : PlainUuid certificate.nodeUuid := by
  simp only [certificates, List.mem_cons, List.not_mem_nil, or_false] at known
  rcases known with rfl | rfl | rfl <;> constructor <;> decide

theorem certificate_normal : Normal (fileName certificate.nodeUuid) := by
  simp only [certificates, List.mem_cons, List.not_mem_nil, or_false] at known
  rcases known with rfl | rfl | rfl <;> constructor <;> decide

theorem certificate_unminted : certificate.der ≠ mintedDer := by
  simp only [certificates, List.mem_cons, List.not_mem_nil, or_false] at known
  rcases known with rfl | rfl | rfl <;> decide

theorem minting_certified : certified mintingCrates (pem certificate.der) =
    some (certificate.nodeUuid, certificate.der) := by
  have table : mintingCrates.sanUris = mintedUris := rfl
  refine certified_eq_some.mpr ⟨certificate_decoded known, nodeUuidFromCert_urn ?_⟩
  rw [table, mintedUris, if_neg (certificate_unminted known)]
  exact found known

end

theorem joinerUuid_plain : PlainUuid joinerUuid := certificate_plain joiner_known

theorem joinerFile_normal : Normal (fileName joinerUuid) := certificate_normal joiner_known

def renewedDer : Bytes := [
    0x30, 0x82, 0x01, 0xa3, 0x30, 0x82, 0x01, 0x55, 0xa0, 0x03, 0x02, 0x01, 0x02, 0x02, 0x01, 0x09,
    0x30, 0x05, 0x06, 0x03, 0x2b, 0x65, 0x70, 0x30, 0x2f, 0x31, 0x2d, 0x30, 0x2b, 0x06, 0x03, 0x55,
    0x04, 0x03, 0x0c, 0x24, 0x38, 0x64, 0x34, 0x31, 0x65, 0x36, 0x62, 0x30, 0x2d, 0x32, 0x35, 0x63,
    0x33, 0x2d, 0x34, 0x66, 0x39, 0x61, 0x2d, 0x38, 0x65, 0x31, 0x37, 0x2d, 0x36, 0x30, 0x62, 0x32,
    0x61, 0x39, 0x64, 0x33, 0x63, 0x35, 0x66, 0x34, 0x30, 0x1e, 0x17, 0x0d, 0x32, 0x36, 0x31, 0x31,
    0x31, 0x39, 0x30, 0x34, 0x35, 0x32, 0x34, 0x32, 0x5a, 0x17, 0x0d, 0x32, 0x38, 0x31, 0x31, 0x31,
    0x38, 0x30, 0x34, 0x35, 0x32, 0x34, 0x32, 0x5a, 0x30, 0x2f, 0x31, 0x2d, 0x30, 0x2b, 0x06, 0x03,
    0x55, 0x04, 0x03, 0x0c, 0x24, 0x38, 0x64, 0x34, 0x31, 0x65, 0x36, 0x62, 0x30, 0x2d, 0x32, 0x35,
    0x63, 0x33, 0x2d, 0x34, 0x66, 0x39, 0x61, 0x2d, 0x38, 0x65, 0x31, 0x37, 0x2d, 0x36, 0x30, 0x62,
    0x32, 0x61, 0x39, 0x64, 0x33, 0x63, 0x35, 0x66, 0x34, 0x30, 0x2a, 0x30, 0x05, 0x06, 0x03, 0x2b,
    0x65, 0x70, 0x03, 0x21, 0x00, 0x5b, 0x96, 0xb7, 0xa6, 0x09, 0x3c, 0xa5, 0xc1, 0xd8, 0xae, 0x93,
    0xfa, 0x67, 0x4b, 0x58, 0xeb, 0xc7, 0x49, 0x35, 0x51, 0x0e, 0x86, 0xe7, 0x73, 0x06, 0xcf, 0x43,
    0x85, 0x20, 0x15, 0x1e, 0x2a, 0xa3, 0x81, 0x95, 0x30, 0x81, 0x92, 0x30, 0x1d, 0x06, 0x03, 0x55,
    0x1d, 0x0e, 0x04, 0x16, 0x04, 0x14, 0x9e, 0xea, 0x8e, 0xba, 0xf0, 0x34, 0xe2, 0xca, 0xb6, 0xcf,
    0xc9, 0xc1, 0x9a, 0x08, 0x16, 0x0d, 0x6b, 0xba, 0x1a, 0xdb, 0x30, 0x1f, 0x06, 0x03, 0x55, 0x1d,
    0x23, 0x04, 0x18, 0x30, 0x16, 0x80, 0x14, 0x9e, 0xea, 0x8e, 0xba, 0xf0, 0x34, 0xe2, 0xca, 0xb6,
    0xcf, 0xc9, 0xc1, 0x9a, 0x08, 0x16, 0x0d, 0x6b, 0xba, 0x1a, 0xdb, 0x30, 0x0f, 0x06, 0x03, 0x55,
    0x1d, 0x13, 0x01, 0x01, 0xff, 0x04, 0x05, 0x30, 0x03, 0x01, 0x01, 0xff, 0x30, 0x3f, 0x06, 0x03,
    0x55, 0x1d, 0x11, 0x04, 0x38, 0x30, 0x36, 0x86, 0x34, 0x75, 0x72, 0x6e, 0x3a, 0x6e, 0x76, 0x70,
    0x61, 0x69, 0x72, 0x3a, 0x6e, 0x6f, 0x64, 0x65, 0x3a, 0x38, 0x64, 0x34, 0x31, 0x65, 0x36, 0x62,
    0x30, 0x2d, 0x32, 0x35, 0x63, 0x33, 0x2d, 0x34, 0x66, 0x39, 0x61, 0x2d, 0x38, 0x65, 0x31, 0x37,
    0x2d, 0x36, 0x30, 0x62, 0x32, 0x61, 0x39, 0x64, 0x33, 0x63, 0x35, 0x66, 0x34, 0x30, 0x05, 0x06,
    0x03, 0x2b, 0x65, 0x70, 0x03, 0x41, 0x00, 0xdc, 0xbc, 0x80, 0x0b, 0x4c, 0x87, 0xac, 0xa1, 0x01,
    0x3d, 0xe9, 0xd2, 0x04, 0xe3, 0x4f, 0x75, 0x22, 0x1d, 0x48, 0xec, 0xe8, 0xe9, 0x0e, 0xff, 0x79,
    0x2e, 0xf2, 0xc4, 0x89, 0x5f, 0xb5, 0x8c, 0x5e, 0x1f, 0x4c, 0x27, 0x9a, 0xc9, 0x41, 0x2f, 0x58,
    0x63, 0x56, 0x86, 0x86, 0xd2, 0x7f, 0x92, 0xaa, 0x26, 0x9a, 0x24, 0x55, 0x37, 0x90, 0xb5, 0x89,
    0x33, 0x32, 0x56, 0x44, 0xc9, 0x9d, 0x0c]

def renewedUris (der : Bytes) : Option (List String) :=
  if der = renewedDer then some [nodeUrn joinerUuid] else mintedUris der

def renewingCrates : Crates := { mintingCrates with sanUris := renewedUris }

def formerPem : String := pem joinerCertificate.der

def renewedPem : String := pem renewedDer

def trustedPlace : Place := ["cluster".toList] ++ [trustedName]

def oldName : Name := "old.pem".toList

def formerTree : Files Bytes :=
  Function.update ownTree (trustedPlace ++ [oldName]) (some (.file (utf8 formerPem)))

/-- A directory with a second peer, too, under the name that adding it gives. -/
def pairedTree : Files Bytes :=
  Function.update formerTree (trustedPlace ++ [fileName inviterUuid])
    (some (.file (utf8 (pem inviterCertificate.der))))

-- What adding the renewed certificate makes of the former directory.
def renewedTree : Files Bytes :=
  Function.update formerTree (trustedPlace ++ [fileName joinerUuid])
    (some (.file (utf8 renewedPem)))

theorem ownTree_empty (name : Name) : ownTree (trustedPlace ++ [name]) = none := by
  simp [ownTree, identityTree, trustedPlace]

theorem renewing_minted : nodeUuidFromCert renewingCrates mintedDer = some mintedUuid := by
  have table : renewingCrates.sanUris = renewedUris := rfl
  have other : mintedDer ≠ renewedDer := by decide
  refine nodeUuidFromCert_urn ?_
  rw [table, renewedUris, if_neg other, mintedUris_minted]

theorem renewing_former : certified renewingCrates formerPem =
    some (joinerUuid, joinerCertificate.der) := by
  have table : renewingCrates.sanUris = renewedUris := rfl
  have renewed : joinerCertificate.der ≠ renewedDer := by decide
  refine certified_eq_some.mpr ⟨certificate_decoded joiner_known, nodeUuidFromCert_urn ?_⟩
  rw [table, renewedUris, if_neg renewed, mintedUris, if_neg (certificate_unminted joiner_known)]
  exact found joiner_known

theorem renewing_renewed : certified renewingCrates renewedPem = some (joinerUuid, renewedDer) := by
  have table : renewingCrates.sanUris = renewedUris := rfl
  have some' : renewedDer ≠ [] := by
    rw [renewedDer]
    exact List.cons_ne_nil _ _
  refine certified_eq_some.mpr ⟨pemCertToDer_pem some', nodeUuidFromCert_urn ?_⟩
  rw [table, renewedUris, if_pos rfl]

set_option maxRecDepth 4096 in
theorem ownTree_opened {c : Crates} (named : nodeUuidFromCert c mintedDer = some mintedUuid) :
    Opened c keyCrates ownTree [] clusterPath ["cluster".toList] where
  held := identityTree_dir _ _
  trusted := rfl
  identity := by
    have pair : keyCrates.keyPairFromPem (keyText firstSeed) = .ok firstSeed := seedOfText_first
    have seed : keyCrates.fromPkcs8Pem (keyText firstSeed) = .ok firstSeed := seedOfText_first
    have read := fromPem_of pair (pemCertToDer_pem mintedDer_ne) named seed
    exact ⟨_, _, _, identityTree_holds _ _, read⟩

set_option maxRecDepth 4096 in
theorem keyCrates_readsBack : keyCrates.ReadsBack where
  cert {params pair der text} signed := by
    have same : selfSigned params pair = .ok (der, text) := signed
    obtain ⟨rfl, rfl, -⟩ := selfSigned_ok same
    cases selfSigned_minted.symm.trans same
    exact pemCertToDer_pem mintedDer_ne
  pair {params pair cert} signed := by
    obtain ⟨der, text⟩ := cert
    obtain ⟨-, rfl, -⟩ := selfSigned_ok signed
    exact ⟨_, seedOfText_first⟩
  seed {params seed der pair cert} _ _ signed := by
    obtain ⟨der, text⟩ := cert
    obtain ⟨-, rfl, -⟩ := selfSigned_ok signed
    exact ⟨_, seedOfText_first⟩

theorem ownTree_free (name : Name) : ownTree.isDir (trustedPlace ++ [name]) = false := by
  rw [Files.isDir, ownTree_empty]
  rfl

theorem ownTree_listed : Order (Listed ownTree trustedPlace) [] where
  nodup := List.nodup_nil
  mem name := by
    refine iff_of_false List.not_mem_nil ?_
    rintro ⟨-, held⟩
    rw [ownTree_empty] at held
    cases held

theorem oldName_normal : Normal oldName := by constructor <;> decide

theorem inviterFile_other : fileName inviterUuid ≠ oldName := by decide

theorem joinerFile_other : fileName joinerUuid ≠ oldName := by decide

theorem inviter_other : inviterUuid ≠ joinerUuid := by decide

theorem files_other : fileName joinerUuid ≠ fileName inviterUuid := by decide

theorem formerTree_free (name : Name) : formerTree.isDir (trustedPlace ++ [name]) = false := by
  rw [formerTree, Files.isDir_update _ (ownTree_free _), ownTree_free]

theorem formerTree_listed : Order (Listed formerTree trustedPlace) [oldName] :=
  listed_file oldName_normal ownTree_listed List.not_mem_nil _

theorem pairedTree_listed :
    Order (Listed pairedTree trustedPlace) [fileName inviterUuid, oldName] :=
  listed_file (certificate_normal inviter_known) formerTree_listed
    (List.mem_singleton.not.mpr inviterFile_other) _

theorem pairedTree_inviter : certifiedBy mintingCrates pairedTree trustedPlace
    (fileName inviterUuid) = some (inviterUuid, inviterCertificate.der) := by
  have held : pairedTree (trustedPlace ++ [fileName inviterUuid]) =
      some (.file (utf8 (pem inviterCertificate.der))) := by
    rw [pairedTree, Function.update_self]
  rw [certifiedBy_text (.inl (by decide)) held]
  exact minting_certified inviter_known

theorem pairedTree_joiner : certifiedBy mintingCrates pairedTree trustedPlace oldName =
    some (joinerUuid, joinerCertificate.der) := by
  have held : pairedTree (trustedPlace ++ [oldName]) = some (.file (utf8 formerPem)) := by
    rw [pairedTree, Function.update_of_ne (append_singleton_ne (Ne.symm inviterFile_other)),
      formerTree, Function.update_self]
  rw [certifiedBy_text (.inr rfl) held]
  exact minting_certified joiner_known

theorem pairedTree_certifies {uuid : String} {name : Name} {der : Bytes}
    (certifies : Certifies mintingCrates pairedTree trustedPlace uuid name der) :
    (name = fileName inviterUuid ∧ uuid = inviterUuid ∧ der = inviterCertificate.der) ∨
      (uuid = joinerUuid ∧ der = joinerCertificate.der) := by
  have member := (pairedTree_listed.mem name).mpr certifies.listed
  simp only [List.mem_cons, List.not_mem_nil, or_false] at member
  rcases member with rfl | rfl
  · cases pairedTree_inviter.symm.trans certifies.read
    exact .inl ⟨rfl, rfl, rfl⟩
  · cases pairedTree_joiner.symm.trans certifies.read
    exact .inr ⟨rfl, rfl⟩

/-- The joiner added once more: what stays of it is the same certificate, and
the other peer's file stays. -/
theorem pairedTree_recoverable (uuid : String) :
    Recoverable mintingCrates pairedTree trustedPlace
      [(joinerUuid, joinerCertificate.der)] uuid := by
  constructor
  · intro der added name other certifies _
    have joiner : uuid = joinerUuid ∧ der = joinerCertificate.der := by
      by_cases same : uuid = joinerUuid
      · subst same
        rw [last_singleton] at added
        exact ⟨rfl, (Option.some.inj added).symm⟩
      · rw [last_eq_none_iff.mpr (by simp [same])] at added
        cases added
    rcases pairedTree_certifies certifies with ⟨-, inviter, -⟩ | ⟨-, held⟩
    · exact absurd (inviter.symm.trans joiner.1) inviter_other
    · rw [held, joiner.2]
  · intro kept name der certifies
    have other : uuid ≠ joinerUuid := by
      rintro rfl
      rw [last_singleton] at kept
      cases kept
    rcases pairedTree_certifies certifies with ⟨rfl, rfl, rfl⟩ | ⟨joiner, -⟩
    · refine ⟨fun name der again => ?_, _, certifies, ?_⟩
      · rcases pairedTree_certifies again with ⟨-, -, same⟩ | ⟨joiner, -⟩
        · exact same
        · exact absurd joiner other
      · intro peer member
        obtain rfl := List.mem_singleton.mp member
        exact files_other
    · exact absurd joiner other

end Reference

/-- Two peers' files in the directory, and the joiner added once more. -/
theorem trust_survives_restart_joiner :
    ∃ live read, restarted Reference.mintingCrates Reference.keyCrates Reference.mintDraws
        Reference.mintDraws [fileName Reference.inviterUuid, Reference.oldName]
        [fileName Reference.joinerUuid, fileName Reference.inviterUuid, Reference.oldName]
        Reference.pairedTree [] Reference.clusterPath [Reference.formerPem] = .ok (live, read) ∧
      ∀ uuid, read.cert uuid = live.cert uuid := by
  have former := (Reference.ownTree_opened (nodeUuidFromCert_urn Reference.minting_uris)).update
    (utf8 Reference.formerPem) (Reference.ownTree_free Reference.oldName)
  have opened := former.update (utf8 (Reference.pem Reference.inviterCertificate.der))
    (Reference.formerTree_free (fileName Reference.inviterUuid))
  have listed := Reference.pairedTree_listed
  obtain ⟨identity, pins, loaded, -⟩ := opened.loadOrInit Reference.mintDraws
    fun name member => ((listed.mem name).mp member).1
  have free : Reference.pairedTree.isDir
      (Reference.trustedPlace ++ [fileName Reference.joinerUuid]) = false := by
    rw [Reference.pairedTree,
      Files.isDir_update _ (Reference.formerTree_free _),
      Reference.formerTree_free]
  have certifies : certified Reference.mintingCrates Reference.formerPem =
      some (Reference.joinerUuid, Reference.joinerCertificate.der) :=
    Reference.minting_certified Reference.joiner_known
  have one := addTrustedPeer_stores (s := ⟨Reference.pairedTree, pins⟩) opened.place certifies
    Reference.joinerUuid_plain Reference.joinerFile_normal free
  have joined := listed_file Reference.joinerFile_normal listed
    (by simpa using ⟨Reference.files_other, Reference.joinerFile_other⟩)
    (utf8 Reference.formerPem)
  refine (trust_survives_restart_iff _ _ Reference.keyCrates_lawful Reference.keyCrates_readsBack
    loaded opened.place listed (addTrustedPeers_one one) ?_).mpr ?_ _ _ Reference.mintDraws
      listed joined
  · intro pem member uuid der other
    obtain rfl := List.mem_singleton.mp member
    cases certifies.symm.trans other
    exact Reference.joinerUuid_plain
  · rw [List.filterMap_cons_some certifies, List.filterMap_nil]
    exact Reference.pairedTree_recoverable

/-- A node that renews its certificate is read back with the former one, where
that is kept under another name and listed last. -/
theorem renewed_certificate_lost :
    ¬ ∀ names names' draws', Order (Listed Reference.formerTree Reference.trustedPlace) names →
      Order (Listed Reference.renewedTree Reference.trustedPlace) names' → ∃ live read,
      restarted Reference.renewingCrates Reference.keyCrates Reference.mintDraws draws' names names'
          Reference.formerTree [] Reference.clusterPath [Reference.renewedPem] = .ok (live, read) ∧
        ∀ uuid, read.cert uuid = live.cert uuid := by
  intro every
  have own := Reference.ownTree_opened Reference.renewing_minted
  have opened := own.update (utf8 Reference.formerPem) (Reference.ownTree_free Reference.oldName)
  obtain ⟨identity, pins, loaded, -⟩ := opened.loadOrInit Reference.mintDraws
    fun name (member : name ∈ []) => absurd member List.not_mem_nil
  have other := Reference.joinerFile_other
  have one := addTrustedPeer_stores (s := ⟨Reference.formerTree, pins⟩) opened.place
    Reference.renewing_renewed Reference.joinerUuid_plain Reference.joinerFile_normal
    (Reference.formerTree_free _)
  have former := Reference.formerTree_listed
  -- The former certificate is listed after the renewed one.
  have renewed : Order (Listed Reference.renewedTree Reference.trustedPlace)
      [fileName Reference.joinerUuid, Reference.oldName] :=
    listed_file Reference.joinerFile_normal former (by simpa using other) _
  have plain : ∀ pem ∈ [Reference.renewedPem], ∀ uuid der,
      certified Reference.renewingCrates pem = some (uuid, der) → PlainUuid uuid := by
    intro pem member uuid der certifies
    rw [List.mem_singleton] at member
    subst member
    cases Reference.renewing_renewed.symm.trans certifies
    exact Reference.joinerUuid_plain
  obtain ⟨live, read, ran, same⟩ := every _ _ Reference.mintDraws former renewed
  obtain ⟨live', read', ran', certs⟩ := restarted_certs loaded opened (addTrustedPeers_one one)
    plain Reference.mintDraws former renewed
  cases ran.symm.trans ran'
  have kept : certifiedBy Reference.renewingCrates Reference.renewedTree Reference.trustedPlace
      Reference.oldName = some (Reference.joinerUuid, Reference.joinerCertificate.der) := by
    have held : Reference.renewedTree (Reference.trustedPlace ++ [Reference.oldName]) =
        some (.file (utf8 Reference.formerPem)) := by
      rw [Reference.renewedTree, Function.update_of_ne (append_singleton_ne (Ne.symm other)),
        Reference.formerTree, Function.update_self]
    rw [certifiedBy_text (.inr rfl) held, Reference.renewing_former]
  have reads : read.cert Reference.joinerUuid = some Reference.joinerCertificate.der := by
    rw [(certs _).1]
    exact last_filterMap_concat [fileName Reference.joinerUuid] kept
  have lives : live.cert Reference.joinerUuid = some Reference.renewedDer := by
    rw [(certs _).2, List.filterMap_cons_some Reference.renewing_renewed, List.filterMap_nil,
      last_singleton, Option.some_or]
  have differ : Reference.joinerCertificate.der ≠ Reference.renewedDer := by decide
  exact differ (Option.some.inj (reads.symm.trans ((same _).trans lives)))

end OpenPair
