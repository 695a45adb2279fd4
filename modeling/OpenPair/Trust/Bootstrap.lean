import OpenPair.Library.Tasks
import OpenPair.Trust.DevTrust
import OpenPair.Trust.Restart

/-! Nodes of one machine that trust each other through a directory (`pair-node`,
`trust.rs`): each writes its certificate there and pins every other it finds.

A turn makes one call of the file system.
-/

set_option autoImplicit false

namespace OpenPair

open FileTree Tasks Transition

namespace DevTrust

def pemName (uuid : String) : Name := (uuid ++ ".pem").toList

/-- A node, by an identity whose certificate names it, and the directory it is given. -/
structure Publisher (c : Crates) where
  nodeUuid : String
  certPem : String
  certDer : Bytes
  cwd : Place
  dir : Path
  decoded : pemCertToDer certPem = some certDer
  named : nodeUuidFromCert c certDer = some nodeUuid
  plain : PlainUuid nodeUuid
  normal : Normal (pemName nodeUuid)

/-- The file system, and the pins that each node has in memory. -/
structure Machine (N : Type) where
  tree : Files Bytes
  pins : N → PeerPinStore

inductive Point where
  | create
  | truncate
  | fill (place : Place)
  | list
  | read (names : List Name) (pinned : Nat)
  | returned (result : Except TrustError Nat)

/-- Whether a call or the next entry of a directory fails, and the names a directory lists. -/
structure Io where
  fails : Bool := false
  entryFails : Bool := false
  names : List Name := []

/-- What two paths are compared by: a `.` counts at the start only. -/
def components (p : Path) : Bool × List Name :=
  let body := p.parts.filter fun part => part ≠ [] ∧ part ≠ ['.']
  (p.absolute, if p.parts.head? = some ['.'] then ['.'] :: body else body)

variable {c : Crates}

def Publisher.ours (node : Publisher c) : Path :=
  node.dir.join (Path.posix (pemName node.nodeUuid))

-- One entry of the directory, in the loop of `bootstrap_dev_trust`.
def Publisher.readEntry (node : Publisher c) (tree : Files Bytes) (fails : Bool)
    (pins : PeerPinStore × Nat) (name : Name) : PeerPinStore × Nat :=
  if extension name ≠ some "pem".toList then pins
  else if components (node.dir.child name) = components node.ours then pins
  else
    match if fails then none else readToString tree node.cwd (node.dir.child name) with
    | none => pins
    | some pem =>
      match pemCertToDer pem with
      | none => pins
      | some der =>
        match pins.1.pin c der with
        | (store, .ok _) => (store, pins.2 + 1)
        | (store, .error _) => (store, pins.2)

variable {N : Type} [DecidableEq N] (nodes : N → Publisher c)

abbrev Turn (N : Type) := Tasks.Turn (Machine N) Point Unit

def fail (m : Machine N) : Turn N := ⟨m, .returned (.error .io), ()⟩

/-- `bootstrap_dev_trust`; `fs::write` opens the file, which empties it, and then fills it. -/
def advance (m : Machine N) (n : N) (io : Io) : Point → Turn N
  | .create =>
    let made := m.tree.createDirs (nodes n).cwd (nodes n).dir
    if io.fails ∨ made.2 = false then fail { m with tree := made.1 }
    else ⟨{ m with tree := made.1 }, .truncate, ()⟩
  | .truncate =>
    match m.tree.target (nodes n).cwd (nodes n).ours with
    | none => fail m
    | some place =>
      if io.fails then fail m
      else ⟨{ m with tree := Function.update m.tree place (some (.file [])) }, .fill place, ()⟩
  | .fill place =>
    if io.fails then fail m
    else
      let filled := Function.update m.tree place (some (.file (utf8 (nodes n).certPem)))
      ⟨{ m with tree := filled }, .list, ()⟩
  | .list =>
    match m.tree.place (nodes n).cwd (nodes n).dir with
    | none => fail m
    | some _ => if io.fails then fail m else ⟨m, .read io.names 0, ()⟩
  | .read [] pinned => ⟨m, .returned (.ok pinned), ()⟩
  | .read (name :: rest) pinned =>
    if io.entryFails then fail m
    else
      let read := (nodes n).readEntry m.tree io.fails (m.pins n, pinned) name
      ⟨{ m with pins := Function.update m.pins n read.1 }, .read rest read.2, ()⟩
  | .returned result => ⟨m, .returned result, ()⟩

def program : Tasks.Program (Machine N) N N Point Io Unit where
  name n _ := n
  start m _ := ⟨m, .create, ()⟩
  advance m n io point := advance nodes m n io point

abbrev State (N : Type) := Executor (Machine N) N N Point

abbrev Event (N : Type) := Tasks.Event N N Io

/-! ## What the directory holds -/

/-- The nodes are given one directory, and each its own name. -/
structure Together (nodes : N → Publisher c) (base : Place) : Prop where
  distinct : Function.Injective fun n => (nodes n).nodeUuid
  led (n : N) : (nodes n).dir.parts.foldl enter ((nodes n).dir.start (nodes n).cwd) = base

def Publisher.file (node : Publisher c) (base : Place) : Place := base ++ [pemName node.nodeUuid]

/-- Every file of the directory that certifies one of the nodes holds its certificate. -/
def Clean (base : Place) (tree : Files Bytes) : Prop :=
  ∀ name bytes pem der n, tree (base ++ [name]) = some (.file bytes) → decodeUtf8 bytes = some pem →
    pemCertToDer pem = some der → nodeUuidFromCert c der = some (nodes n).nodeUuid →
      der = (nodes n).certDer

/-- A node that has written its certificate and not failed. -/
def Published : Point → Prop
  | .list => True
  | .read _ _ => True
  | .returned (.ok _) => True
  | _ => False

/-- What a node knows of the tree at a point. -/
def Placed (base : Place) (node : Publisher c) (tree : Files Bytes) (point : Point) : Prop :=
  tree.isDir (node.dir.start node.cwd) = true ∧
    match point with
    | .create => True
    | .truncate => tree.place node.cwd node.dir = some base
    | .fill place => tree.place node.cwd node.dir = some base ∧ place = node.file base ∧
        tree place = some (.file [])
    | .list | .read _ _ | .returned (.ok _) => tree.place node.cwd node.dir = some base ∧
        tree (node.file base) = some (.file (utf8 node.certPem))
    | .returned (.error _) => True

/-- What a turn makes of the tree. -/
inductive Written (base : Place) (node : Publisher c) (tree : Files Bytes) : Files Bytes → Prop where
  | same : Written base node tree tree
  | dirs : Written base node tree (tree.createDirs node.cwd node.dir).1
  | file {content : Bytes} (free : tree.isDir (node.file base) = false)
      (own : content = [] ∨ content = utf8 node.certPem) :
    Written base node tree (Function.update tree (node.file base) (some (.file content)))

/-- The turns of a node, from the point they are taken at. -/
inductive Turned (nodes : N → Publisher c) (base : Place) (m : Machine N) (n : N) (io : Io) :
    Point → Turn N → Prop where
  | failed {point : Point} {tree : Files Bytes}
      (made : tree = m.tree ∨ tree = (m.tree.createDirs (nodes n).cwd (nodes n).dir).1) :
    Turned nodes base m n io point (fail { m with tree := tree })
  | made (ok : (m.tree.createDirs (nodes n).cwd (nodes n).dir).2 = true) :
    Turned nodes base m n io .create
      ⟨{ m with tree := (m.tree.createDirs (nodes n).cwd (nodes n).dir).1 }, .truncate, ()⟩
  | truncated (free : m.tree.isDir ((nodes n).file base) = false) :
    Turned nodes base m n io .truncate
      ⟨{ m with tree := Function.update m.tree ((nodes n).file base) (some (.file [])) },
        .fill ((nodes n).file base), ()⟩
  | filled (free : m.tree.isDir ((nodes n).file base) = false) :
    Turned nodes base m n io (.fill ((nodes n).file base))
      ⟨{ m with
          tree := Function.update m.tree ((nodes n).file base)
            (some (.file (utf8 (nodes n).certPem))) }, .list, ()⟩
  | listed : Turned nodes base m n io .list ⟨m, .read io.names 0, ()⟩
  | read {name : Name} {rest : List Name} {pinned : Nat} :
    Turned nodes base m n io (.read (name :: rest) pinned)
      ⟨{ m with
          pins := Function.update m.pins n
            ((nodes n).readEntry m.tree io.fails (m.pins n, pinned) name).1 },
        .read rest ((nodes n).readEntry m.tree io.fails (m.pins n, pinned) name).2, ()⟩
  | done {pinned : Nat} :
    Turned nodes base m n io (.read [] pinned) ⟨m, .returned (.ok pinned), ()⟩
  | idle {result : Except TrustError Nat} :
    Turned nodes base m n io (.returned result) ⟨m, .returned result, ()⟩

/-- The directories stay, and of the files only one may be written. -/
structure Extends (written : Place) (before after : Files Bytes) : Prop where
  dirs (p : Place) : before.isDir p = true → after.isDir p = true
  files (p : Place) (content : Bytes) : p ≠ written →
    (after p = some (.file content) ↔ before p = some (.file content))

/-- A node has pinned the certificate that another goes by. -/
def Pins (nodes : N → Publisher c) (m : Machine N) (n other : N) : Prop :=
  (m.pins n).cert (nodes other).nodeUuid = some (nodes other).certDer

/-- A node that has pinned another or is still to read its file. -/
def Sees (nodes : N → Publisher c) (m : Machine N) (n other : N) : Point → Prop
  | .list => True
  | .read names _ => pemName (nodes other).nodeUuid ∈ names ∨ Pins nodes m n other
  | .returned (.ok _) => Pins nodes m n other
  | _ => False

/-- A directory lists every file it holds, and what a node has written can be read. -/
def Complete (nodes : N → Publisher c) (base : Place) (x : State N) : Event N → Prop
  | .call _ _ => True
  | .resume n io => ∀ task, x.tasks n = some task →
    match task.point with
    | .list => (∀ name, Listed x.shared.tree base name → name ∈ io.names) ∧
        ∀ name ∈ io.names, Normal name
    | .read (name :: _) _ => io.fails = true → ∀ a, name ≠ pemName (nodes a).nodeUuid
    | _ => True

structure Sound (nodes : N → Publisher c) (base : Place) (x : State N) : Prop where
  clean : Clean nodes base x.shared.tree
  rooted (n : N) : x.shared.tree.isDir ((nodes n).dir.start (nodes n).cwd) = true
  placed (n : N) (task : Task N Point) : x.tasks n = some task →
    Placed base (nodes n) x.shared.tree task.point
  normal (n : N) (task : Task N Point) : x.tasks n = some task →
    ∀ names pinned, task.point = .read names pinned → ∀ name ∈ names, Normal name
  sees (a b : N) (first second : Task N Point) : a ≠ b → x.tasks a = some first →
    x.tasks b = some second → Published first.point → Published second.point →
      Sees nodes x.shared a b first.point ∨ Sees nodes x.shared b a second.point

section

variable {nodes} {base : Place} {node : Publisher c} {tree after : Files Bytes} {m : Machine N}
  {n a b : N} {io : Io} {point : Point}

theorem Written.extends (written : Written base node tree after) :
    Extends (node.file base) tree after := by
  cases written with
  | same => exact ⟨fun _ held => held, fun _ _ _ => Iff.rfl⟩
  | dirs => exact ⟨fun _ held => Files.createDirs_keeps tree _ _ held,
      fun p content _ => Files.createDirs_file tree _ _ p content⟩
  | file free own => exact ⟨fun p held => (Files.isDir_update _ free p).trans held,
      fun p _ other => by rw [Function.update_of_ne other]⟩

omit [DecidableEq N] in
theorem Clean.of_written (together : Together nodes base) (clean : Clean nodes base tree)
    (written : Written base (nodes n) tree after) : Clean nodes base after := by
  intro name bytes pem der owner held text read named
  cases written with
  | same => exact clean name bytes pem der owner held text read named
  | dirs =>
    have before := (Files.createDirs_file tree _ _ _ _).mp held
    exact clean name bytes pem der owner before text read named
  | file free own =>
    by_cases here : base ++ [name] = (nodes n).file base
    · rw [here, Function.update_self] at held
      rcases own with rfl | rfl
      · cases held
        have empty : decodeUtf8 [] = some "" := by decide
        cases empty.symm.trans text
        cases read
      · cases held
        cases (decodeUtf8_utf8 _).symm.trans text
        cases (nodes n).decoded.symm.trans read
        have same := Option.some.inj ((nodes n).named.symm.trans named)
        rw [together.distinct same]
    · rw [Function.update_of_ne here] at held
      exact clean name bytes pem der owner held text read named

theorem Extends.place {written : Place} (extends' : Extends written tree after) {cwd : Place}
    {dir : Path} (led : tree.place cwd dir = some base) : after.place cwd dir = some base := by
  unfold Files.place at led ⊢
  split at led
  · cases led
  · next valid =>
    rw [if_neg valid]
    exact Files.walk_mono extends'.dirs led

omit [DecidableEq N] in
theorem file_injective (together : Together nodes base)
    (same : (nodes a).file base = (nodes b).file base) : a = b := by
  have names : pemName (nodes a).nodeUuid = pemName (nodes b).nodeUuid := by
    simpa [Publisher.file] using same
  rw [pemName, pemName, String.toList_append, String.toList_append] at names
  exact together.distinct (String.toList_inj.mp (List.append_cancel_right names))

omit [DecidableEq N] in
theorem Placed.of_extends (together : Together nodes base) (other : a ≠ b)
    (extends' : Extends ((nodes b).file base) tree after)
    (placed : Placed base (nodes a) tree point) : Placed base (nodes a) after point := by
  have apart : (nodes a).file base ≠ (nodes b).file base := fun same =>
    other (file_injective together same)
  obtain ⟨start, placed⟩ := placed
  refine ⟨extends'.dirs _ start, ?_⟩
  cases point with
  | create => trivial
  | truncate => exact extends'.place placed
  | fill place =>
    obtain ⟨led, rfl, held⟩ := placed
    exact ⟨extends'.place led, rfl, (extends'.files _ _ apart).mpr held⟩
  | list => exact ⟨extends'.place placed.1, (extends'.files _ _ apart).mpr placed.2⟩
  | read names pinned => exact ⟨extends'.place placed.1, (extends'.files _ _ apart).mpr placed.2⟩
  | returned result =>
    cases result with
    | error e => trivial
    | ok pinned => exact ⟨extends'.place placed.1, (extends'.files _ _ apart).mpr placed.2⟩

theorem ours_eq (node : Publisher c) : node.ours = node.dir.child (pemName node.nodeUuid) := by
  have text : '/' ∉ pemName node.nodeUuid := by
    have suffix : '/' ∉ ".pem".toList := by decide
    rw [pemName, String.toList_append, List.mem_append, not_or]
    exact ⟨node.plain.slash, suffix⟩
  have relative : (pemName node.nodeUuid).head? ≠ some '/' := by
    intro first
    exact text (List.mem_of_mem_head? first)
  have path : Path.posix (pemName node.nodeUuid) = ⟨false, [pemName node.nodeUuid]⟩ := by
    rw [Path.posix, posixParts_of_not_mem text]
    simp [relative]
  rw [Publisher.ours, path, Path.child]

theorem target_ours (led : tree.place node.cwd node.dir = some base) {place : Place}
    (found : tree.target node.cwd node.ours = some place) :
    place = node.file base ∧ tree.isDir place = false := by
  rw [ours_eq, Files.target_child node.normal, led, Option.bind_some] at found
  split at found
  · cases found
  · next free =>
    cases found
    exact ⟨rfl, by simpa using free⟩

theorem turned (placed : Placed base (nodes n) m.tree point) :
    Turned nodes base m n io point (advance nodes m n io point) := by
  obtain ⟨-, placed⟩ := placed
  -- A node writes only the file of its own name, whatever the place was resolved to.
  cases point with
  | create =>
    simp only [advance]
    split
    · exact .failed (.inr rfl)
    · next made => exact .made (by simpa using (not_or.mp made).2)
  | truncate =>
    simp only [advance]
    split
    · exact .failed (.inl rfl)
    · next place found =>
      obtain ⟨rfl, free⟩ := target_ours placed found
      split
      · exact .failed (.inl rfl)
      · exact .truncated free
  | fill place =>
    obtain ⟨-, rfl, held⟩ := placed
    simp only [advance]
    split
    · exact .failed (.inl rfl)
    · exact .filled (by simp [Files.isDir, held, Entry.isDir])
  | list =>
    simp only [advance]
    split
    · exact .failed (.inl rfl)
    · split
      · exact .failed (.inl rfl)
      · exact .listed
  | read names pinned =>
    cases names with
    | nil => exact .done
    | cons name rest =>
      simp only [advance]
      split
      · exact .failed (.inl rfl)
      · exact .read
  | returned result => exact .idle

theorem Turned.written {turn : Turn N} (turned : Turned nodes base m n io point turn) :
    Written base (nodes n) m.tree turn.shared.tree := by
  cases turned with
  | failed made =>
    rcases made with rfl | rfl
    · exact .same
    · exact .dirs
  | made ok => exact .dirs
  | truncated free => exact .file free (.inl rfl)
  | filled free => exact .file free (.inr rfl)
  | listed => exact .same
  | read => exact .same
  | done => exact .same
  | idle => exact .same

theorem Turned.placed (together : Together nodes base) {turn : Turn N}
    (turned : Turned nodes base m n io point turn) (placed : Placed base (nodes n) m.tree point) :
    Placed base (nodes n) turn.shared.tree turn.point := by
  have extends' := turned.written.extends
  refine ⟨extends'.dirs _ placed.1, ?_⟩
  obtain ⟨start, placed⟩ := placed
  cases turned with
  | failed made => trivial
  | made ok => exact (Files.createDirs_walks start ok).trans (congrArg some (together.led n))
  | truncated free => exact ⟨extends'.place placed, rfl, Function.update_self _ _ _⟩
  | filled free => exact ⟨extends'.place placed.1, Function.update_self _ _ _⟩
  | listed => exact placed
  | read => exact placed
  | done => exact placed
  | idle => exact placed

/-! ## Reading the directory -/

theorem getLast?_components {name : Name} (normal : Normal name) (dir : Path) :
    (components (dir.child name)).2.getLast? = some name := by
  have body : (dir.parts ++ [name]).filter (fun part => part ≠ [] ∧ part ≠ ['.']) =
      dir.parts.filter (fun part => part ≠ [] ∧ part ≠ ['.']) ++ [name] := by
    simp [normal.some, normal.here]
  unfold components
  dsimp only
  rw [Path.child_parts, body]
  split
  · rw [← List.cons_append, List.getLast?_concat]
  · rw [List.getLast?_concat]

theorem components_child {name other : Name} (normal : Normal name) (normal' : Normal other)
    (dir : Path) : components (dir.child name) = components (dir.child other) ↔ name = other := by
  constructor
  · intro same
    have last := getLast?_components normal dir
    rw [same, getLast?_components normal' dir] at last
    exact (Option.some.inj last).symm
  · rintro rfl
    rfl

theorem extension_pemName {uuid : String} (plain : PlainUuid uuid) :
    extension (pemName uuid) = some "pem".toList := by
  have some' : uuid.toList ≠ [] := fun empty => plain.some (String.toList_eq_nil_iff.mp empty)
  have reversed : (pemName uuid).reverse = 'm' :: 'e' :: 'p' :: '.' :: uuid.toList.reverse := by
    rw [pemName, String.toList_append, List.reverse_append]
    rfl
  have dotted : '.' ∈ pemName uuid := by
    rw [← List.mem_reverse, reversed]
    simp
  simp [extension, reversed, dotted, some']

theorem readToString_entry {name : Name} (normal : Normal name)
    (led : tree.place node.cwd node.dir = some base) {pem : String} :
    readToString tree node.cwd (node.dir.child name) = some pem ↔
      ∃ bytes, tree (base ++ [name]) = some (.file bytes) ∧ decodeUtf8 bytes = some pem := by
  rw [readToString, Files.lookup_child normal, led, Option.bind_some]
  cases tree (base ++ [name]) with
  | none => simp
  | some entry => cases entry <;> simp

theorem readEntry_cases {name : Name} (normal : Normal name)
    (led : tree.place node.cwd node.dir = some base) (fails : Bool) (pins : PeerPinStore × Nat) :
    (node.readEntry tree fails pins name).1 = pins.1 ∨
      ∃ bytes pem der uuid, tree (base ++ [name]) = some (.file bytes) ∧
        decodeUtf8 bytes = some pem ∧ pemCertToDer pem = some der ∧
        nodeUuidFromCert c der = some uuid ∧
        (node.readEntry tree fails pins name).1 =
          { byUuid := pins.1.byUuid.insert uuid (.of c uuid der) } := by
  unfold Publisher.readEntry
  split
  · exact .inl rfl
  · split
    · exact .inl rfl
    · split
      · exact .inl rfl
      · next pem read =>
        have read : readToString tree node.cwd (node.dir.child name) = some pem := by
          cases fails with
          | false => exact read
          | true => cases read
        obtain ⟨bytes, held, text⟩ := (readToString_entry normal led).mp read
        split
        · exact .inl rfl
        · next der decoded =>
          cases named : nodeUuidFromCert c der with
          | none =>
            rw [PeerPinStore.pin_refused named]
            exact .inl rfl
          | some uuid =>
            rw [PeerPinStore.pin_ok named]
            exact .inr ⟨bytes, pem, der, uuid, held, text, decoded, named, rfl⟩

omit [DecidableEq N] in
theorem readEntry_keeps (clean : Clean nodes base tree) {name : Name} (normal : Normal name)
    (led : tree.place node.cwd node.dir = some base) {fails : Bool} {pins : PeerPinStore × Nat}
    (pinned : pins.1.cert (nodes a).nodeUuid = some (nodes a).certDer) :
    (node.readEntry tree fails pins name).1.cert (nodes a).nodeUuid = some (nodes a).certDer := by
  rcases readEntry_cases normal led fails pins with same |
    ⟨bytes, pem, der, uuid, held, text, decoded, named, same⟩
  · rw [same, pinned]
  · rw [same, PeerPinStore.cert_insert]
    split
    · next own =>
      subst own
      rw [clean name bytes pem der a held text decoded named]
    · exact pinned

omit [DecidableEq N] in
/-- A node that has written its certificate is pinned when its file is read. -/
theorem readEntry_pins (together : Together nodes base) (other : a ≠ b)
    (led : tree.place (nodes a).cwd (nodes a).dir = some base)
    (held : tree ((nodes b).file base) = some (.file (utf8 (nodes b).certPem)))
    (pins : PeerPinStore × Nat) :
    ((nodes a).readEntry tree false pins (pemName (nodes b).nodeUuid)).1.cert (nodes b).nodeUuid =
      some (nodes b).certDer := by
  have read : readToString tree (nodes a).cwd ((nodes a).dir.child (pemName (nodes b).nodeUuid)) =
      some (nodes b).certPem :=
    (readToString_entry (nodes b).normal led).mpr ⟨_, held, decodeUtf8_utf8 _⟩
  have pem : extension (pemName (nodes b).nodeUuid) = some "pem".toList :=
    extension_pemName (nodes b).plain
  have foreign : components ((nodes a).dir.child (pemName (nodes b).nodeUuid)) ≠
      components (nodes a).ours := by
    rw [ours_eq, Ne, components_child (nodes b).normal (nodes a).normal]
    intro same
    exact other (file_injective together (congrArg (base ++ [·]) same.symm))
  unfold Publisher.readEntry
  rw [if_neg (not_not.mpr pem), if_neg foreign]
  simp only [Bool.false_eq_true, if_false, read, (nodes b).decoded, PeerPinStore.pin_ok (nodes b).named]
  exact (PeerPinStore.cert_insert _).trans (if_pos rfl)

/-! ## Of two nodes -/

theorem Turned.pins {turn : Turn N} (turned : Turned nodes base m n io point turn) (other : a ≠ n) :
    turn.shared.pins a = m.pins a := by
  cases turned with
  | read => exact Function.update_of_ne other _ _
  | _ => rfl

theorem Turned.sees_other {turn : Turn N} (turned : Turned nodes base m n io point turn)
    (other : a ≠ n) {there : Point} (sees : Sees nodes m a b there) :
    Sees nodes turn.shared a b there := by
  have same : Pins nodes turn.shared a b ↔ Pins nodes m a b := by
    rw [Pins, Pins, turned.pins other]
  cases there with
  | read names pinned => exact sees.imp id same.mpr
  | returned result =>
    cases result with
    | ok pinned => exact same.mpr sees
    | error e => exact sees
  | _ => exact sees

omit [DecidableEq N] in
theorem sees_read (together : Together nodes base) (clean : Clean nodes base m.tree)
    {name : Name} {rest : List Name} {pinned : Nat}
    (led : m.tree.place (nodes n).cwd (nodes n).dir = some base) (normal : Normal name)
    (other : n ≠ b) (held : m.tree ((nodes b).file base) = some (.file (utf8 (nodes b).certPem)))
    (readable : io.fails = true → name ≠ pemName (nodes b).nodeUuid)
    (sees : pemName (nodes b).nodeUuid ∈ name :: rest ∨ Pins nodes m n b) :
    pemName (nodes b).nodeUuid ∈ rest ∨
      ((nodes n).readEntry m.tree io.fails (m.pins n, pinned) name).1.cert (nodes b).nodeUuid =
        some (nodes b).certDer := by
  rcases sees with listed | already
  · rcases List.mem_cons.mp listed with rfl | later
    · have works : io.fails = false := by simpa using readable
      rw [works]
      exact .inr (readEntry_pins together other led held _)
    · exact .inl later
  · exact .inr (readEntry_keeps clean normal led already)

/-- A turn of one of two nodes that have written their certificates. -/
theorem Turned.sees_mine {turn : Turn N} {x : State N} {task : Task N Point}
    (turned : Turned nodes base x.shared n io task.point turn) (together : Together nodes base)
    (sound : Sound nodes base x) (found : x.tasks n = some task)
    (complete : Complete nodes base x (.resume n io)) (other : n ≠ b) {there : Task N Point}
    (second : x.tasks b = some there) (first' : Published turn.point)
    (second' : Published there.point) :
    Sees nodes turn.shared n b turn.point ∨ Sees nodes turn.shared b n there.point := by
  have turned' := turned
  have placed := sound.placed n task found
  have told := complete task found
  have before := sound.sees n b task there other found second
  have written : x.shared.tree ((nodes b).file base) = some (.file (utf8 (nodes b).certPem)) := by
    have held := (sound.placed b there second).2
    cases point : there.point with
    | list =>
      rw [point] at held
      exact held.2
    | read names pinned =>
      rw [point] at held
      exact held.2
    | returned result =>
      rw [point] at held second'
      cases result with
      | ok pinned => exact held.2
      | error e => cases second'
    | create | truncate | fill place =>
      rw [point] at second'
      cases second'
  -- Of two nodes that both have published, the one that lists or reads later sees the other's
  -- file; so only the turns that list and read are left.
  generalize at' : task.point = point at turned placed told before
  cases turned with
  | failed made => cases first'
  | made ok => cases first'
  | truncated free => cases first'
  | filled free => exact .inl trivial
  | listed =>
    left
    refine .inl (told.1 _ ⟨(nodes b).normal, ?_⟩)
    rw [← Publisher.file, written]
    rfl
  | @read name rest pinned =>
    rcases before trivial second' with sees | sees
    · left
      have led := placed.2.1
      have normal := sound.normal n task found _ _ at' _ List.mem_cons_self
      have after : pemName (nodes b).nodeUuid ∈ rest ∨
          ((nodes n).readEntry x.shared.tree io.fails (x.shared.pins n, pinned) name).1.cert
            (nodes b).nodeUuid = some (nodes b).certDer :=
        sees_read together sound.clean led normal other written (fun fails => told fails b) sees
      refine after.imp id fun certified => ?_
      unfold Pins
      dsimp only
      rw [Function.update_self]
      exact certified
    · exact .inr (turned'.sees_other other.symm sees)
  | done =>
    rcases before trivial second' with sees | sees
    · exact .inl (sees.resolve_left List.not_mem_nil)
    · exact .inr sees
  | idle => exact before first' second'

/-! ## Runs -/

theorem sound_call {x : State N} (sound : Sound nodes base x)
    (new : x.tasks n = none) : Sound nodes base (x.put n n ⟨x.shared, .create, ()⟩) where
  clean := sound.clean
  rooted := sound.rooted
  placed a task found := by
    by_cases mine : a = n
    · subst mine
      cases (put_self _ _ _).symm.trans found
      exact ⟨sound.rooted a, trivial⟩
    · exact sound.placed a task ((put_other _ _ mine).symm.trans found)
  normal a task found names pinned point := by
    by_cases mine : a = n
    · subst mine
      cases (put_self _ _ _).symm.trans found
      cases point
    · exact sound.normal a task ((put_other _ _ mine).symm.trans found) names pinned point
  sees a b first second other found found' published published' := by
    by_cases mine : a = n
    · subst mine
      cases (put_self _ _ _).symm.trans found
      cases published
    · by_cases mine' : b = n
      · subst mine'
        cases (put_self _ _ _).symm.trans found'
        cases published'
      · exact sound.sees a b first second other ((put_other _ _ mine).symm.trans found)
          ((put_other _ _ mine').symm.trans found') published published'

theorem sound_resume (together : Together nodes base) {x : State N} {task : Task N Point}
    {turn : Turn N} (sound : Sound nodes base x) (found : x.tasks n = some task)
    (complete : Complete nodes base x (.resume n io))
    (turned : Turned nodes base x.shared n io task.point turn) :
    Sound nodes base (x.put n task.call turn) where
  clean := sound.clean.of_written together turned.written
  rooted a := turned.written.extends.dirs _ (sound.rooted a)
  placed a there found' := by
    by_cases mine : a = n
    · subst mine
      cases (put_self _ _ _).symm.trans found'
      exact turned.placed together (sound.placed a task found)
    · have before := (put_other _ _ mine).symm.trans found'
      exact (sound.placed a there before).of_extends together mine turned.written.extends
  normal a there found' names pinned point := by
    by_cases mine : a = n
    · subst mine
      cases (put_self _ _ _).symm.trans found'
      have told := complete task found
      have normal := sound.normal a task found
      generalize task.point = before at turned told normal
      cases turned with
      | listed =>
        cases point
        exact told.2
      | @read name rest before =>
        cases point
        exact fun other member => normal _ _ rfl other (List.mem_cons_of_mem _ member)
      | idle => exact normal names pinned point
      | _ => cases point
    · exact sound.normal a there ((put_other _ _ mine).symm.trans found') names pinned point
  -- The two tasks may be the one that took the turn, on either side, or neither.
  sees a b first second other found₁ found₂ published published' := by
    by_cases mine : a = n
    · subst mine
      cases (put_self _ _ _).symm.trans found₁
      have there := (put_other _ _ other.symm).symm.trans found₂
      exact turned.sees_mine together sound found complete other there published published'
    · have here := (put_other _ _ mine).symm.trans found₁
      by_cases mine' : b = n
      · subst mine'
        cases (put_self _ _ _).symm.trans found₂
        exact (turned.sees_mine together sound found complete (Ne.symm mine) here published' published).symm
      · have there := (put_other _ _ mine').symm.trans found₂
        exact (sound.sees a b first second other here there published published').imp
          (turned.sees_other mine) (turned.sees_other mine')

theorem sound_step (together : Together nodes base) {x : State N} (sound : Sound nodes base x)
    (event : Event N) (complete : Complete nodes base x event) :
    Sound nodes base ((program nodes).step x event).1 := by
  rcases step_cases (program nodes) x event with idle | ⟨serial, n, rfl, new, started⟩ |
    ⟨n, io, task, rfl, found, advanced⟩
  · rw [idle]
    exact sound
  · rw [started]
    exact sound_call sound new
  · rw [advanced]
    exact sound_resume together sound found complete (turned (sound.placed n task found))

def fresh (tree : Files Bytes) (pins : N → PeerPinStore) : State N := { shared := ⟨tree, pins⟩ }

omit [DecidableEq N] in
theorem sound_fresh {tree : Files Bytes} (clean : Clean nodes base tree)
    (rooted : ∀ n, tree.isDir ((nodes n).dir.start (nodes n).cwd) = true) (pins : N → PeerPinStore) :
    Sound nodes base (fresh tree pins) where
  clean := clean
  rooted := rooted
  placed n task found := by cases found
  normal n task found := by cases found
  sees a b first second other found := by cases found

def Returned (x : State N) (n : N) : Prop :=
  ∃ task pinned, x.tasks n = some task ∧ task.point = .returned (.ok pinned)

/-- Of any two nodes that return, in whatever order their calls of the file
system were made, at least one has pinned the other's certificate: the one whose
file was there first is read by the other. -/
theorem bootstrap_links_every_two (together : Together nodes base) {tree : Files Bytes}
    (clean : Clean nodes base tree)
    (rooted : ∀ n, tree.isDir ((nodes n).dir.start (nodes n).cwd) = true)
    (pins : N → PeerPinStore) (events : List (Event N))
    (complete : EveryStep (fun _ e => Complete nodes base e.before e.input)
      (trace (program nodes).step (fresh tree pins) events))
    (a b : N) (other : a ≠ b)
    (first : Returned (run (program nodes).step (fresh tree pins) events) a)
    (second : Returned (run (program nodes).step (fresh tree pins) events) b) :
    Pins nodes (run (program nodes).step (fresh tree pins) events).shared a b ∨
      Pins nodes (run (program nodes).step (fresh tree pins) events).shared b a := by
  have start := sound_fresh clean rooted pins
  have sound : Sound nodes base (run (program nodes).step (fresh tree pins) events) :=
    history_invariant (P := fun _ x => Sound nodes base x)
      (fun _ x event kept allowed => sound_step together kept event allowed) start events complete
  obtain ⟨task, pinned, found, point⟩ := first
  obtain ⟨task', pinned', found', point'⟩ := second
  have sees := sound.sees a b task task' other found found'
  rw [point, point'] at sees
  exact sees trivial trivial

/-! ## A directory that holds nothing else -/

/-- Every call works, and the directory lists the same names each time. -/
def Regular (names : List Name) : Event N → Prop
  | .call _ _ => True
  | .resume _ io => io = { names := names }

/-- The directory is there, and holds files of the nodes only. -/
structure Own (nodes : N → Publisher c) (base : Place) (tree : Files Bytes) : Prop where
  led (n : N) : tree.place (nodes n).cwd (nodes n).dir = some base
  files (name : Name) : tree (base ++ [name]) ≠ none → ∃ n, name = pemName (nodes n).nodeUuid

omit [DecidableEq N] in
theorem Own.of_written (own : Own nodes base tree) (written : Written base (nodes n) tree after) :
    Own nodes base after := by
  refine ⟨fun a => written.extends.place (own.led a), ?_⟩
  intro name held
  cases written with
  | same => exact own.files name held
  | dirs =>
    rw [Files.createDirs_place (own.led n)] at held
    exact own.files name held
  | file free _ =>
    by_cases here : base ++ [name] = (nodes n).file base
    · exact ⟨n, by simpa [Publisher.file] using here⟩
    · rw [Function.update_of_ne here] at held
      exact own.files name held

omit [DecidableEq N] in
theorem Own.complete {x : State N} (own : Own nodes base x.shared.tree) {names : List Name}
    (all : ∀ n, pemName (nodes n).nodeUuid ∈ names) (normal : ∀ name ∈ names, Normal name)
    {event : Event N} (regular : Regular names event) : Complete nodes base x event := by
  cases event with
  | call serial n => trivial
  | resume n io =>
    obtain rfl := regular
    intro task found
    cases task.point with
    | list =>
      refine ⟨fun name listed => ?_, normal⟩
      obtain ⟨n, rfl⟩ := own.files name (Option.isSome_iff_ne_none.mp listed.2)
      exact all n
    | read entries pinned =>
      cases entries with
      | nil => trivial
      | cons name rest =>
        intro fails
        cases fails
    | _ => trivial

theorem complete_of_regular (together : Together nodes base) {tree : Files Bytes}
    (own : Own nodes base tree) (clean : Clean nodes base tree) (pins : N → PeerPinStore)
    (names : List Name) (all : ∀ n, pemName (nodes n).nodeUuid ∈ names)
    (normal : ∀ name ∈ names, Normal name) {events : List (Event N)}
    (regular : ∀ event ∈ events, Regular names event) :
    EveryStep (fun _ e => Complete nodes base e.before e.input)
      (trace (program nodes).step (fresh tree pins) events) := by
  have every : EveryStep (fun _ e => Regular names e.input)
      (trace (program nodes).step (fresh tree pins) events) := by
    apply EveryStep.of_forall
    intro e member
    obtain ⟨first, event, rest, split, rfl⟩ := mem_trace _ member
    exact regular event (by rw [split]; simp)
  have rooted (n : N) : tree.isDir ((nodes n).dir.start (nodes n).cwd) = true := by
    have led := own.led n
    unfold Files.place at led
    split at led
    · cases led
    · exact (Files.isDir_of_walk led).1
  refine EveryStep.of_invariant
    (P := fun _ x => Sound nodes base x ∧ Own nodes base x.shared.tree) ?_ ?_
    ⟨sound_fresh clean rooted pins, own⟩ events every
  · rintro history x event ⟨sound, own⟩ allowed
    refine ⟨sound_step together sound event (own.complete all normal allowed), ?_⟩
    rcases step_cases (program nodes) x event with idle | ⟨serial, n, rfl, new, started⟩ |
      ⟨n, io, task, rfl, found, advanced⟩
    · rw [idle]
      exact own
    · rw [started]
      exact own
    · rw [advanced]
      exact own.of_written (turned (sound.placed n task found)).written
  · rintro history x event ⟨sound, own⟩ allowed
    exact own.complete all normal allowed

end

end DevTrust

/-! ## Two nodes of one machine -/

namespace Reference

open DevTrust

variable {certificate : Certificate} (known : certificate ∈ certificates)

include known

theorem publisher_decoded : DevTrust.pemCertToDer (pem certificate.der) = some certificate.der :=
  (DevTrust.pemCertToDer_eq _).trans (certificate_decoded known)

theorem publisher_normal : Normal (pemName certificate.nodeUuid) := by
  simp only [certificates, List.mem_cons, List.not_mem_nil, or_false] at known
  rcases known with rfl | rfl | rfl <;> constructor <;> decide

omit known

-- A node that is given `/trust`.
def publisher (certificate : Certificate) (known : certificate ∈ certificates) :
    Publisher crates where
  nodeUuid := certificate.nodeUuid
  certPem := pem certificate.der
  certDer := certificate.der
  cwd := []
  dir := ⟨true, [[], "trust".toList]⟩
  decoded := publisher_decoded known
  named := certificate_named known
  plain := certificate_plain known
  normal := publisher_normal known

def publishers (first : Bool) : Publisher crates :=
  if first then publisher inviterCertificate inviter_known
  else publisher joinerCertificate joiner_known

-- A machine with an empty `/trust`.
def trustTree : Files Bytes := fun place =>
  if place = [] ∨ place = ["trust".toList] then some .dir else none

theorem publishers_together : Together publishers ["trust".toList] where
  distinct a b same := by
    cases a <;> cases b <;> first | rfl | exact absurd same (by decide)
  led n := by cases n <;> rfl

theorem trustTree_empty (name : Name) : trustTree (["trust".toList] ++ [name]) = none :=
  if_neg (by simp)

def pemNames : List Name := [pemName inviterCertificate.nodeUuid, pemName joinerCertificate.nodeUuid]

def bothBootstrap : List (DevTrust.Event Bool) :=
  [.call 0 true, .call 0 false] ++
    (List.replicate 7 [.resume true { names := pemNames }, .resume false { names := pemNames }]).flatten

theorem publishers_own : Own publishers ["trust".toList] trustTree where
  led n := by cases n <;> decide
  files name held := absurd (trustTree_empty name) held

theorem publishers_clean : Clean publishers ["trust".toList] trustTree := by
  intro name bytes pem der n held
  cases (trustTree_empty name).symm.trans held

theorem bothBootstrap_complete : EveryStep (fun _ e => Complete publishers ["trust".toList] e.before
    e.input) (trace (program publishers).step (fresh trustTree fun _ => {}) bothBootstrap) := by
  refine complete_of_regular publishers_together publishers_own publishers_clean _
    pemNames ?_ ?_ ?_
  · intro n
    cases n <;> simp [pemNames, publishers, publisher]
  · simp only [pemNames, List.forall_mem_cons]
    exact ⟨(publishers true).normal, (publishers false).normal, nofun⟩
  · simp [bothBootstrap, Regular]

end Reference

/-- Two nodes start at the same time. -/
theorem DevTrust.bootstrap_links_every_two_reference :
    let x := run (program Reference.publishers).step (fresh Reference.trustTree fun _ => {})
      Reference.bothBootstrap
    Returned x true ∧ Returned x false ∧
      (Pins Reference.publishers x.shared true false ∨
        Pins Reference.publishers x.shared false true) := by
  intro x
  have first : Returned x true := ⟨_, _, rfl, rfl⟩
  have second : Returned x false := ⟨_, _, rfl, rfl⟩
  refine ⟨first, second, ?_⟩
  exact bootstrap_links_every_two Reference.publishers_together Reference.publishers_clean
    (by intro n; cases n <;> decide) _ _ Reference.bothBootstrap_complete true false
    (by decide) first second

end OpenPair
