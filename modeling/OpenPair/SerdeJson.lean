import OpenPair.Library.JsonValue
import OpenPair.Trust.NodeIdentity

/-! `serde_json`: its text layer, and how it reads a `Value`.

The workspace builds it with raw values, whose mark is an object that begins with
a key of its own. Reading a `Value` takes such an object for the text of its only
member.
-/

set_option autoImplicit false

namespace OpenPair

open Json

variable {F : Type}

/-- The text layer, whose other numbers are of the type `F`. -/
structure JsonCrate (F : Type) where
  write : Json.Tree F → Bytes
  parse : Bytes → Option (Json.Tree F)

structure JsonCrate.Lawful (j : JsonCrate F) : Prop where
  /-- What was written is a text of what it was written from. -/
  parse_write {tree : Json.Tree F} (integral : tree.Integral) : j.parse (j.write tree) = some tree

def maxDepth : Nat := 127

namespace JsonCrate

def read (j : JsonCrate F) (bytes : Bytes) : Option (Json.Tree F) :=
  (j.parse bytes).filter fun tree => tree.depth ≤ maxDepth

theorem read_eq_some_iff {j : JsonCrate F} {bytes : Bytes} {tree : Json.Tree F} :
    j.read bytes = some tree ↔ j.parse bytes = some tree ∧ tree.depth ≤ maxDepth := by
  rw [read, Option.filter_eq_some_iff, decide_eq_true_eq]

theorem Lawful.read_write {j : JsonCrate F} (lawful : j.Lawful) {tree : Json.Tree F}
    (integral : tree.Integral) :
    j.read (j.write tree) = if tree.depth ≤ maxDepth then some tree else none := by
  rw [read, lawful.parse_write integral, Option.filter_some]
  simp only [decide_eq_true_eq]

end JsonCrate

/-! ## Raw values -/

def rawToken : String := "$serde_json::private::RawValue"

def IsRaw (members : List (String × Json.Tree F)) : Prop :=
  members.head?.map Prod.fst = some rawToken

instance (members : List (String × Json.Tree F)) : Decidable (IsRaw members) :=
  inferInstanceAs (Decidable (_ = _))

theorem isRaw_cons {key : String} {value : Json.Tree F} {rest : List (String × Json.Tree F)} :
    IsRaw ((key, value) :: rest) ↔ key = rawToken := Option.some_inj

/-- The text in the place of a value; nothing may stand beside it. -/
def rawText : List (String × Json.Tree F) → Option String
  | [(_, .str text)] => some text
  | _ => none

mutual

def resolve (fromStr : String → Option (Json.Tree F)) : Json.Tree F → Option (Json.Tree F)
  | .null => some .null
  | .bool b => some (.bool b)
  | .num n => some (.num n)
  | .float x => some (.float x)
  | .str s => some (.str s)
  | .arr items => (resolveItems fromStr items).map .arr
  | .obj members =>
    if IsRaw members then (rawText members).bind fromStr
    else (resolveMembers fromStr members).map .obj

def resolveItems (fromStr : String → Option (Json.Tree F)) : List (Json.Tree F) → Option (List (Json.Tree F))
  | [] => some []
  | item :: rest => do return (← resolve fromStr item) :: (← resolveItems fromStr rest)

def resolveMembers (fromStr : String → Option (Json.Tree F)) :
    List (String × Json.Tree F) → Option (List (String × Json.Tree F))
  | [] => some []
  | (key, value) :: rest => do
    return (key, ← resolve fromStr value) :: (← resolveMembers fromStr rest)

end

namespace JsonCrate

variable (j : JsonCrate F)

def fromStr : Nat → String → Option (Json.Tree F)
  | 0, _ => none
  | n + 1, text => (j.read (utf8 text)).bind (resolve (fromStr n))

/-- A text inside a text is shorter, so there are no more of them than characters. -/
def textValue (text : String) : Option (Json.Tree F) := j.fromStr (text.length + 1) text

/-- `Value::deserialize`. -/
def readValue (tree : Json.Tree F) : Option (Value F) := (resolve j.textValue tree).map .ofTree

-- `serde_json::from_slice` of a `Value`.
def value (bytes : Bytes) : Option (Value F) := (j.read bytes).bind j.readValue

end JsonCrate

/-! ## What can be read -/

/-- Every object that begins with the mark is just a text, and one with a property. -/
def RawTexts (P : String → Prop) (tree : Json.Tree F) : Prop :=
  ∀ members, Json.Tree.Inside (.obj members) tree → IsRaw members →
    ∃ text, rawText members = some text ∧ P text

def RawFree (tree : Json.Tree F) : Prop := ∀ members, Json.Tree.Inside (.obj members) tree → ¬ IsRaw members

namespace JsonCrate

variable (j : JsonCrate F)

/-- The text of a value, with texts inside texts so often. -/
def LegibleText : Nat → String → Prop
  | 0, _ => False
  | n + 1, text => ∃ tree, j.read (utf8 text) = some tree ∧ RawTexts (LegibleText n) tree

/-- What begins with the mark is the text of a value, in which the same holds. -/
def Legible (tree : Json.Tree F) : Prop :=
  RawTexts (fun text => j.LegibleText (text.length + 1) text) tree

end JsonCrate

variable {P : String → Prop} {fromStr : String → Option (Json.Tree F)}

theorem rawTexts_leaf {leaf : Json.Tree F} (flat : leaf.depth = 0) : RawTexts P leaf := by
  rintro members (_ | _ | _)
  · cases flat
  · cases flat
  · cases flat

theorem rawTexts_arr {items : List (Json.Tree F)} :
    RawTexts P (.arr items) ↔ ∀ item ∈ items, RawTexts P item := by
  constructor
  · exact fun texts item member inner inside => texts inner (.item member inside)
  · intro texts inner inside
    rcases Json.Tree.inside_arr.mp inside with same | ⟨item, member, inside⟩
    · cases same
    · exact texts item member inner inside

theorem rawTexts_obj {members : List (String × Json.Tree F)} :
    RawTexts P (.obj members) ↔ (IsRaw members → ∃ text, rawText members = some text ∧ P text) ∧
      ∀ entry ∈ members, RawTexts P entry.2 := by
  constructor
  · intro texts
    exact ⟨texts members .self, fun entry member inner inside => texts inner (.member member inside)⟩
  · rintro ⟨own, texts⟩ inner inside
    rcases Json.Tree.inside_obj.mp inside with same | ⟨entry, member, inside⟩
    · cases same
      exact own
    · exact texts entry member inner inside

theorem rawTexts_raw {members : List (String × Json.Tree F)} (raw : IsRaw members) :
    RawTexts P (.obj members) ↔ ∃ text, rawText members = some text ∧ P text := by
  rw [rawTexts_obj, and_iff_left_of_imp]
  · exact ⟨fun own => own raw, fun found _ => found⟩
  · -- The text is the only member, and holds no object.
    intro own
    obtain ⟨text, found, -⟩ := own raw
    unfold rawText at found
    split at found
    · exact List.forall_mem_singleton.mpr (rawTexts_leaf rfl)
    · cases found

mutual

theorem resolve_isSome (tree : Json.Tree F) :
    (resolve fromStr tree).isSome ↔ RawTexts (fun text => (fromStr text).isSome) tree := by
  match tree with
  | .null | .bool _ | .num _ | .float _ | .str _ => exact iff_of_true rfl (rawTexts_leaf rfl)
  | .arr items => rw [resolve, Option.isSome_map, resolveItems_isSome items, rawTexts_arr]
  | .obj members =>
    rw [resolve]
    split
    · next raw => rw [rawTexts_raw raw, Option.isSome_bind, Option.any_eq_true]
    · next plain =>
      rw [Option.isSome_map, resolveMembers_isSome members, rawTexts_obj,
        and_iff_right fun raw => absurd raw plain]

theorem resolveItems_isSome (items : List (Json.Tree F)) : (resolveItems fromStr items).isSome ↔
    ∀ item ∈ items, RawTexts (fun text => (fromStr text).isSome) item := by
  match items with
  | [] => exact iff_of_true rfl fun _ member => absurd member List.not_mem_nil
  | item :: rest =>
    rw [List.forall_mem_cons, ← resolve_isSome item, ← resolveItems_isSome rest, resolveItems]
    cases resolve fromStr item <;> cases resolveItems fromStr rest <;> simp

theorem resolveMembers_isSome (members : List (String × Json.Tree F)) :
    (resolveMembers fromStr members).isSome ↔
      ∀ entry ∈ members, RawTexts (fun text => (fromStr text).isSome) entry.2 := by
  match members with
  | [] => exact iff_of_true rfl fun _ member => absurd member List.not_mem_nil
  | (key, value) :: rest =>
    rw [List.forall_mem_cons, ← resolve_isSome value, ← resolveMembers_isSome rest, resolveMembers]
    cases resolve fromStr value <;> cases resolveMembers fromStr rest <;> simp

end

namespace JsonCrate

variable (j : JsonCrate F)

theorem fromStr_isSome (n : Nat) (text : String) :
    (j.fromStr n text).isSome ↔ j.LegibleText n text := by
  induction n generalizing text with
  | zero => exact iff_of_false Bool.false_ne_true id
  | succ n ih =>
    rw [fromStr, LegibleText, Option.isSome_bind, Option.any_eq_true]
    simp only [resolve_isSome, ih]

theorem readValue_isSome (tree : Json.Tree F) : (j.readValue tree).isSome ↔ j.Legible tree := by
  rw [readValue, Option.isSome_map, resolve_isSome]
  simp only [textValue, fromStr_isSome]
  rfl

end JsonCrate

/-! ## What is read as it is -/

theorem rawFree_iff {tree : Json.Tree F} : RawFree tree ↔ RawTexts (fun _ => False) tree := by
  simp only [RawFree, RawTexts, and_false, exists_false, imp_false]

theorem rawFree_arr {items : List (Json.Tree F)} :
    RawFree (.arr items) ↔ ∀ item ∈ items, RawFree item := by
  simp only [rawFree_iff, rawTexts_arr]

theorem rawFree_obj {members : List (String × Json.Tree F)} :
    RawFree (.obj members) ↔ ¬ IsRaw members ∧ ∀ entry ∈ members, RawFree entry.2 := by
  simp only [rawFree_iff, rawTexts_obj, and_false, exists_false, imp_false]

mutual

theorem resolve_rawFree {tree : Json.Tree F} (free : RawFree tree) :
    resolve fromStr tree = some tree := by
  match tree with
  | .null | .bool _ | .num _ | .float _ | .str _ => rfl
  | .arr items => rw [resolve, resolveItems_rawFree (rawFree_arr.mp free), Option.map_some]
  | .obj members =>
    obtain ⟨plain, inner⟩ := rawFree_obj.mp free
    rw [resolve, if_neg plain, resolveMembers_rawFree inner, Option.map_some]

theorem resolveItems_rawFree {items : List (Json.Tree F)} (free : ∀ item ∈ items, RawFree item) :
    resolveItems fromStr items = some items := by
  match items with
  | [] => rfl
  | item :: rest =>
    obtain ⟨first, later⟩ := List.forall_mem_cons.mp free
    rw [resolveItems, resolve_rawFree first, resolveItems_rawFree later]
    rfl

theorem resolveMembers_rawFree {members : List (String × Json.Tree F)}
    (free : ∀ entry ∈ members, RawFree entry.2) : resolveMembers fromStr members = some members := by
  match members with
  | [] => rfl
  | (key, value) :: rest =>
    obtain ⟨first, later⟩ := List.forall_mem_cons.mp free
    rw [resolveMembers, resolve_rawFree first, resolveMembers_rawFree later]
    rfl

end

theorem keys_resolveMembers {members resolved : List (String × Json.Tree F)}
    (read : resolveMembers fromStr members = some resolved) :
    resolved.map Prod.fst = members.map Prod.fst := by
  induction members generalizing resolved with
  | nil =>
    cases read
    rfl
  | cons entry rest ih =>
    simp only [resolveMembers, Option.bind_eq_bind, Option.bind_eq_some_iff] at read
    obtain ⟨value, -, later, inner, same⟩ := read
    cases same
    rw [List.map_cons, List.map_cons, ih inner]

/-- It is no object that begins with the mark. -/
def Plain (tree : Json.Tree F) : Prop := ∀ members, tree = .obj members → ¬ IsRaw members

theorem plain_of_resolve (texts : ∀ text read, fromStr text = some read → Plain read)
    {tree read : Json.Tree F} (resolved : resolve fromStr tree = some read) : Plain read := by
  cases tree with
  | null | bool _ | num _ | float _ | str _ =>
    cases resolved
    exact nofun
  | arr items =>
    obtain ⟨inner, -, rfl⟩ := Option.map_eq_some_iff.mp resolved
    exact nofun
  | obj members =>
    rw [resolve] at resolved
    split at resolved
    · obtain ⟨text, -, found⟩ := Option.bind_eq_some_iff.mp resolved
      exact texts text read found
    · next plain =>
      obtain ⟨inner, kept, rfl⟩ := Option.map_eq_some_iff.mp resolved
      intro other equal raw
      cases equal
      rw [IsRaw, ← List.head?_map, keys_resolveMembers kept, List.head?_map] at raw
      exact plain raw

theorem JsonCrate.plain_fromStr (j : JsonCrate F) (n : Nat) (text : String) (read : Json.Tree F)
    (found : j.fromStr n text = some read) : Plain read := by
  induction n generalizing text read with
  | zero => cases found
  | succ n ih =>
    obtain ⟨tree, -, resolved⟩ := Option.bind_eq_some_iff.mp found
    exact plain_of_resolve ih resolved

/-- What is no such object has a member with another name, which collecting keeps. -/
theorem collect_ne_raw {tree : Json.Tree F} (plain : Plain tree) {key text : String}
    (raw : IsRaw [(key, Json.Tree.str (F := F) text)]) : tree.collect ≠ .obj [(key, .str text)] := by
  intro same
  cases tree with
  | null | bool _ | num _ | float _ | str _ | arr _ => cases same
  | obj members =>
    rw [Json.Tree.collect, Json.Tree.obj.injEq] at same
    match members with
    | [] => cases same
    | (other, value) :: rest =>
      have kept : other ∈ (SortedMap.collect (Json.Tree.collectMembers ((other, value) :: rest))).map
          Prod.fst := by
        rw [Json.Tree.collectMembers]
        exact SortedMap.key_mem_collect
      rw [same, List.map_cons, List.map_nil, List.mem_singleton] at kept
      subst kept
      exact plain _ rfl raw

theorem keys_collectMembers (members : List (String × Json.Tree F)) :
    (Json.Tree.collectMembers members).map Prod.fst = members.map Prod.fst := by
  induction members with
  | nil => rfl
  | cons entry rest ih => rw [Json.Tree.collectMembers, List.map_cons, List.map_cons, ih]

theorem collect_resolved {members resolved : List (String × Json.Tree F)}
    (sorted : SortedMap.Sorted members) (read : resolveMembers fromStr members = some resolved) :
    SortedMap.collect (Json.Tree.collectMembers resolved) = Json.Tree.collectMembers resolved := by
  apply SortedMap.collect_sorted
  have keys : (Json.Tree.collectMembers resolved).map Prod.fst = members.map Prod.fst :=
    (keys_collectMembers resolved).trans (keys_resolveMembers read)
  have pairwise : (members.map Prod.fst).Pairwise (· < ·) := List.pairwise_map.mpr sorted
  rw [← keys] at pairwise
  exact List.pairwise_map.mp pairwise

mutual

theorem rawFree_of_resolve (texts : ∀ text read, fromStr text = some read → Plain read)
    {tree read : Json.Tree F} (ordered : tree.Ordered)
    (resolved : resolve fromStr tree = some read) (same : read.collect = tree) : RawFree tree := by
  match tree with
  | .null | .bool _ | .num _ | .float _ | .str _ => exact rawFree_iff.mpr (rawTexts_leaf rfl)
  | .arr items =>
    obtain ⟨inner, kept, rfl⟩ := Option.map_eq_some_iff.mp resolved
    rw [Json.Tree.collect, Json.Tree.arr.injEq] at same
    exact rawFree_arr.mpr (rawFree_of_resolveItems texts ordered kept same)
  | .obj members =>
    rw [resolve] at resolved
    split at resolved
    · next raw =>
      obtain ⟨text, own, found⟩ := Option.bind_eq_some_iff.mp resolved
      unfold rawText at own
      split at own
      · exact absurd same (collect_ne_raw (texts text read found) raw)
      · cases own
    · next plain =>
      obtain ⟨inner, kept, rfl⟩ := Option.map_eq_some_iff.mp resolved
      rw [Json.Tree.collect, Json.Tree.obj.injEq, collect_resolved ordered.1 kept] at same
      exact rawFree_obj.mpr ⟨plain, rawFree_of_resolveMembers texts ordered.2 kept same⟩

theorem rawFree_of_resolveItems (texts : ∀ text read, fromStr text = some read → Plain read)
    {items read : List (Json.Tree F)} (ordered : Json.Tree.OrderedItems items)
    (resolved : resolveItems fromStr items = some read) (same : Json.Tree.collectItems read = items) :
    ∀ item ∈ items, RawFree item := by
  match items with
  | [] => exact fun _ member => absurd member List.not_mem_nil
  | item :: rest =>
    simp only [resolveItems, Option.bind_eq_bind, Option.bind_eq_some_iff] at resolved
    obtain ⟨first, kept, later, inner, made⟩ := resolved
    cases made
    rw [Json.Tree.collectItems, List.cons.injEq] at same
    exact List.forall_mem_cons.mpr ⟨rawFree_of_resolve texts ordered.1 kept same.1,
      rawFree_of_resolveItems texts ordered.2 inner same.2⟩

theorem rawFree_of_resolveMembers (texts : ∀ text read, fromStr text = some read → Plain read)
    {members read : List (String × Json.Tree F)} (ordered : Json.Tree.OrderedMembers members)
    (resolved : resolveMembers fromStr members = some read)
    (same : Json.Tree.collectMembers read = members) : ∀ entry ∈ members, RawFree entry.2 := by
  match members with
  | [] => exact fun _ member => absurd member List.not_mem_nil
  | (key, value) :: rest =>
    simp only [resolveMembers, Option.bind_eq_bind, Option.bind_eq_some_iff] at resolved
    obtain ⟨first, kept, later, inner, made⟩ := resolved
    cases made
    rw [Json.Tree.collectMembers, List.cons.injEq, Prod.mk.injEq] at same
    exact List.forall_mem_cons.mpr ⟨rawFree_of_resolve texts ordered.1 kept same.1.2,
      rawFree_of_resolveMembers texts ordered.2 inner same.2⟩

end

/-- A value is read as it is exactly when it has no marks. -/
theorem JsonCrate.readValue_eq_iff (j : JsonCrate F) (value : Value F) :
    j.readValue value.tree = some value ↔ RawFree value.tree := by
  constructor
  · intro found
    obtain ⟨read, resolved, same⟩ := Option.map_eq_some_iff.mp found
    exact rawFree_of_resolve (fun text => j.plain_fromStr _ text) value.ordered resolved
      (congrArg Value.tree same)
  · intro free
    rw [readValue, resolve_rawFree free, Option.map_some, Value.ofTree_tree]

theorem JsonCrate.value_write {j : JsonCrate F} (lawful : j.Lawful) {value : Value F}
    (integral : value.tree.Integral) (shallow : value.tree.depth ≤ maxDepth)
    (free : RawFree value.tree) : j.value (j.write value.tree) = some value := by
  rw [JsonCrate.value, lawful.read_write integral, if_pos shallow, Option.bind_some,
    (j.readValue_eq_iff value).mpr free]

namespace Reference

def jsonCrate : JsonCrate Empty where
  write tree := utf8 (String.ofList tree.write)
  parse bytes := (decodeUtf8 bytes).bind fun text => Json.Tree.read text.length text.toList

theorem jsonCrate_lawful : jsonCrate.Lawful where
  parse_write {tree} _ := by
    simp only [jsonCrate, decodeUtf8_utf8, Option.bind_some, String.toList_ofList,
      String.length_ofList, Json.Tree.read_write_all]

end Reference

end OpenPair
