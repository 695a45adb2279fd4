import OpenPair.Cluster.InfoJson

/-! Records as JSON objects, by the rules that `serde` derives: a field is always
written, left out while it has its default, or left out while it is `None`.
-/

set_option autoImplicit false

namespace OpenPair

/-- How a type is written and read. What it does not write is read back as a default. -/
structure Codec (F α : Type) where
  toTree : α → Json.Tree F
  ofTree : Json.Tree F → Option α
  readBack : α → α
  ofTree_toTree (a : α) : ofTree (toTree a) = some (readBack a)
  integral (a : α) : (toTree a).Integral
  ne_null (a : α) : toTree a ≠ .null

namespace Codec

variable {F α : Type}

-- `serde_json::to_vec`.
def toVec (codec : Codec F α) (j : JsonCrate F) (a : α) : Bytes := j.write (codec.toTree a)

/-- `serde_json::from_slice`; what a type has no field for is passed over, however deep. -/
def fromSlice (codec : Codec F α) (j : JsonCrate F) (bytes : Bytes) : Option α :=
  (j.parse bytes).bind codec.ofTree

theorem fromSlice_toVec (codec : Codec F α) {j : JsonCrate F} (lawful : j.Lawful) (a : α) :
    codec.fromSlice j (codec.toVec j a) = some (codec.readBack a) := by
  rw [fromSlice, toVec, lawful.parse_write (codec.integral a), Option.bind_some,
    codec.ofTree_toTree]

/-! ## Values -/

def string : Codec F String where
  toTree := .str
  ofTree := readString
  readBack := id
  ofTree_toTree _ := rfl
  integral _ := Json.Tree.integral_leaf rfl nofun
  ne_null _ := nofun

def readBool : Json.Tree F → Option Bool
  | .bool b => some b
  | _ => none

def bool : Codec F Bool where
  toTree := .bool
  ofTree := readBool
  readBack := id
  ofTree_toTree _ := rfl
  integral _ := Json.Tree.integral_leaf rfl nofun
  ne_null _ := nofun

def u16Tree (n : UInt16) : Json.Tree F := .num ⟨n.toNat, by omega, by have := n.toNat_lt; omega⟩

def readU16 : Json.Tree F → Option UInt16
  | .num n => if 0 ≤ n.value ∧ n.value < 2 ^ 16 then some (.ofNat n.value.toNat) else none
  | _ => none

theorem readU16_u16Tree (n : UInt16) : readU16 (u16Tree n : Json.Tree F) = some n := by
  have small := n.toNat_lt
  have fits : 0 ≤ (n.toNat : Int) ∧ (n.toNat : Int) < 2 ^ 16 := by omega
  simp only [readU16, u16Tree, if_pos fits, Int.toNat_natCast, UInt16.ofNat_toNat]

def u16 : Codec F UInt16 where
  toTree := u16Tree
  ofTree := readU16
  readBack := id
  ofTree_toTree := readU16_u16Tree
  integral _ := Json.Tree.integral_leaf rfl nofun
  ne_null _ := nofun

def u32 : Codec F UInt32 where
  toTree := u32Tree
  ofTree := readU32
  readBack := id
  ofTree_toTree := readU32_u32Tree
  integral _ := Json.Tree.integral_leaf rfl nofun
  ne_null _ := nofun

def u64 : Codec F UInt64 where
  toTree := u64Tree
  ofTree := readU64
  readBack := id
  ofTree_toTree := readU64_u64Tree
  integral _ := Json.Tree.integral_leaf rfl nofun
  ne_null _ := nofun

def i64 : Codec F Int64 where
  toTree := int64Tree
  ofTree := readInt64
  readBack := id
  ofTree_toTree := readInt64_int64Tree
  integral _ := Json.Tree.integral_leaf rfl nofun
  ne_null _ := nofun

theorem mapM_ofTree (codec : Codec F α) (items : List α) :
    (items.map codec.toTree).mapM codec.ofTree = some (items.map codec.readBack) := by
  induction items with
  | nil => rfl
  | cons item items ih =>
    rw [List.map_cons, List.mapM_cons, codec.ofTree_toTree, ih]
    rfl

def readList (read : Json.Tree F → Option α) : Json.Tree F → Option (List α)
  | .arr items => items.mapM read
  | _ => none

def list (codec : Codec F α) : Codec F (List α) where
  toTree items := .arr (items.map codec.toTree)
  ofTree := readList codec.ofTree
  readBack := List.map codec.readBack
  ofTree_toTree := codec.mapM_ofTree
  integral _ := Json.Tree.integral_arr.mpr (List.forall_mem_map.mpr fun item _ => codec.integral item)
  ne_null _ := nofun

/-! ## Fields -/

def required (codec : Codec F α) (a : α) : Option (Json.Tree F) := some (codec.toTree a)

def defaulted (codec : Codec F α) [DecidableEq α] (default : α) (a : α) : Option (Json.Tree F) :=
  if a = default then none else some (codec.toTree a)

def optional (codec : Codec F α) (a : Option α) : Option (Json.Tree F) := a.map codec.toTree

def readRequired (codec : Codec F α) (field : Option (Json.Tree F)) : Option α := field.bind codec.ofTree

@[simp] theorem readRequired_required (codec : Codec F α) (a : α) :
    codec.readRequired (codec.required a) = some (codec.readBack a) := codec.ofTree_toTree a

@[simp] theorem readDefault_defaulted (codec : Codec F α) [DecidableEq α] (default a : α)
    (same : codec.readBack a = a) :
    readDefault codec.ofTree default (codec.defaulted default a) = some a := by
  apply PairingInfo.readDefault_slot _ id
  rw [codec.ofTree_toTree, same]

@[simp] theorem readDefault_required (codec : Codec F α) (default a : α) :
    readDefault codec.ofTree default (codec.required a) = some (codec.readBack a) :=
  codec.ofTree_toTree a

@[simp] theorem readOption_optional (codec : Codec F α) (a : Option α) :
    readOption codec.ofTree (codec.optional a) = some (a.map codec.readBack) := by
  cases a with
  | none => rfl
  | some a =>
    have written := codec.ne_null a
    have read := codec.ofTree_toTree a
    rw [optional, Option.map_some, readOption_some written, read]
    rfl

/-- A field holds integers only, if it is written. -/
def Integral (field : Option (Json.Tree F)) : Prop := ∀ tree ∈ field.toList, tree.Integral

@[simp] theorem integral_required (codec : Codec F α) (a : α) : Integral (codec.required a) :=
  integral_some (codec.integral a)

@[simp] theorem integral_defaulted (codec : Codec F α) [DecidableEq α] (default a : α) :
    Integral (codec.defaulted default a) := by
  unfold defaulted Integral
  split
  · exact fun _ written => absurd written List.not_mem_nil
  · exact integral_some (codec.integral a)

@[simp] theorem integral_optional (codec : Codec F α) (a : Option α) :
    Integral (codec.optional a) := by
  cases a with
  | none => exact fun _ written => absurd written List.not_mem_nil
  | some a => exact integral_some (codec.integral a)

/-! ## Records -/

theorem lookup_zip {names : List String} (distinct : names.Nodup) {fields : List (Option (Json.Tree F))}
    (same : fields.length = names.length) :
    (names.map fun name => ((names.zip fields).lookup name).join) = fields := by
  induction names generalizing fields with
  | nil => exact (List.length_eq_zero_iff.mp same).symm
  | cons name names ih =>
    cases fields with
    | nil => cases same
    | cons field fields =>
      obtain ⟨fresh, distinct⟩ := List.nodup_cons.mp distinct
      have rest : (names.map fun other => (((name, field) :: names.zip fields).lookup other).join) =
          names.map fun other => ((names.zip fields).lookup other).join := by
        apply List.map_congr_left
        intro other member
        have differs : (other == name) = false :=
          beq_eq_false_iff_ne.mpr fun equal => fresh (equal ▸ member)
        rw [List.lookup_cons, differs]
      rw [List.zip_cons_cons, List.map_cons, rest, ih distinct (Nat.succ.inj same), List.lookup_cons,
        beq_self_eq_true]
      rfl

theorem structFields_zip {names : List String} (distinct : names.Nodup)
    {fields : List (Option (Json.Tree F))} (same : fields.length = names.length) :
    structFields names (structTree (names.zip fields)) = some fields := by
  have keys : (names.zip fields).map Prod.fst = names :=
    List.map_fst_zip (Nat.le_of_eq same.symm)
  rw [structFields_structTree (by rw [keys]; exact distinct), lookup_zip distinct same]

def struct (names : List String) (fields : α → List (Option (Json.Tree F)))
    (build : List (Option (Json.Tree F)) → Option α) (readBack : α → α) (distinct : names.Nodup)
    (same : ∀ a, (fields a).length = names.length) (built : ∀ a, build (fields a) = some (readBack a))
    (integral : ∀ a, ∀ field ∈ fields a, Integral field) : Codec F α where
  toTree a := structTree (names.zip (fields a))
  ofTree tree := (structFields names tree).bind build
  readBack := readBack
  ofTree_toTree a := by rw [structFields_zip distinct (same a), Option.bind_some, built]
  integral a := integral_structTree fun slot member => integral a _ (List.of_mem_zip member).2
  ne_null _ := nofun

end Codec

end OpenPair
