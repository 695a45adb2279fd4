import Mathlib.Data.String.Basic
import OpenPair.Library.JsonTree
import OpenPair.Library.SortedMap

/-! JSON values whose objects are maps: the members of an object are in the order
of their keys, each key once. A tree is made a value by collecting its members,
the last one of a key staying.
-/

set_option autoImplicit false

namespace Json

variable {F : Type}

namespace Tree

mutual

def Ordered : Tree F → Prop
  | .null | .bool _ | .num _ | .float _ | .str _ => True
  | .arr items => OrderedItems items
  | .obj members => SortedMap.Sorted members ∧ OrderedMembers members

def OrderedItems : List (Tree F) → Prop
  | [] => True
  | item :: rest => Ordered item ∧ OrderedItems rest

def OrderedMembers : List (String × Tree F) → Prop
  | [] => True
  | (_, value) :: rest => Ordered value ∧ OrderedMembers rest

end

mutual

def collect : Tree F → Tree F
  | .null => .null
  | .bool b => .bool b
  | .num n => .num n
  | .float x => .float x
  | .str s => .str s
  | .arr items => .arr (collectItems items)
  | .obj members => .obj (SortedMap.collect (collectMembers members))

def collectItems : List (Tree F) → List (Tree F)
  | [] => []
  | item :: rest => collect item :: collectItems rest

def collectMembers : List (String × Tree F) → List (String × Tree F)
  | [] => []
  | (key, value) :: rest => (key, collect value) :: collectMembers rest

end

theorem orderedMembers_iff {members : List (String × Tree F)} :
    OrderedMembers members ↔ ∀ entry ∈ members, Ordered entry.2 := by
  induction members with
  | nil => exact iff_of_true trivial fun _ member => absurd member List.not_mem_nil
  | cons entry rest ih => rw [OrderedMembers, ih, List.forall_mem_cons]

mutual

theorem ordered_collect (tree : Tree F) : Ordered (collect tree) := by
  match tree with
  | .null | .bool _ | .num _ | .float _ | .str _ => trivial
  | .arr items => exact ordered_collectItems items
  | .obj members =>
    refine ⟨SortedMap.sorted_collect _, orderedMembers_iff.mpr fun entry member => ?_⟩
    exact orderedMembers_iff.mp (ordered_collectMembers members) entry
      (SortedMap.mem_collect member)

theorem ordered_collectItems (items : List (Tree F)) : OrderedItems (collectItems items) := by
  match items with
  | [] => trivial
  | item :: rest => exact ⟨ordered_collect item, ordered_collectItems rest⟩

theorem ordered_collectMembers (members : List (String × Tree F)) :
    OrderedMembers (collectMembers members) := by
  match members with
  | [] => trivial
  | (_, value) :: rest => exact ⟨ordered_collect value, ordered_collectMembers rest⟩

end

mutual

theorem collect_ordered {tree : Tree F} (ordered : Ordered tree) : collect tree = tree := by
  match tree with
  | .null | .bool _ | .num _ | .float _ | .str _ => rfl
  | .arr items => rw [collect, collectItems_ordered ordered]
  | .obj members =>
    rw [collect, collectMembers_ordered ordered.2, SortedMap.collect_sorted ordered.1]

theorem collectItems_ordered {items : List (Tree F)} (ordered : OrderedItems items) :
    collectItems items = items := by
  match items with
  | [] => rfl
  | item :: rest => rw [collectItems, collect_ordered ordered.1, collectItems_ordered ordered.2]

theorem collectMembers_ordered {members : List (String × Tree F)} (ordered : OrderedMembers members) :
    collectMembers members = members := by
  match members with
  | [] => rfl
  | (key, value) :: rest =>
    rw [collectMembers, collect_ordered ordered.1, collectMembers_ordered ordered.2]

end

end Tree

/-- A value; an object that is no map cannot be built. -/
@[ext] structure Value (F : Type) where
  tree : Tree F
  ordered : tree.Ordered

namespace Value

def null : Value F := ⟨.null, trivial⟩

def depth (value : Value F) : Nat := value.tree.depth

def ofTree (tree : Tree F) : Value F := ⟨tree.collect, tree.ordered_collect⟩

theorem ofTree_tree (value : Value F) : ofTree value.tree = value :=
  Value.ext (Tree.collect_ordered value.ordered)

end Value

end Json
