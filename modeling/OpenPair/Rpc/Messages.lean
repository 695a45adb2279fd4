import OpenPair.Rpc.Framing
import OpenPair.SerdeJson

/-! JSON-RPC messages (`jsonrpc.rs`) and reading back what was written.

A message is decoded by shape: a request, else a response, else a notification.
A member that may be absent is left out when it is, and read as absent when it is
`null`.
-/

set_option autoImplicit false

namespace OpenPair

open ByteReader Json

variable {F : Type}

/-! ## The messages -/

-- The literal `"2.0"`.
structure JsonRpcVersion where
  deriving DecidableEq

inductive RpcId where
  | num (n : Int64)
  | str (s : String)
  deriving DecidableEq

structure RpcRequest (F : Type) where
  jsonrpc : JsonRpcVersion := {}
  method : String
  params : Option (Value F)
  id : RpcId

structure RpcNotification (F : Type) where
  jsonrpc : JsonRpcVersion := {}
  method : String
  params : Option (Value F)

structure RpcError (F : Type) where
  code : Int64
  message : String
  data : Option (Value F)

structure RpcResponse (F : Type) where
  jsonrpc : JsonRpcVersion := {}
  result : Option (Value F)
  error : Option (RpcError F)
  id : RpcId

inductive RpcMessage (F : Type) where
  | request (request : RpcRequest F)
  | response (response : RpcResponse F)
  | notification (notification : RpcNotification F)

/-! ## Writing -/

def structTree (slots : List (String × Option (Json.Tree F))) : Json.Tree F :=
  .obj (slots.filterMap fun slot => slot.2.map fun value => (slot.1, value))

def int64Tree (n : Int64) : Json.Tree F := .num ⟨n.toInt, n.le_toInt, by have := n.toInt_lt; omega⟩

def JsonRpcVersion.toTree (_ : JsonRpcVersion) : Json.Tree F := .str "2.0"

def RpcId.toTree : RpcId → Json.Tree F
  | .num n => int64Tree n
  | .str s => .str s

def RpcRequest.slots (r : RpcRequest F) : List (String × Option (Json.Tree F)) :=
  [("jsonrpc", some r.jsonrpc.toTree), ("method", some (.str r.method)),
    ("params", r.params.map Value.tree), ("id", some r.id.toTree)]

def RpcRequest.toTree (r : RpcRequest F) : Json.Tree F := structTree r.slots

def RpcNotification.slots (n : RpcNotification F) : List (String × Option (Json.Tree F)) :=
  [("jsonrpc", some n.jsonrpc.toTree), ("method", some (.str n.method)),
    ("params", n.params.map Value.tree)]

def RpcNotification.toTree (n : RpcNotification F) : Json.Tree F := structTree n.slots

def RpcError.slots (e : RpcError F) : List (String × Option (Json.Tree F)) :=
  [("code", some (int64Tree e.code)), ("message", some (.str e.message)),
    ("data", e.data.map Value.tree)]

def RpcError.toTree (e : RpcError F) : Json.Tree F := structTree e.slots

def RpcResponse.slots (r : RpcResponse F) : List (String × Option (Json.Tree F)) :=
  [("jsonrpc", some r.jsonrpc.toTree), ("result", r.result.map Value.tree),
    ("error", r.error.map RpcError.toTree), ("id", some r.id.toTree)]

def RpcResponse.toTree (r : RpcResponse F) : Json.Tree F := structTree r.slots

def RpcMessage.toTree : RpcMessage F → Json.Tree F
  | .request r => r.toTree
  | .response r => r.toTree
  | .notification n => n.toTree

/-! ## Reading -/

def field? (members : List (String × Json.Tree F)) (name : String) : Option (Option (Json.Tree F)) :=
  match members.filter fun member => member.1 = name with
  | [] => some none
  | [member] => some (some member.2)
  | _ => none

/-- The fields of a struct: the members of an object, of which others are passed
over, or the items of an array in order. -/
def structFields (names : List String) : Json.Tree F → Option (List (Option (Json.Tree F)))
  | .obj members => names.mapM (field? members)
  | .arr items =>
    if items.length ≤ names.length then
      some (items.map some ++ List.replicate (names.length - items.length) none)
    else none
  | _ => none

def readString : Json.Tree F → Option String
  | .str s => some s
  | _ => none

def readInt64 : Json.Tree F → Option Int64
  | .num n => if n.value < 2 ^ 63 then some (.ofInt n.value) else none
  | _ => none

def JsonRpcVersion.ofTree (tree : Json.Tree F) : Option JsonRpcVersion :=
  (readString tree).bind fun v => if v = "2.0" then some {} else none

def RpcId.ofTree (tree : Json.Tree F) : Option RpcId :=
  match readInt64 tree with
  | some n => some (.num n)
  | none => (readString tree).map .str

/-- A field that may be absent; `null` is absent. -/
def readOption {α : Type} (read : Json.Tree F → Option α) : Option (Json.Tree F) → Option (Option α)
  | none => some none
  | some .null => some none
  | some tree => (read tree).map some

variable (j : JsonCrate F)

def RpcRequest.ofTree (tree : Json.Tree F) : Option (RpcRequest F) :=
  match structFields ["jsonrpc", "method", "params", "id"] tree with
  | some [some jsonrpc, some method, params, some id] => do
    return { jsonrpc := ← JsonRpcVersion.ofTree jsonrpc
             method := ← readString method
             params := ← readOption j.readValue params
             id := ← RpcId.ofTree id }
  | _ => none

def RpcNotification.ofTree (tree : Json.Tree F) : Option (RpcNotification F) :=
  match structFields ["jsonrpc", "method", "params"] tree with
  | some [some jsonrpc, some method, params] => do
    return { jsonrpc := ← JsonRpcVersion.ofTree jsonrpc
             method := ← readString method
             params := ← readOption j.readValue params }
  | _ => none

def RpcError.ofTree (tree : Json.Tree F) : Option (RpcError F) :=
  match structFields ["code", "message", "data"] tree with
  | some [some code, some message, data] => do
    return { code := ← readInt64 code
             message := ← readString message
             data := ← readOption j.readValue data }
  | _ => none

def RpcResponse.ofTree (tree : Json.Tree F) : Option (RpcResponse F) :=
  match structFields ["jsonrpc", "result", "error", "id"] tree with
  | some [some jsonrpc, result, error, some id] => do
    return { jsonrpc := ← JsonRpcVersion.ofTree jsonrpc
             result := ← readOption j.readValue result
             error := ← readOption (RpcError.ofTree j) error
             id := ← RpcId.ofTree id }
  | _ => none

def RpcMessage.ofTree (tree : Json.Tree F) : Option (RpcMessage F) :=
  ((RpcRequest.ofTree j tree).map .request).or
    (((RpcResponse.ofTree j tree).map .response).or
      ((RpcNotification.ofTree j tree).map .notification))

-- `serde_json::to_vec`.
def RpcMessage.toVec (message : RpcMessage F) : Bytes := j.write message.toTree

-- `serde_json::from_slice`.
def RpcMessage.fromSlice (bytes : Bytes) : Option (RpcMessage F) :=
  (j.read bytes).bind (RpcMessage.ofTree j)

/-! ## Structs -/

section

variable {j}

theorem field?_present {slots : List (String × Option (Json.Tree F))} (distinct : (slots.map Prod.fst).Nodup)
    (name : String) :
    field? (slots.filterMap fun slot => slot.2.map fun value => (slot.1, value)) name =
      some (slots.lookup name).join := by
  induction slots with
  | nil => rfl
  | cons slot slots ih =>
    obtain ⟨fresh, later⟩ := List.nodup_cons.mp distinct
    obtain ⟨key, value⟩ := slot
    have ih := ih later
    by_cases here : name = key
    · subst here
      -- No later slot has the name.
      have none : (slots.filterMap fun slot => slot.2.map fun value => (slot.1, value)).filter
          (fun member => member.1 = name) = [] := by
        rw [List.filter_eq_nil_iff]
        intro member found same
        obtain ⟨slot, inside, made⟩ := List.mem_filterMap.mp found
        obtain ⟨value, -, rfl⟩ := Option.map_eq_some_iff.mp made
        rw [decide_eq_true_eq] at same
        subst same
        exact fresh (List.mem_map.mpr ⟨slot, inside, rfl⟩)
      cases value with
      | none => simp [field?, none]
      | some value => simp [field?, none]
    · have other : ¬ key = name := fun same => here same.symm
      have lookup : List.lookup name ((key, value) :: slots) = slots.lookup name := by
        rw [List.lookup_cons, beq_eq_false_iff_ne.mpr here]
      rw [lookup, ← ih]
      cases value with
      | none => rfl
      | some value => simp [field?, other]

theorem structFields_structTree {slots : List (String × Option (Json.Tree F))}
    (distinct : (slots.map Prod.fst).Nodup) (names : List String) :
    structFields names (structTree slots) = some (names.map fun name => (slots.lookup name).join) := by
  unfold structFields structTree
  dsimp only
  induction names with
  | nil => rfl
  | cons name names ih => rw [List.mapM_cons, field?_present distinct, ih]; rfl

theorem readInt64_int64Tree (n : Int64) : readInt64 (int64Tree n : Json.Tree F) = some n := by
  have small := n.toInt_lt
  simp only [readInt64, int64Tree, if_pos small, Int64.ofInt_toInt]

theorem JsonRpcVersion.ofTree_toTree (v : JsonRpcVersion) :
    ofTree (v.toTree : Json.Tree F) = some v := by
  rw [ofTree, toTree, readString, Option.bind_some, if_pos rfl]

theorem RpcId.ofTree_toTree (id : RpcId) : ofTree (id.toTree : Json.Tree F) = some id := by
  cases id with
  | num n => rw [ofTree, toTree, readInt64_int64Tree]
  | str s => rfl

theorem readOption_some {α : Type} {read : Json.Tree F → Option α} {tree : Json.Tree F}
    (present : tree ≠ .null) : readOption read (some tree) = (read tree).map some := by
  cases tree with
  | null => exact absurd rfl present
  | bool b => rfl
  | num n => rfl
  | float x => rfl
  | str s => rfl
  | arr items => rfl
  | obj members => rfl

theorem readOption_value_iff {value : Option (Value F)} :
    readOption j.readValue (value.map Value.tree) = some value ↔
      ∀ present ∈ value.toList, present ≠ .null ∧ RawFree present.tree := by
  cases value with
  | none => exact iff_of_true rfl fun _ member => absurd member List.not_mem_nil
  | some value =>
    rw [Option.toList_some, List.forall_mem_singleton, Option.map_some]
    by_cases null : value.tree = .null
    · have same : value = .null := Value.ext null
      rw [null]
      constructor
      · intro kept
        cases kept
      · exact fun present => absurd same present.1
    · have present : value ≠ .null := fun same => null (congrArg Value.tree same)
      rw [readOption_some null, and_iff_right present, ← j.readValue_eq_iff,
        Option.map_eq_some_iff]
      simp only [Option.some.injEq, exists_eq_right]

theorem RpcRequest.fields (r : RpcRequest F) (names : List String) :
    structFields names r.toTree = some (names.map fun name => (r.slots.lookup name).join) := by
  have keys : r.slots.map Prod.fst = ["jsonrpc", "method", "params", "id"] := rfl
  exact structFields_structTree (by rw [keys]; decide) names

theorem RpcRequest.ofTree_toTree_iff {r : RpcRequest F} : ofTree j r.toTree = some r ↔
    ∀ present ∈ r.params.toList, present ≠ .null ∧ RawFree present.tree := by
  have fields : structFields ["jsonrpc", "method", "params", "id"] r.toTree =
      some [some r.jsonrpc.toTree, some (.str r.method), r.params.map Value.tree,
        some r.id.toTree] := r.fields _
  rw [← readOption_value_iff (j := j), ofTree, fields]
  obtain ⟨jsonrpc, method, params, id⟩ := r
  simp [JsonRpcVersion.ofTree_toTree, readString, RpcId.ofTree_toTree, Option.bind_eq_some_iff]

theorem RpcNotification.fields (n : RpcNotification F) (names : List String) :
    structFields names n.toTree = some (names.map fun name => (n.slots.lookup name).join) := by
  have keys : n.slots.map Prod.fst = ["jsonrpc", "method", "params"] := rfl
  exact structFields_structTree (by rw [keys]; decide) names

theorem RpcNotification.ofTree_toTree_iff {n : RpcNotification F} : ofTree j n.toTree = some n ↔
    ∀ present ∈ n.params.toList, present ≠ .null ∧ RawFree present.tree := by
  have fields : structFields ["jsonrpc", "method", "params"] n.toTree =
      some [some n.jsonrpc.toTree, some (.str n.method), n.params.map Value.tree] := n.fields _
  rw [← readOption_value_iff (j := j), ofTree, fields]
  obtain ⟨jsonrpc, method, params⟩ := n
  simp [JsonRpcVersion.ofTree_toTree, readString, Option.bind_eq_some_iff]

theorem RpcError.fields (e : RpcError F) (names : List String) :
    structFields names e.toTree = some (names.map fun name => (e.slots.lookup name).join) := by
  have keys : e.slots.map Prod.fst = ["code", "message", "data"] := rfl
  exact structFields_structTree (by rw [keys]; decide) names

theorem RpcError.ofTree_toTree_iff {e : RpcError F} : ofTree j e.toTree = some e ↔
    ∀ present ∈ e.data.toList, present ≠ .null ∧ RawFree present.tree := by
  have fields : structFields ["code", "message", "data"] e.toTree =
      some [some (int64Tree e.code), some (.str e.message), e.data.map Value.tree] := e.fields _
  rw [← readOption_value_iff (j := j), ofTree, fields]
  obtain ⟨code, message, data⟩ := e
  simp [readInt64_int64Tree, readString, Option.bind_eq_some_iff]

theorem readOption_error_iff {error : Option (RpcError F)} :
    readOption (RpcError.ofTree j) (error.map RpcError.toTree) = some error ↔
      ∀ present ∈ (error.bind RpcError.data).toList, present ≠ .null ∧ RawFree present.tree := by
  cases error with
  | none => exact iff_of_true rfl fun _ member => absurd member List.not_mem_nil
  | some error =>
    have object : error.toTree ≠ .null := nofun
    rw [Option.bind_some, ← RpcError.ofTree_toTree_iff (j := j), Option.map_some,
      readOption_some object, Option.map_eq_some_iff]
    simp only [Option.some.injEq, exists_eq_right]

theorem RpcResponse.fields (r : RpcResponse F) (names : List String) :
    structFields names r.toTree = some (names.map fun name => (r.slots.lookup name).join) := by
  have keys : r.slots.map Prod.fst = ["jsonrpc", "result", "error", "id"] := rfl
  exact structFields_structTree (by rw [keys]; decide) names

theorem RpcResponse.ofTree_toTree_iff {r : RpcResponse F} : ofTree j r.toTree = some r ↔
    (∀ present ∈ r.result.toList, present ≠ .null ∧ RawFree present.tree) ∧
      ∀ present ∈ (r.error.bind RpcError.data).toList, present ≠ .null ∧ RawFree present.tree := by
  have fields : structFields ["jsonrpc", "result", "error", "id"] r.toTree =
      some [some r.jsonrpc.toTree, r.result.map Value.tree, r.error.map RpcError.toTree,
        some r.id.toTree] := r.fields _
  rw [← readOption_value_iff (j := j), ← readOption_error_iff (j := j), ofTree, fields]
  obtain ⟨jsonrpc, result, error, id⟩ := r
  simp [JsonRpcVersion.ofTree_toTree, RpcId.ofTree_toTree, Option.bind_eq_some_iff]

/-! ## Shapes -/

variable {tree : Json.Tree F}

theorem RpcMessage.ofTree_request {r : RpcRequest F} :
    ofTree j tree = some (.request r) ↔ RpcRequest.ofTree j tree = some r := by
  unfold ofTree
  cases RpcRequest.ofTree j tree <;> cases RpcResponse.ofTree j tree <;>
    cases RpcNotification.ofTree j tree <;> simp

theorem RpcMessage.ofTree_response {r : RpcResponse F} : ofTree j tree = some (.response r) ↔
    RpcRequest.ofTree j tree = none ∧ RpcResponse.ofTree j tree = some r := by
  unfold ofTree
  cases RpcRequest.ofTree j tree <;> cases RpcResponse.ofTree j tree <;>
    cases RpcNotification.ofTree j tree <;> simp

theorem RpcMessage.ofTree_notification {n : RpcNotification F} :
    ofTree j tree = some (.notification n) ↔ RpcRequest.ofTree j tree = none ∧
      RpcResponse.ofTree j tree = none ∧ RpcNotification.ofTree j tree = some n := by
  unfold ofTree
  cases RpcRequest.ofTree j tree <;> cases RpcResponse.ofTree j tree <;>
    cases RpcNotification.ofTree j tree <;> simp

/-! A response has no method and a notification no id, so that neither is taken for
a shape tried before its own. -/

theorem RpcResponse.not_request (r : RpcResponse F) : RpcRequest.ofTree j r.toTree = none := by
  have fields : structFields ["jsonrpc", "method", "params", "id"] r.toTree =
      some [some r.jsonrpc.toTree, none, none, some r.id.toTree] := r.fields _
  rw [RpcRequest.ofTree, fields]

theorem RpcNotification.not_request (n : RpcNotification F) :
    RpcRequest.ofTree j n.toTree = none := by
  have fields : structFields ["jsonrpc", "method", "params", "id"] n.toTree =
      some [some n.jsonrpc.toTree, some (.str n.method), n.params.map Value.tree, none] :=
    n.fields _
  rw [RpcRequest.ofTree, fields]

theorem RpcNotification.not_response (n : RpcNotification F) :
    RpcResponse.ofTree j n.toTree = none := by
  have fields : structFields ["jsonrpc", "result", "error", "id"] n.toTree =
      some [some n.jsonrpc.toTree, none, none, none] := n.fields _
  rw [RpcResponse.ofTree, fields]

/-! ## What is lost -/

/-- The values a message carries, each with the number of objects around it. -/
def RpcMessage.payloads : RpcMessage F → List (Value F × Nat)
  | .request r => r.params.toList.map (·, 1)
  | .response r => r.result.toList.map (·, 1) ++ (r.error.bind RpcError.data).toList.map (·, 2)
  | .notification n => n.params.toList.map (·, 1)

def RpcMessage.Integral (message : RpcMessage F) : Prop :=
  ∀ payload ∈ message.payloads, payload.1.tree.Integral

/-- No value is `null`, none has an object that begins with the mark of raw values,
and none is nested too deep. -/
def RpcMessage.Readable (message : RpcMessage F) : Prop :=
  ∀ payload ∈ message.payloads, (payload.1 ≠ .null ∧ RawFree payload.1.tree) ∧
    payload.1.depth + payload.2 ≤ maxDepth

theorem RpcMessage.ofTree_toTree_iff {message : RpcMessage F} :
    ofTree j message.toTree = some message ↔
      ∀ payload ∈ message.payloads, payload.1 ≠ .null ∧ RawFree payload.1.tree := by
  cases message with
  | request r =>
    rw [ofTree_request, payloads, List.forall_mem_map]
    exact RpcRequest.ofTree_toTree_iff
  | response r =>
    rw [ofTree_response, toTree, and_iff_right r.not_request, payloads, List.forall_mem_append,
      List.forall_mem_map, List.forall_mem_map]
    exact RpcResponse.ofTree_toTree_iff
  | notification n =>
    rw [ofTree_notification, toTree, and_iff_right n.not_request, and_iff_right n.not_response,
      payloads, List.forall_mem_map]
    exact RpcNotification.ofTree_toTree_iff

/-! ## The trees of messages -/

theorem depth_structTree_le {slots : List (String × Option (Json.Tree F))} {limit : Nat} :
    (structTree slots).depth ≤ limit + 1 ↔
      ∀ slot ∈ slots, ∀ tree ∈ slot.2.toList, tree.depth ≤ limit := by
  unfold structTree
  rw [Json.Tree.depth, Nat.add_le_add_iff_right]
  induction slots with
  | nil => exact iff_of_true (Nat.zero_le _) fun _ member => absurd member List.not_mem_nil
  | cons slot slots ih =>
    obtain ⟨key, value⟩ := slot
    rw [List.forall_mem_cons]
    cases value with
    | none =>
      rw [List.filterMap_cons_none rfl, ih]
      exact (and_iff_right fun _ member => absurd member List.not_mem_nil).symm
    | some value =>
      simp only [List.filterMap_cons, Option.map_some]
      rw [Json.Tree.depthMembers, Nat.max_le, ih, Option.toList_some, List.forall_mem_singleton]

theorem integral_structTree {slots : List (String × Option (Json.Tree F))}
    (integral : ∀ slot ∈ slots, ∀ tree ∈ slot.2.toList, tree.Integral) :
    (structTree slots).Integral := by
  refine Json.Tree.integral_obj.mpr fun entry member => ?_
  obtain ⟨slot, listed, made⟩ := List.mem_filterMap.mp member
  obtain ⟨tree, found, rfl⟩ := Option.map_eq_some_iff.mp made
  exact integral slot listed tree (Option.mem_toList.mpr found)

theorem RpcId.depth_toTree (id : RpcId) : (id.toTree : Json.Tree F).depth = 0 := by cases id <;> rfl

theorem depth_leaf_le {leaf : Json.Tree F} {limit : Nat} (flat : leaf.depth = 0) :
    ∀ tree ∈ (some leaf).toList, tree.depth ≤ limit := by
  rw [Option.toList_some, List.forall_mem_singleton, flat]
  exact Nat.zero_le limit

theorem depth_value_le {value : Option (Value F)} {limit : Nat} :
    (∀ tree ∈ (value.map Value.tree).toList, tree.depth ≤ limit) ↔
      ∀ present ∈ value.toList, present.depth ≤ limit := by
  rw [Option.toList_map, List.forall_mem_map]
  rfl

theorem forall_slot_nil {P : String × Option (Json.Tree F) → Prop} : ∀ slot ∈ [], P slot :=
  fun _ member => absurd member List.not_mem_nil

theorem RpcError.depth_le_iff {e : RpcError F} {limit : Nat} :
    e.toTree.depth ≤ limit + 1 ↔ ∀ value ∈ e.data.toList, value.depth ≤ limit := by
  have code : (int64Tree e.code : Json.Tree F).depth = 0 := rfl
  have message : (.str e.message : Json.Tree F).depth = 0 := rfl
  rw [toTree, depth_structTree_le, slots, List.forall_mem_cons, List.forall_mem_cons,
    List.forall_mem_cons, depth_value_le, and_iff_right (depth_leaf_le code),
    and_iff_right (depth_leaf_le message), and_iff_left forall_slot_nil]

theorem depth_payloads_le {values : List (Value F)} {levels limit : Nat} :
    (∀ payload ∈ values.map (·, levels), payload.1.depth + payload.2 ≤ limit + levels) ↔
      ∀ value ∈ values, value.depth ≤ limit := by
  simp only [List.forall_mem_map, Nat.add_le_add_iff_right]

theorem RpcMessage.depth_le_iff {message : RpcMessage F} :
    message.toTree.depth ≤ maxDepth ↔
      ∀ payload ∈ message.payloads, payload.1.depth + payload.2 ≤ maxDepth := by
  have one : maxDepth = 126 + 1 := rfl
  have version (v : JsonRpcVersion) : (v.toTree : Json.Tree F).depth = 0 := rfl
  cases message with
  | request r =>
    have method : (.str r.method : Json.Tree F).depth = 0 := rfl
    rw [toTree, RpcRequest.toTree, one, depth_structTree_le, RpcRequest.slots, payloads,
      depth_payloads_le, List.forall_mem_cons, List.forall_mem_cons, List.forall_mem_cons,
      List.forall_mem_cons, depth_value_le, and_iff_right (depth_leaf_le (version _)),
      and_iff_right (depth_leaf_le method), and_iff_left forall_slot_nil,
      and_iff_left (depth_leaf_le r.id.depth_toTree)]
  | response r =>
    have two : maxDepth = 125 + 2 := rfl
    -- An error is one level down, and what it carries another.
    have error : (∀ tree ∈ (r.error.map RpcError.toTree).toList, tree.depth ≤ 126) ↔
        ∀ value ∈ (r.error.bind RpcError.data).toList, value.depth ≤ 125 := by
      rw [Option.toList_map, List.forall_mem_map]
      cases r.error with
      | none =>
        constructor
        · intro _ value member
          exact absurd member List.not_mem_nil
        · intro _ e member
          exact absurd member List.not_mem_nil
      | some e => rw [Option.toList_some, List.forall_mem_singleton, e.depth_le_iff, Option.bind_some]
    rw [toTree, RpcResponse.toTree, payloads, List.forall_mem_append, two, depth_payloads_le, ← two,
      one, depth_payloads_le, depth_structTree_le, RpcResponse.slots, List.forall_mem_cons,
      List.forall_mem_cons, List.forall_mem_cons, List.forall_mem_cons, depth_value_le, error,
      and_iff_right (depth_leaf_le (version _)), and_iff_left forall_slot_nil,
      and_iff_left (depth_leaf_le r.id.depth_toTree)]
  | notification n =>
    have method : (.str n.method : Json.Tree F).depth = 0 := rfl
    rw [toTree, RpcNotification.toTree, one, depth_structTree_le, RpcNotification.slots, payloads,
      depth_payloads_le, List.forall_mem_cons, List.forall_mem_cons, List.forall_mem_cons,
      depth_value_le, and_iff_right (depth_leaf_le (version _)),
      and_iff_right (depth_leaf_le method), and_iff_left forall_slot_nil]

theorem integral_str (s : String) : (Json.Tree.str s : Json.Tree F).Integral := Json.Tree.integral_leaf rfl nofun

theorem integral_int64Tree (n : Int64) : (int64Tree n : Json.Tree F).Integral :=
  Json.Tree.integral_leaf rfl nofun

theorem RpcId.integral_toTree (id : RpcId) : (id.toTree : Json.Tree F).Integral := by
  cases id with
  | num n => exact integral_int64Tree n
  | str s => exact integral_str s

theorem integral_some {tree : Json.Tree F} (integral : tree.Integral) :
    ∀ present ∈ (some tree).toList, present.Integral := by
  rw [Option.toList_some, List.forall_mem_singleton]
  exact integral

theorem integral_value {value : Option (Value F)}
    (integral : ∀ present ∈ value.toList, present.tree.Integral) :
    ∀ tree ∈ (value.map Value.tree).toList, tree.Integral := by
  rw [Option.toList_map, List.forall_mem_map]
  exact integral

theorem RpcError.integral_toTree {e : RpcError F}
    (integral : ∀ present ∈ e.data.toList, present.tree.Integral) : e.toTree.Integral := by
  apply integral_structTree
  rw [slots, List.forall_mem_cons, List.forall_mem_cons, List.forall_mem_cons]
  exact ⟨integral_some (integral_int64Tree e.code), integral_some (integral_str e.message),
    integral_value integral, forall_slot_nil⟩

theorem RpcMessage.integral_toTree {message : RpcMessage F} (integral : message.Integral) :
    message.toTree.Integral := by
  unfold Integral at integral
  cases message with
  | request r =>
    rw [payloads, List.forall_mem_map] at integral
    apply integral_structTree
    rw [RpcRequest.slots, List.forall_mem_cons, List.forall_mem_cons, List.forall_mem_cons,
      List.forall_mem_cons]
    exact ⟨integral_some (integral_str _), integral_some (integral_str _), integral_value integral,
      integral_some r.id.integral_toTree, forall_slot_nil⟩
  | response r =>
    rw [payloads, List.forall_mem_append, List.forall_mem_map, List.forall_mem_map] at integral
    obtain ⟨result, data⟩ := integral
    have error : ∀ tree ∈ (r.error.map RpcError.toTree).toList, tree.Integral := by
      rw [Option.toList_map, List.forall_mem_map]
      intro e member
      rw [Option.mem_toList.mp member, Option.bind_some] at data
      exact e.integral_toTree data
    apply integral_structTree
    rw [RpcResponse.slots, List.forall_mem_cons, List.forall_mem_cons, List.forall_mem_cons,
      List.forall_mem_cons]
    exact ⟨integral_some (integral_str _), integral_value result, error,
      integral_some r.id.integral_toTree, forall_slot_nil⟩
  | notification n =>
    rw [payloads, List.forall_mem_map] at integral
    apply integral_structTree
    rw [RpcNotification.slots, List.forall_mem_cons, List.forall_mem_cons, List.forall_mem_cons]
    exact ⟨integral_some (integral_str _), integral_some (integral_str _), integral_value integral,
      forall_slot_nil⟩

theorem RpcMessage.fromSlice_toVec (lawful : j.Lawful) {message : RpcMessage F}
    (integral : message.Integral) : fromSlice j (message.toVec j) =
      if message.toTree.depth ≤ maxDepth then ofTree j message.toTree else none := by
  rw [fromSlice, toVec, lawful.read_write (integral_toTree integral)]
  split <;> rfl

theorem RpcMessage.fromSlice_readable (lawful : j.Lawful) {message : RpcMessage F}
    (integral : message.Integral) (readable : message.Readable) :
    fromSlice j (message.toVec j) = some message := by
  have shallow := depth_le_iff.mpr fun payload member => (readable payload member).2
  have same := ofTree_toTree_iff (j := j).mpr fun payload member => (readable payload member).1
  rw [fromSlice_toVec lawful integral, if_pos shallow, same]

end

/-- A message is read back as it was written exactly when no value it carries is
`null` or holds a mark of raw values, and none is nested too deep. -/
theorem rpc_round_trip_iff (lawful : j.Lawful) (message : RpcMessage F)
    (integral : message.Integral) :
    RpcMessage.fromSlice j (message.toVec j) = some message ↔ message.Readable := by
  have both : message.Readable ↔ (∀ payload ∈ message.payloads,
      payload.1 ≠ .null ∧ RawFree payload.1.tree) ∧
      ∀ payload ∈ message.payloads, payload.1.depth + payload.2 ≤ maxDepth := forall₂_and
  rw [RpcMessage.fromSlice_toVec lawful integral, both, ← RpcMessage.ofTree_toTree_iff (j := j),
    ← RpcMessage.depth_le_iff]
  split
  · next shallow => simp [shallow]
  · next deep => simp [deep]

namespace Reference

def engineParams : Value Empty where
  tree := .obj [("engine", .str "ollama")]
  ordered := ⟨List.pairwise_singleton _ _, trivial, trivial⟩

def engineRequest : RpcMessage Empty :=
  .request { method := "engines.start", params := some engineParams, id := .num 1 }

theorem engineRequest_payloads : engineRequest.payloads = [(engineParams, 1)] := rfl

theorem engineRequest_integral : engineRequest.Integral := by
  unfold RpcMessage.Integral
  rw [engineRequest_payloads, List.forall_mem_singleton]
  exact Json.Tree.integral_obj.mpr (List.forall_mem_singleton.mpr (integral_str "ollama"))

theorem engineRequest_readable : engineRequest.Readable := by
  unfold RpcMessage.Readable
  rw [engineRequest_payloads, List.forall_mem_singleton]
  refine ⟨⟨fun null => ?_, rawFree_obj.mpr ⟨by decide, ?_⟩⟩, ?_⟩
  · cases congrArg Value.tree null
  · exact List.forall_mem_singleton.mpr (rawFree_iff.mpr (rawTexts_leaf rfl))
  · have depth : engineParams.depth = 1 := rfl
    rw [depth]
    decide

def nullResponse : RpcMessage Empty :=
  .response { result := some .null, error := none, id := .num 1 }

end Reference

theorem rpc_round_trip_reference :
    RpcMessage.fromSlice Reference.jsonCrate
        (Reference.engineRequest.toVec Reference.jsonCrate) = some Reference.engineRequest :=
  (rpc_round_trip_iff _ Reference.jsonCrate_lawful _ Reference.engineRequest_integral).mpr
    Reference.engineRequest_readable

/-- A response whose result is `null` is read back as one without a result. -/
theorem null_result_lost :
    ¬ RpcMessage.fromSlice Reference.jsonCrate
        (Reference.nullResponse.toVec Reference.jsonCrate) = some Reference.nullResponse := by
  have payloads : Reference.nullResponse.payloads = [(.null, 1)] := rfl
  have integral : Reference.nullResponse.Integral := by
    unfold RpcMessage.Integral
    rw [payloads, List.forall_mem_singleton]
    exact Json.Tree.integral_leaf rfl nofun
  have shallow : Reference.nullResponse.toTree.depth ≤ maxDepth := by decide
  rw [RpcMessage.fromSlice_toVec Reference.jsonCrate_lawful integral, if_pos shallow,
    RpcMessage.ofTree_toTree_iff, payloads, List.forall_mem_singleton]
  exact fun kept => kept.1 rfl

/-! ## A stream of messages -/

inductive MessageError where
  | frame (e : FrameError)
  | decode
  deriving DecidableEq

def writeMessage (framing : Framing) (message : RpcMessage F) : Bytes :=
  framing.encode (message.toVec j)

def readMessage (framing : Framing) (r : Reader) :
    Except MessageError (Option (RpcMessage F)) × Reader :=
  match framing.readFrame r with
  | (.error e, r) => (.error (.frame e), r)
  | (.ok none, r) => (.ok none, r)
  | (.ok (some bytes), r) =>
    match RpcMessage.fromSlice j bytes with
    | none => (.error .decode, r)
    | some message => (.ok (some message), r)

-- `read_message` so many times.
def readMessages (framing : Framing) :
    Nat → Reader → List (Except MessageError (Option (RpcMessage F)))
  | 0, _ => []
  | n + 1, r => (readMessage j framing r).1 :: readMessages framing n (readMessage j framing r).2

/-- Messages that were written are read in order, however they arrive, and from
then on nothing. -/
theorem messages_round_trip (lawful : j.Lawful) (framing : Framing)
    (messages : List (RpcMessage F)) (integral : ∀ message ∈ messages, message.Integral)
    (readable : ∀ message ∈ messages, message.Readable)
    (bodies : ∀ message ∈ messages, Body (message.toVec j)) (r : Reader)
    (held : r.bytes = (messages.map (writeMessage j framing)).flatten) (more : Nat) :
    readMessages j framing (messages.length + more) r =
      messages.map (fun message => .ok (some message)) ++ List.replicate more (.ok none) := by
  induction messages generalizing r with
  | nil =>
    rw [List.length_nil, Nat.zero_add]
    -- After the last message each further read finds the end.
    induction more generalizing r with
    | zero => rfl
    | succ more ih =>
      obtain ⟨nothing, left⟩ := framing.readFrame_end held
      have step : readMessage j framing r = (.ok none, (framing.readFrame r).2) := by
        unfold readMessage
        generalize framing.readFrame r = frame at nothing
        obtain ⟨got, r'⟩ := frame
        cases nothing
        rfl
      rw [readMessages, step, ih _ left]
      rfl
  | cons message rest ih =>
    rw [List.map_cons, List.flatten_cons] at held
    obtain ⟨first, left⟩ := framing.readFrame_append (bodies message List.mem_cons_self) held
    have decoded := RpcMessage.fromSlice_readable lawful (integral message List.mem_cons_self)
      (readable message List.mem_cons_self)
    have step : readMessage j framing r = (.ok (some message), (framing.readFrame r).2) := by
      unfold readMessage
      generalize framing.readFrame r = frame at first
      obtain ⟨got, r'⟩ := frame
      cases first
      simp only [decoded]
    have succ : (message :: rest).length + more = rest.length + more + 1 := by
      rw [List.length_cons]
      omega
    have later := ih (fun other member => integral other (List.mem_cons_of_mem _ member))
      (fun other member => readable other (List.mem_cons_of_mem _ member))
      (fun other member => bodies other (List.mem_cons_of_mem _ member)) _ left
    rw [succ, readMessages, step, later]
    rfl

namespace Reference

theorem engineRequest_body : Body (engineRequest.toVec jsonCrate) := by
  constructor <;> decide

def requestsReader : Reader where
  chunks := [(([engineRequest, engineRequest].map
    (writeMessage jsonCrate .contentLength)).flatten)]
  nonempty := by decide

end Reference

theorem messages_round_trip_reference :
    readMessages Reference.jsonCrate .contentLength 3 Reference.requestsReader =
      [.ok (some Reference.engineRequest), .ok (some Reference.engineRequest), .ok none] := by
  refine messages_round_trip _ Reference.jsonCrate_lawful .contentLength
    [Reference.engineRequest, Reference.engineRequest] ?_ ?_ ?_ Reference.requestsReader ?_ 1
  · simp [Reference.engineRequest_integral]
  · simp [Reference.engineRequest_readable]
  · simp [Reference.engineRequest_body]
  · exact List.append_nil _

end OpenPair
