import OpenPair.Rpc.Messages

/-! How a message is told by its shape (`jsonrpc.rs`): a request, else a response,
else a notification, whatever members there are, of whatever types and however
often.
-/

set_option autoImplicit false

namespace OpenPair

open Json

namespace Shape

variable {F : Type}

/-! ## Members -/

def values (members : List (String × Json.Tree F)) (name : String) : List (Json.Tree F) :=
  (members.filter fun member => member.1 = name).map Prod.snd

/-- A name is there once, with a value of this kind. -/
def Once (members : List (String × Json.Tree F)) (name : String) (P : Json.Tree F → Prop) : Prop :=
  ∃ value, values members name = [value] ∧ P value

/-- A name is there, with a value of this kind. -/
def Has (members : List (String × Json.Tree F)) (name : String) (P : Json.Tree F → Prop) : Prop :=
  ∃ value ∈ values members name, P value

def Single (members : List (String × Json.Tree F)) (name : String) : Prop :=
  (values members name).length ≤ 1

variable {members : List (String × Json.Tree F)} {tree : Json.Tree F} {j : JsonCrate F}

theorem Once.has {name : String} {P : Json.Tree F → Prop} (once : Once members name P) :
    Has members name P := by
  obtain ⟨value, only, holds⟩ := once
  exact ⟨value, by rw [only]; exact List.mem_singleton_self value, holds⟩

theorem Once.ne_nil {name : String} {P : Json.Tree F → Prop} (once : Once members name P) :
    values members name ≠ [] := by
  obtain ⟨value, only, -⟩ := once
  rw [only]
  exact List.cons_ne_nil _ _

theorem field?_eq_some {name : String} {value : Option (Json.Tree F)} :
    field? members name = some value ↔ values members name = value.toList := by
  unfold field? values
  generalize (members.filter fun member => member.1 = name) = named
  rcases named with _ | ⟨first, _ | ⟨second, rest⟩⟩ <;> cases value <;> simp

theorem exists_field? {name : String} :
    (∃ value, field? members name = some value) ↔ Single members name := by
  simp only [field?_eq_some]
  unfold Single
  generalize values members name = named
  rcases named with _ | ⟨first, _ | ⟨second, rest⟩⟩
  · exact iff_of_true ⟨none, rfl⟩ (Nat.zero_le 1)
  · exact iff_of_true ⟨some first, rfl⟩ le_rfl
  · apply iff_of_false
    · rintro ⟨_ | value, wrong⟩ <;> cases wrong
    · simp

theorem structFields_obj {names : List String} {fields : List (Option (Json.Tree F))} :
    structFields names (.obj members) = some fields ↔
      names.map (field? members) = fields.map some := by
  unfold structFields
  dsimp only
  induction names generalizing fields with
  | nil => cases fields <;> simp
  | cons name names ih =>
    rw [List.mapM_cons, List.map_cons]
    cases fields with
    | nil => simp [Option.bind_eq_some_iff]
    | cons field fields =>
      rw [List.map_cons, List.cons.injEq, ← ih]
      simp [Option.bind_eq_some_iff]

/-! ## What each shape needs -/

theorem request_eq_some {r : RpcRequest F} : RpcRequest.ofTree j tree = some r ↔
    ∃ jsonrpc method params id, structFields ["jsonrpc", "method", "params", "id"] tree =
        some [some jsonrpc, some method, params, some id] ∧
      JsonRpcVersion.ofTree jsonrpc = some r.jsonrpc ∧ readString method = some r.method ∧
      readOption j.readValue params = some r.params ∧ RpcId.ofTree id = some r.id := by
  unfold RpcRequest.ofTree
  split
  · next jsonrpc method params id fields =>
    rw [fields]
    obtain ⟨v, m, p, i⟩ := r
    constructor
    · intro built
      simp only [Option.bind_eq_bind, Option.bind_eq_some_iff] at built
      obtain ⟨v', version, m', name, p', arguments, i', number, same⟩ := built
      cases same
      exact ⟨jsonrpc, method, params, id, rfl, version, name, arguments, number⟩
    · rintro ⟨_, _, _, _, same, version, name, arguments, number⟩
      cases same
      simp [version, name, arguments, number]
  · next other =>
    constructor
    · intro none
      cases none
    · rintro ⟨jsonrpc, method, params, id, fields, -⟩
      exact absurd fields (other jsonrpc method params id)

theorem notification_eq_some {n : RpcNotification F} : RpcNotification.ofTree j tree = some n ↔
    ∃ jsonrpc method params, structFields ["jsonrpc", "method", "params"] tree =
        some [some jsonrpc, some method, params] ∧
      JsonRpcVersion.ofTree jsonrpc = some n.jsonrpc ∧ readString method = some n.method ∧
      readOption j.readValue params = some n.params := by
  unfold RpcNotification.ofTree
  split
  · next jsonrpc method params fields =>
    rw [fields]
    obtain ⟨v, m, p⟩ := n
    constructor
    · intro built
      simp only [Option.bind_eq_bind, Option.bind_eq_some_iff] at built
      obtain ⟨v', version, m', name, p', arguments, same⟩ := built
      cases same
      exact ⟨jsonrpc, method, params, rfl, version, name, arguments⟩
    · rintro ⟨_, _, _, same, version, name, arguments⟩
      cases same
      simp [version, name, arguments]
  · next other =>
    constructor
    · intro none
      cases none
    · rintro ⟨jsonrpc, method, params, fields, -⟩
      exact absurd fields (other jsonrpc method params)

theorem id_of_response {r : RpcResponse F} (decoded : RpcResponse.ofTree j tree = some r) :
    ∃ jsonrpc result error id, structFields ["jsonrpc", "result", "error", "id"] tree =
        some [some jsonrpc, result, error, some id] ∧ RpcId.ofTree id = some r.id := by
  unfold RpcResponse.ofTree at decoded
  split at decoded
  · next jsonrpc result error id fields =>
    simp only [Option.bind_eq_bind, Option.bind_eq_some_iff] at decoded
    obtain ⟨v, -, p, -, e, -, i, number, same⟩ := decoded
    cases same
    exact ⟨jsonrpc, result, error, id, fields, number⟩
  · cases decoded

/-! ## Objects -/

def IsString : Json.Tree F → Prop
  | .str _ => True
  | _ => False

/-- An integer of 64 bits, signed or not, or a string. -/
def IsIntegerOrString : Json.Tree F → Prop
  | .num _ | .str _ => True
  | _ => False

def IsId : Json.Tree F → Prop
  | .num n => n.value < 2 ^ 63
  | .str _ => True
  | _ => False

def IsVersion (value : Json.Tree F) : Prop := value = .str "2.0"

theorem IsId.integer_or_string {value : Json.Tree F} (id : IsId value) : IsIntegerOrString value := by
  cases value with
  | num n => trivial
  | str s => trivial
  | null => cases id
  | bool b => cases id
  | float x => cases id
  | arr items => cases id
  | obj members => cases id

theorem version_eq_some {value : Json.Tree F} {v : JsonRpcVersion} :
    JsonRpcVersion.ofTree value = some v ↔ IsVersion value := by
  unfold JsonRpcVersion.ofTree IsVersion
  cases value <;> simp [readString]

theorem exists_readString {value : Json.Tree F} : (∃ s, readString value = some s) ↔ IsString value := by
  cases value <;> simp [readString, IsString]

theorem exists_id {value : Json.Tree F} : (∃ id, RpcId.ofTree value = some id) ↔ IsId value := by
  cases value with
  | num n =>
    rw [IsId, RpcId.ofTree, readInt64]
    by_cases fits : n.value < 2 ^ 63
    · rw [if_pos fits]
      exact iff_of_true ⟨_, rfl⟩ fits
    · rw [if_neg fits]
      refine iff_of_false ?_ fits
      rintro ⟨id, absent⟩
      cases absent
  | null | bool _ | float _ | str _ | arr _ | obj _ =>
    simp [RpcId.ofTree, readInt64, readString, IsId]

theorem exists_readOption {value : Option (Json.Tree F)} :
    (∃ read, readOption j.readValue value = some read) ↔
      ∀ present ∈ value.toList, j.Legible present := by
  cases value with
  | none => exact iff_of_true ⟨none, rfl⟩ fun _ member => absurd member List.not_mem_nil
  | some value =>
    rw [Option.toList_some, List.forall_mem_singleton]
    by_cases null : value = .null
    · subst null
      exact iff_of_true ⟨none, rfl⟩ (rawTexts_leaf rfl)
    · rw [readOption_some null, ← j.readValue_isSome, ← Option.isSome_iff_exists,
        Option.isSome_map]

/-- Parameters can be read: there once at most, and what marks the text of a value
in them is one. -/
def Arguments (j : JsonCrate F) (members : List (String × Json.Tree F)) : Prop :=
  Single members "params" ∧ ∀ value ∈ values members "params", j.Legible value

theorem exists_arguments : (∃ params, field? members "params" = some params ∧
      ∃ read, readOption j.readValue params = some read) ↔ Arguments j members := by
  simp only [exists_readOption, Arguments, ← exists_field?, field?_eq_some]
  constructor
  · rintro ⟨params, found, legible⟩
    exact ⟨⟨params, found⟩, found ▸ legible⟩
  · rintro ⟨⟨params, found⟩, legible⟩
    exact ⟨params, found, found ▸ legible⟩

theorem exists_request : (∃ r, RpcRequest.ofTree j (.obj members) = some r) ↔
    Once members "jsonrpc" IsVersion ∧ Once members "method" IsString ∧
      Arguments j members ∧ Once members "id" IsId := by
  simp only [request_eq_some, structFields_obj, List.map_cons, List.map_nil, List.cons.injEq,
    and_true, field?_eq_some, Option.toList_some, ← exists_arguments]
  constructor
  · rintro ⟨r, jsonrpc, method, params, id, ⟨v, m, p, i⟩, version, name, arguments, number⟩
    exact ⟨⟨jsonrpc, v, version_eq_some.mp version⟩, ⟨method, m, exists_readString.mp ⟨_, name⟩⟩,
      ⟨params, p, _, arguments⟩, ⟨id, i, exists_id.mp ⟨_, number⟩⟩⟩
  · rintro ⟨⟨jsonrpc, v, version⟩, ⟨method, m, name⟩, ⟨params, p, read, arguments⟩,
      ⟨id, i, number⟩⟩
    obtain ⟨text, name⟩ := exists_readString.mpr name
    obtain ⟨number, isNumber⟩ := exists_id.mpr number
    exact ⟨⟨{}, text, read, number⟩, jsonrpc, method, params, id, ⟨v, m, p, i⟩,
      version_eq_some.mpr version, name, arguments, isNumber⟩

theorem exists_notification : (∃ n, RpcNotification.ofTree j (.obj members) = some n) ↔
    Once members "jsonrpc" IsVersion ∧ Once members "method" IsString ∧ Arguments j members := by
  simp only [notification_eq_some, structFields_obj, List.map_cons, List.map_nil,
    List.cons.injEq, and_true, field?_eq_some, Option.toList_some, ← exists_arguments]
  constructor
  · rintro ⟨n, jsonrpc, method, params, ⟨v, m, p⟩, version, name, arguments⟩
    exact ⟨⟨jsonrpc, v, version_eq_some.mp version⟩, ⟨method, m, exists_readString.mp ⟨_, name⟩⟩,
      ⟨params, p, _, arguments⟩⟩
  · rintro ⟨⟨jsonrpc, v, version⟩, ⟨method, m, name⟩, ⟨params, p, read, arguments⟩⟩
    obtain ⟨text, name⟩ := exists_readString.mpr name
    exact ⟨⟨{}, text, read⟩, jsonrpc, method, params, ⟨v, m, p⟩, version_eq_some.mpr version, name,
      arguments⟩

theorem once_id_of_response {r : RpcResponse F}
    (decoded : RpcResponse.ofTree j (.obj members) = some r) : Once members "id" IsId := by
  obtain ⟨jsonrpc, result, error, id, fields, number⟩ := id_of_response decoded
  simp only [structFields_obj, List.map_cons, List.map_nil, List.cons.injEq, field?_eq_some,
    Option.toList_some] at fields
  exact ⟨id, fields.2.2.2.1, exists_id.mp ⟨_, number⟩⟩

/-! ## Shapes -/

/-- A request has a method and an id, a notification a method and no id member,
and a response an id and no method. -/
structure Classified (members : List (String × Json.Tree F)) (decoded : Option (RpcMessage F)) :
    Prop where
  request : (∃ r, decoded = some (.request r)) ↔
    Has members "method" IsString ∧ Has members "id" IsIntegerOrString
  notification : (∃ n, decoded = some (.notification n)) ↔
    Has members "method" IsString ∧ values members "id" = []
  response : (∃ r, decoded = some (.response r)) →
    Has members "id" IsIntegerOrString ∧ ¬ Has members "method" IsString

/-- The members of a call: a method once, and parameters that can be read; and the
object is not nested too deep. -/
def IsCall (j : JsonCrate F) (members : List (String × Json.Tree F)) : Prop :=
  (Json.Tree.obj members).depth ≤ maxDepth ∧ Once members "method" IsString ∧ Arguments j members

/-- The id of a call is absent, or a string or `i64` and there once; of what has a
method but is no call, it is there and neither string nor integer. -/
def Usable (j : JsonCrate F) (members : List (String × Json.Tree F)) : Prop :=
  Has members "method" IsString →
    (IsCall j members ∧ (values members "id" = [] ∨ Once members "id" IsId)) ∨
      (¬ IsCall j members ∧ values members "id" ≠ [] ∧ ¬ Has members "id" IsIntegerOrString)

theorem Once.has_id (once : Once members "id" IsId) : Has members "id" IsIntegerOrString := by
  obtain ⟨value, member, id⟩ := once.has
  exact ⟨value, member, id.integer_or_string⟩

/-- What an object of version 2.0 is decoded as, by its members. -/
theorem decoded_iff {bytes : Bytes} (parsed : j.parse bytes = some (.obj members))
    (version : values members "jsonrpc" = [.str "2.0"]) :
    ((∃ r, RpcMessage.fromSlice j bytes = some (.request r)) ↔
      IsCall j members ∧ Once members "id" IsId) ∧
    ((∃ n, RpcMessage.fromSlice j bytes = some (.notification n)) ↔
      IsCall j members ∧ ¬ Once members "id" IsId) ∧
    ((∃ r, RpcMessage.fromSlice j bytes = some (.response r)) →
      Once members "id" IsId ∧ ¬ IsCall j members) := by
  by_cases shallow : (Json.Tree.obj members).depth ≤ maxDepth
  · have read : RpcMessage.fromSlice j bytes = RpcMessage.ofTree j (.obj members) := by
      rw [RpcMessage.fromSlice, JsonCrate.read_eq_some_iff.mpr ⟨parsed, shallow⟩, Option.bind_some]
    have versioned : Once members "jsonrpc" IsVersion := ⟨_, version, rfl⟩
    have request : (∃ r, RpcRequest.ofTree j (.obj members) = some r) ↔
        IsCall j members ∧ Once members "id" IsId := by
      rw [exists_request, IsCall, and_iff_right versioned, and_iff_right shallow, and_assoc]
    have refused : RpcRequest.ofTree j (.obj members) = none ↔
        ¬ (IsCall j members ∧ Once members "id" IsId) := by
      rw [← request, Option.eq_none_iff_forall_ne_some]
      exact not_exists.symm
    have notification : (∃ n, RpcNotification.ofTree j (.obj members) = some n) ↔
        IsCall j members := by
      rw [exists_notification, IsCall, and_iff_right versioned, and_iff_right shallow]
    simp only [read, RpcMessage.ofTree_request, RpcMessage.ofTree_response,
      RpcMessage.ofTree_notification, exists_and_left, request, refused, notification]
    refine ⟨trivial, ⟨?_, ?_⟩, ?_⟩
    · rintro ⟨noRequest, -, call⟩
      exact ⟨call, fun id => noRequest ⟨call, id⟩⟩
    · rintro ⟨call, noId⟩
      refine ⟨fun both => noId both.2, ?_, call⟩
      rw [Option.eq_none_iff_forall_ne_some]
      exact fun r decoded => noId (once_id_of_response decoded)
    · rintro ⟨noRequest, r, decoded⟩
      have id := once_id_of_response decoded
      exact ⟨id, fun call => noRequest ⟨call, id⟩⟩
  · -- What is nested too deep is not decoded at all.
    have refused : RpcMessage.fromSlice j bytes = none := by
      rw [RpcMessage.fromSlice, JsonCrate.read, parsed, Option.filter_some]
      simp [shallow]
    have noCall : ¬ IsCall j members := fun call => shallow call.1
    simp [refused, noCall]

/-- Every object of version 2.0 is taken for what its members say exactly when the
id of a call, where there is one, can be read. -/
theorem classified_iff (j : JsonCrate F) {bytes : Bytes} {members : List (String × Json.Tree F)}
    (parsed : j.parse bytes = some (.obj members))
    (version : values members "jsonrpc" = [.str "2.0"]) :
    Classified members (RpcMessage.fromSlice j bytes) ↔ Usable j members := by
  obtain ⟨request, notification, response⟩ := decoded_iff parsed version
  have named (call : IsCall j members) : Has members "method" IsString := call.2.1.has
  constructor
  · rintro ⟨asRequest, asNotification, -⟩ method
    -- What the decoder answers leaves only these two kinds of objects with a method.
    by_cases call : IsCall j members
    · refine .inl ⟨call, ?_⟩
      by_cases id : Once members "id" IsId
      · exact .inr id
      · exact .inl (asNotification.mp (notification.mpr ⟨call, id⟩)).2
    · refine .inr ⟨call, fun absent => ?_, fun id => ?_⟩
      · exact call (notification.mp (asNotification.mpr ⟨method, absent⟩)).1
      · exact call (request.mp (asRequest.mpr ⟨method, id⟩)).1
  · intro usable
    refine ⟨?_, ?_, ?_⟩
    · rw [request]
      constructor
      · rintro ⟨call, id⟩
        exact ⟨named call, id.has_id⟩
      · rintro ⟨method, id⟩
        rcases usable method with ⟨call, absent | once⟩ | ⟨-, -, noId⟩
        · obtain ⟨value, member, -⟩ := id
          rw [absent] at member
          cases member
        · exact ⟨call, once⟩
        · exact absurd id noId
    · rw [notification]
      constructor
      · rintro ⟨call, noId⟩
        rcases usable (named call) with ⟨-, absent | once⟩ | ⟨noCall, -⟩
        · exact ⟨named call, absent⟩
        · exact absurd once noId
        · exact absurd call noCall
      · rintro ⟨method, absent⟩
        rcases usable method with ⟨call, -⟩ | ⟨-, present, -⟩
        · exact ⟨call, fun once => once.ne_nil absent⟩
        · exact absurd absent present
    · intro decoded
      obtain ⟨id, noCall⟩ := response decoded
      refine ⟨id.has_id, fun method => ?_⟩
      rcases usable method with ⟨call, -⟩ | ⟨-, -, noId⟩
      · exact noCall call
      · exact noId id.has_id

namespace Reference

open OpenPair.Reference (jsonCrate jsonCrate_lawful)

def startCall : List (String × Json.Tree Empty) :=
  [("jsonrpc", .str "2.0"), ("method", .str "engines.start"), ("id", .num ⟨1, by decide, by decide⟩)]

def nullCall : List (String × Json.Tree Empty) :=
  [("jsonrpc", .str "2.0"), ("method", .str "engines.start"), ("id", .null)]

theorem parse_obj (members : List (String × Json.Tree Empty)) :
    jsonCrate.parse (jsonCrate.write (.obj members)) = some (.obj members) :=
  jsonCrate_lawful.parse_write (Json.Tree.integral_empty _)

end Reference

theorem classified_iff_start : Classified Reference.startCall (RpcMessage.fromSlice
    OpenPair.Reference.jsonCrate (OpenPair.Reference.jsonCrate.write (.obj Reference.startCall))) := by
  refine (classified_iff _ (Reference.parse_obj _) rfl).mpr fun _ =>
    .inl ⟨⟨by decide, ⟨_, rfl, trivial⟩, Nat.zero_le 1, ?_⟩,
      .inr ⟨_, rfl, (by decide : (1 : Int) < 2 ^ 63)⟩⟩
  exact fun value member => absurd member List.not_mem_nil

theorem null_call_misread : RpcMessage.fromSlice OpenPair.Reference.jsonCrate
      (OpenPair.Reference.jsonCrate.write (.obj Reference.nullCall)) =
        some (.notification ⟨{}, "engines.start", none⟩) ∧
    ¬ Classified Reference.nullCall (RpcMessage.fromSlice OpenPair.Reference.jsonCrate
      (OpenPair.Reference.jsonCrate.write (.obj Reference.nullCall))) := by
  have read : RpcMessage.fromSlice OpenPair.Reference.jsonCrate
      (OpenPair.Reference.jsonCrate.write (.obj Reference.nullCall)) =
        some (.notification ⟨{}, "engines.start", none⟩) := by
    have shallow : (Json.Tree.obj Reference.nullCall).depth ≤ maxDepth := by decide
    rw [RpcMessage.fromSlice,
      JsonCrate.read_eq_some_iff.mpr ⟨Reference.parse_obj _, shallow⟩]
    rfl
  refine ⟨read, fun classified => ?_⟩
  obtain ⟨-, absent⟩ := classified.notification.mp ⟨_, read⟩
  cases absent

end Shape

end OpenPair
