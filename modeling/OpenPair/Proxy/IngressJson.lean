import OpenPair.Codec
import OpenPair.Proxy.Forwarding

/-! The JSON of an ingress envelope (`ingress.rs`) and of a request's model
(`model.rs`), by `serde_json`.
-/

set_option autoImplicit false

namespace OpenPair

variable {F : Type}

namespace IngressEnvelope

def fieldNames : List String := ["host", "port", "path", "method", "name", "data", "txt", "code"]

def fields (env : IngressEnvelope) : List (Option (Json.Tree F)) :=
  [Codec.string.optional env.host, Codec.u16.optional env.port, Codec.string.optional env.path,
    Codec.string.optional env.method, Codec.string.optional env.name,
    Codec.string.optional env.data, Codec.string.optional env.txt, Codec.u16.optional env.code]

def ofFields : List (Option (Json.Tree F)) → Option IngressEnvelope
  | [host, port, path, method, name, data, txt, code] => do
    return { host := ← readOption Codec.string.ofTree host
             port := ← readOption Codec.u16.ofTree port
             path := ← readOption Codec.string.ofTree path
             method := ← readOption Codec.string.ofTree method
             name := ← readOption Codec.string.ofTree name
             data := ← readOption Codec.string.ofTree data
             txt := ← readOption Codec.string.ofTree txt
             code := ← readOption Codec.u16.ofTree code }
  | _ => none

theorem ofFields_fields (env : IngressEnvelope) : ofFields (env.fields (F := F)) = some env := by
  have text (s : Option String) : s.map (Codec.string (F := F)).readBack = s := Option.map_id'
  have number (n : Option UInt16) : n.map (Codec.u16 (F := F)).readBack = n := Option.map_id'
  simp [ofFields, fields, text, number]

theorem integral_fields (env : IngressEnvelope) :
    ∀ field ∈ env.fields (F := F), Codec.Integral field := by
  simp [fields]

def codec : Codec F IngressEnvelope :=
  .struct fieldNames fields ofFields id (by decide) (fun _ => rfl) ofFields_fields integral_fields

end IngressEnvelope

/-! ## The model of a request -/

def modelOf : Json.Tree F → Option String
  | .obj members => (members.lookup "model").bind readString
  | _ => none

def extractModel (j : JsonCrate F) (body : Bytes) : Option String :=
  (j.value body).bind fun value => modelOf value.tree

def modelValue (model : String) : Json.Value F :=
  ⟨.obj [("model", .str model)], List.pairwise_singleton _ _, trivial, trivial⟩

theorem extractModel_modelValue {j : JsonCrate F} (lawful : j.Lawful) (model : String) :
    extractModel j (j.write (modelValue model).tree) = some model := by
  have integral : (modelValue model : Json.Value F).tree.Integral :=
    Json.Tree.integral_obj.mpr (List.forall_mem_singleton.mpr (integral_str model))
  have free : RawFree (modelValue model : Json.Value F).tree := by
    refine rawFree_obj.mpr ⟨?_, List.forall_mem_singleton.mpr (rawFree_iff.mpr (rawTexts_leaf rfl))⟩
    rw [isRaw_cons]
    decide
  have shallow : (modelValue model : Json.Value F).tree.depth ≤ maxDepth := by
    have depth : (modelValue model : Json.Value F).tree.depth = 1 := rfl
    rw [depth]
    decide
  rw [extractModel, j.value_write lawful integral shallow free, Option.bind_some, modelValue,
    modelOf, List.lookup_cons_self]
  rfl

/-! ## The crates -/

theorem eq_utf8_of_decodeUtf8 {bytes : Bytes} {s : String} (decoded : decodeUtf8 bytes = some s) :
    bytes = utf8 s := by
  unfold decodeUtf8 String.fromUTF8? at decoded
  split at decoded
  · cases decoded
    rfl
  · cases decoded

/-- The crates of the proxy, by `serde_json` and the texts of the statuses. -/
def serdeCrates (j : JsonCrate F) (statusText : UInt16 → String) : ProxyCrates where
  encodeEnvelope := IngressEnvelope.codec.toVec j
  decodeEnvelope body :=
    match IngressEnvelope.codec.fromSlice j body with
    | some env => .ok env
    | none => .error "bad envelope"
  extractModel := extractModel j
  statusText := statusText

theorem serdeCrates_extractModel (j : JsonCrate F) (statusText : UInt16 → String) :
    (serdeCrates j statusText).extractModel = extractModel j := rfl

/-- An envelope is read as it was written, whichever of its fields it has, and what
names a model is text. -/
theorem serdeCrates_lawful {j : JsonCrate F} (lawful : j.Lawful)
    (text : ∀ bytes tree, j.parse bytes = some tree → ∃ text, bytes = utf8 text)
    (statusText : UInt16 → String) : (serdeCrates j statusText).Lawful where
  envelope env := by
    have read := IngressEnvelope.codec.fromSlice_toVec lawful env
    simp only [serdeCrates, read]
    rfl
  json named := by
    obtain ⟨value, read, -⟩ := Option.bind_eq_some_iff.mp named
    obtain ⟨tree, read, -⟩ := Option.bind_eq_some_iff.mp read
    exact text _ tree (JsonCrate.read_eq_some_iff.mp read).1

namespace Reference

-- Unfolded nowhere but in the kernel: what it reads are whole texts.
@[irreducible] def proxyCrates : ProxyCrates := serdeCrates jsonCrate fun code => toString code

theorem proxyLawful : proxyCrates.Lawful := by
  unfold proxyCrates
  refine serdeCrates_lawful jsonCrate_lawful (fun bytes tree read => ?_) _
  obtain ⟨text, decoded, -⟩ := Option.bind_eq_some_iff.mp read
  exact ⟨text, eq_utf8_of_decodeUtf8 decoded⟩

def modelBody : Bytes := jsonCrate.write (modelValue "llama3").tree

theorem modelBody_named : proxyCrates.extractModel modelBody = some "llama3" := by
  rw [proxyCrates, serdeCrates_extractModel, modelBody]
  exact extractModel_modelValue jsonCrate_lawful "llama3"

end Reference

end OpenPair
