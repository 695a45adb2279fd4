import OpenPair.Proxy.IngressJson
import OpenPair.Proxy.RoutingRuns

/-! Whether a model name and the name with the default tag are one model to the
router (`model.rs`, `tags.rs`).

The names that engines report and the name that a request asks for are compared
as they are. So an engine that reports one spelling serves only that one.
-/

set_option autoImplicit false

namespace OpenPair

/-! ## Names -/

-- `str::strip_suffix`.
def stripSuffix (text suffix : String) : Option String :=
  if suffix.toList.isSuffixOf text.toList then
    some (String.ofList (text.toList.take (text.toList.length - suffix.toList.length)))
  else none

def defaultTag : String := ":latest"

def normalizeModelKey (model : String) : String := (stripSuffix model defaultTag).getD model

def Untagged (model : String) : Prop := ':' ∉ model.toList

theorem stripSuffix_append (text suffix : String) :
    stripSuffix (text ++ suffix) suffix = some text := by
  simp [stripSuffix, String.toList_append]

theorem normalizeModelKey_tagged (model : String) :
    normalizeModelKey (model ++ defaultTag) = model := by
  rw [normalizeModelKey, stripSuffix_append, Option.getD_some]

theorem normalizeModelKey_untagged {model : String} (untagged : Untagged model) :
    normalizeModelKey model = model := by
  have none : stripSuffix model defaultTag = none := by
    -- The tag begins with the colon that the name does not have.
    refine if_neg fun suffix => untagged ?_
    exact (List.isSuffixOf_iff_suffix.mp suffix).subset (by decide)
  rw [normalizeModelKey, none, Option.getD_none]

theorem normalizeModelKey_eq {name model : String} (same : normalizeModelKey name = model) :
    name = model ∨ name = model ++ defaultTag := by
  unfold normalizeModelKey stripSuffix at same
  split at same
  · rename_i suffix
    right
    obtain ⟨front, split⟩ := List.isSuffixOf_iff_suffix.mp suffix
    rw [← split, List.length_append, Nat.add_sub_cancel, List.take_left, Option.getD_some] at same
    rw [← same, ← String.toList_inj, String.toList_append, String.toList_ofList, split]
  · exact .inl same

/-- A list with every name of this key in both spellings. -/
def Uniform (models : List String) (key : String) : Prop :=
  ∀ name ∈ models, normalizeModelKey name = key → key ∈ models ∧ key ++ defaultTag ∈ models

theorem uniform_iff {model : String} (untagged : Untagged model) (models : List String) :
    Uniform models model ↔ (model ∈ models ↔ model ++ defaultTag ∈ models) := by
  constructor
  · intro uniform
    constructor
    · exact fun listed => (uniform model listed (normalizeModelKey_untagged untagged)).2
    · exact fun listed => (uniform _ listed (normalizeModelKey_tagged model)).1
  · intro same name listed key
    rcases normalizeModelKey_eq key with rfl | rfl
    · exact ⟨listed, same.mp listed⟩
    · exact ⟨same.mpr listed, listed⟩

/-! ## Reports -/

/-- `serde_json` on values of a type of its own. -/
structure ValueCrate (V : Type) where
  fromSlice : Bytes → Option V
  get : V → String → Option V
  asArray : V → Option (List V)
  asStr : V → Option String

section

variable {V : Type} (c : ValueCrate V)

/-- The names in the answer to `GET /api/tags`; none of an answer that is something else. -/
def parseOllamaTags (body : Bytes) : List String :=
  match c.fromSlice body with
  | none => []
  | some value =>
    (((c.get value "models").bind c.asArray).map fun items =>
      items.filterMap fun item => (c.get item "name").bind c.asStr).getD []

def localReport (body : Bytes) : RoutingOp := .setLocalModels (parseOllamaTags c body)

def peerReport (nodeId data : String) : RoutingOp :=
  .setPeerModels nodeId (parseOllamaTags c (utf8 data))

end

/-! ## Routes -/

theorem select_congr {left right : List Candidate}
    (same : left.filter Candidate.eligible = right.filter Candidate.eligible) :
    select left = select right := by
  rw [select_eq, select_eq, same]

theorem filter_map_congr {α : Type} {f g : α → Candidate} {items : List α}
    (same : ∀ item ∈ items, (f item).eligible = (g item).eligible ∧
      ((f item).eligible = true → f item = g item)) :
    (items.map f).filter Candidate.eligible = (items.map g).filter Candidate.eligible := by
  induction items with
  | nil => rfl
  | cons item items ih =>
    obtain ⟨agree, equal⟩ := same item (.head items)
    have ih := ih fun later member => same later (.tail item member)
    rw [List.map_cons, List.map_cons]
    by_cases eligible : (f item).eligible = true
    · rw [List.filter_cons_of_pos eligible, List.filter_cons_of_pos (agree ▸ eligible),
        equal eligible, ih]
    · rw [List.filter_cons_of_neg eligible, List.filter_cons_of_neg (agree ▸ eligible), ih]

theorem PeerEntry.candidate_congr {peer : PeerEntry} {m n : String}
    (same : peer.pinned = true → (m ∈ peer.models ↔ n ∈ peer.models)) :
    (peer.candidate m).eligible = (peer.candidate n).eligible ∧
      ((peer.candidate m).eligible = true → peer.candidate m = peer.candidate n) := by
  cases pinned : peer.pinned with
  | true =>
    have serves : peer.models.contains m = peer.models.contains n := by
      rw [Bool.eq_iff_iff, List.contains_iff_mem, List.contains_iff_mem]
      exact same pinned
    have equal : peer.candidate m = peer.candidate n := by
      rw [candidate, candidate, serves]
    exact ⟨congrArg Candidate.eligible equal, fun _ => equal⟩
  | false =>
    -- A peer that is not pinned is no candidate for any name.
    have never (k : String) : (peer.candidate k).eligible = false := by
      simp [candidate, Candidate.eligible, pinned]
    rw [never m, never n]
    exact ⟨rfl, fun eligible => absurd eligible Bool.false_ne_true⟩

namespace RoutingTable

variable {table : RoutingTable} {localId backend : String} {history : List RoutingOp}

/-- The same nodes can be chosen for both models, and the same one is. -/
def RoutedAlike (table : RoutingTable) (backend : String) (m n : Option String) : Prop :=
  (∀ target,
    (∃ candidate, Eligible (table.candidatesFor m backend) candidate ∧ candidate.target = target) ↔
    ∃ candidate, Eligible (table.candidatesFor n backend) candidate ∧ candidate.target = target) ∧
  (select (table.candidatesFor m backend)).map Candidate.target =
    (select (table.candidatesFor n backend)).map Candidate.target

namespace Keeps

variable (keeps : table.Keeps localId history)
include keeps

theorem eligible_iff {model : Option String} (target : Target) :
    (∃ candidate, Eligible (table.candidatesFor model backend) candidate ∧
      candidate.target = target) ↔ History.Eligible history model target := by
  constructor
  · rintro ⟨candidate, found, rfl⟩
    exact (keeps.shows found.1).eligible.mp found.2
  · exact keeps.exists_candidate backend

theorem select_same {m n : String}
    (self : m ∈ History.localModels history ↔ n ∈ History.localModels history)
    (peers : ∀ nodeId, History.pinned nodeId history = true →
      (m ∈ History.models nodeId history ↔ n ∈ History.models nodeId history)) :
    select (table.candidatesFor (some m) backend) =
      select (table.candidatesFor (some n) backend) := by
  have first : table.localCandidate (some m) backend = table.localCandidate (some n) backend := by
    have serves : table.localModels.contains m = table.localModels.contains n := by
      rw [Bool.eq_iff_iff, List.contains_iff_mem, List.contains_iff_mem, keeps.localModels]
      exact self
    rw [localCandidate, localCandidate, Option.map_some, Option.map_some, serves]
  have rest : (table.peers.entries.map fun peer => peer.2.candidate m).filter Candidate.eligible =
      (table.peers.entries.map fun peer => peer.2.candidate n).filter Candidate.eligible := by
    refine filter_map_congr fun entry listed => PeerEntry.candidate_congr fun pinned => ?_
    have recorded := keeps.peers entry.1
    rw [AList.mem_lookup_iff.mpr listed] at recorded
    have models : entry.2.models = History.models entry.1 history := recorded.models
    have flag : entry.2.pinned = History.pinned entry.1 history := recorded.pinned
    rw [models]
    exact peers entry.1 (flag.symm.trans pinned)
  apply select_congr
  unfold candidatesFor
  dsimp only
  rw [first, List.filter_cons, List.filter_cons, rest]

end Keeps

end RoutingTable

theorem routedAlike_iff {model : String} (untagged : Untagged model) (localId : String)
    (history : List RoutingOp) :
    (∀ (table : RoutingTable) (backend : String), table.Reordered (.after localId history) →
      table.RoutedAlike backend (some model) (some (model ++ defaultTag))) ↔
    Uniform (History.localModels history) model ∧
      ∀ nodeId, History.pinned nodeId history = true →
        Uniform (History.models nodeId history) model := by
  have uniform (nodeId : String) := uniform_iff untagged (History.models nodeId history)
  simp only [uniform, uniform_iff untagged (History.localModels history)]
  constructor
  · intro transparent
    have keeps := RoutingTable.after_keeps localId history
    -- The lists can be read off the candidates of the table as it is enumerated.
    have same (target : Target) := (transparent _ "" (.refl _)).1 target
    simp only [keeps.eligible_iff] at same
    refine ⟨?_, fun nodeId pinned => ?_⟩
    · simpa [History.Eligible] using same .self
    · simpa [History.Eligible, pinned] using same (.peer nodeId)
  · rintro ⟨self, peers⟩ table backend order
    have keeps := order.keeps (RoutingTable.after_keeps localId history)
    refine ⟨fun target => ?_, congrArg _ (keeps.select_same self peers)⟩
    rw [keeps.eligible_iff, keeps.eligible_iff]
    cases target with
    | self => simpa [History.Eligible] using self
    | peer nodeId =>
      refine and_congr_right fun pinned => ?_
      simpa using peers nodeId pinned

/-- After any history of writes a request for a name without a tag and one for the
name with the default tag have the same candidates and go to the same node exactly
where the local list and every pinned peer's list hold both spellings or neither. -/
theorem default_tag_transparent_iff {F : Type} {j : JsonCrate F} (lawful : j.Lawful)
    {model : String} (untagged : Untagged model) (localId : String) (history : List RoutingOp) :
    (∀ (table : RoutingTable) (backend : String), table.Reordered (.after localId history) →
      ∀ bare tagged : Bytes, extractModel j bare = some model →
        extractModel j tagged = some (model ++ defaultTag) →
        table.RoutedAlike backend (extractModel j bare) (extractModel j tagged)) ↔
    Uniform (History.localModels history) model ∧
      ∀ nodeId, History.pinned nodeId history = true →
        Uniform (History.models nodeId history) model := by
  rw [← routedAlike_iff untagged localId history]
  constructor
  · intro requests table backend order
    have named := extractModel_modelValue lawful
    have alike := requests table backend order _ _ (named model) (named (model ++ defaultTag))
    rw [named, named] at alike
    exact alike
  · intro alike table backend order bare tagged namesBare namesTagged
    rw [namesBare, namesTagged]
    exact alike table backend order

/-! ## The reference crate -/

namespace Reference

def valueCrate : ValueCrate (Json.Tree Empty) where
  fromSlice bytes := (jsonCrate.value bytes).map Json.Value.tree
  get
    | .obj members, key => members.lookup key
    | _, _ => none
  asArray
    | .arr items => some items
    | _ => none
  asStr
    | .str s => some s
    | _ => none

def tagTree (name : String) : Json.Tree Empty := .obj [("name", .str name)]

def tagsTree (names : List String) : Json.Tree Empty := .obj [("models", .arr (names.map tagTree))]

def tagsText (names : List String) : String := String.ofList (tagsTree names).write

theorem depth_names (names : List String) : Json.Tree.depthItems (names.map tagTree) ≤ 1 := by
  induction names with
  | nil => exact Nat.zero_le 1
  | cons name names ih => exact max_le le_rfl ih

theorem ordered_names (names : List String) : Json.Tree.OrderedItems (names.map tagTree) := by
  induction names with
  | nil => trivial
  | cons name names ih => exact ⟨⟨List.pairwise_singleton _ _, trivial, trivial⟩, ih⟩

theorem tagsTree_free (names : List String) : RawFree (tagsTree names) := by
  have plain : "name" ≠ rawToken ∧ "models" ≠ rawToken := by decide
  have tag (name : String) : RawFree (tagTree name) :=
    rawFree_obj.mpr ⟨fun raw => plain.1 (isRaw_cons.mp raw),
      List.forall_mem_singleton.mpr (rawFree_iff.mpr (rawTexts_leaf rfl))⟩
  exact rawFree_obj.mpr ⟨fun raw => plain.2 (isRaw_cons.mp raw), List.forall_mem_singleton.mpr
    (rawFree_arr.mpr (List.forall_mem_map.mpr fun name _ => tag name))⟩

def tagsValue (names : List String) : Json.Value Empty :=
  ⟨tagsTree names, List.pairwise_singleton _ _, ordered_names names, trivial⟩

theorem valueCrate_get (members : List (String × Json.Tree Empty)) (key : String) :
    valueCrate.get (.obj members) key = members.lookup key := rfl

theorem parse_tagsText (names : List String) :
    parseOllamaTags valueCrate (utf8 (tagsText names)) = names := by
  have shallow : (tagsValue names).tree.depth ≤ maxDepth := by
    have inner := depth_names names
    simp only [tagsValue, tagsTree, Json.Tree.depth, Json.Tree.depthMembers, maxDepth]
    omega
  have read : valueCrate.fromSlice (utf8 (tagsText names)) = some (tagsTree names) := by
    have round := jsonCrate.value_write jsonCrate_lawful (tagsTree names).integral_empty shallow
      (tagsTree_free names)
    exact congrArg (Option.map Json.Value.tree) round
  have models : valueCrate.get (tagsTree names) "models" = some (.arr (names.map tagTree)) := by
    rw [tagsTree, valueCrate_get, List.lookup_cons_self]
  have name (item : String) : (valueCrate.get (tagTree item) "name").bind valueCrate.asStr =
      some item := by
    rw [tagTree, valueCrate_get, List.lookup_cons_self]
    rfl
  rw [parseOllamaTags, read]
  dsimp only
  rw [models, Option.bind_some]
  change (names.map tagTree).filterMap _ = names
  rw [List.filterMap_map]
  simp only [Function.comp_def, name]
  exact List.filterMap_some

/-- A pinned peer's engine reports these names, and the local one none. -/
def reported (names : List String) : List RoutingOp :=
  [peerReport valueCrate "b" (tagsText names), .upsertPeerMeta "b" "10.0.0.6" 9443 true,
    localReport valueCrate (utf8 (tagsText []))]

theorem reported_local (names : List String) : History.localModels (reported names) = [] := by
  simp [reported, peerReport, localReport, parse_tagsText]

theorem reported_models (names : List String) (nodeId : String) :
    History.models nodeId (reported names) = if nodeId = "b" then names else [] := by
  by_cases same : nodeId = "b"
  · subst same
    simp [reported, peerReport, localReport, parse_tagsText]
  · simp [reported, peerReport, localReport, same, Ne.symm same]

def requestFor (model : String) : Bytes := jsonCrate.write (modelValue model).tree

theorem llama3_untagged : Untagged "llama3" := by
  unfold Untagged
  decide

end Reference

/-- An engine that reports both spellings serves both. -/
theorem default_tag_transparent_both :
    (select ((RoutingTable.after "self"
        (Reference.reported ["llama3", "llama3:latest"])).candidatesFor
          (extractModel Reference.jsonCrate (Reference.requestFor "llama3")) "")).map
          Candidate.target =
      (select ((RoutingTable.after "self"
        (Reference.reported ["llama3", "llama3:latest"])).candidatesFor
          (extractModel Reference.jsonCrate (Reference.requestFor ("llama3" ++ defaultTag))) "")).map
          Candidate.target := by
  have named := extractModel_modelValue Reference.jsonCrate_lawful
  refine ((default_tag_transparent_iff Reference.jsonCrate_lawful Reference.llama3_untagged
    "self" _).mpr ⟨?_, ?_⟩ _ "" (.refl _) _ _ (named _) (named _)).2
  · rw [Reference.reported_local]
    exact fun _ wrong => (List.not_mem_nil wrong).elim
  · intro nodeId _
    rw [Reference.reported_models, uniform_iff Reference.llama3_untagged]
    by_cases same : nodeId = "b"
    · rw [if_pos same]
      decide
    · rw [if_neg same]
      decide

/-- A peer whose engine reports `llama3:latest` is not asked for `llama3`. -/
theorem bare_name_not_served :
    Untagged "llama3" ∧
      (select ((RoutingTable.after "self" (Reference.reported ["llama3:latest"])).candidatesFor
        (extractModel Reference.jsonCrate (Reference.requestFor "llama3")) "")).map
          Candidate.target = none ∧
      (select ((RoutingTable.after "self" (Reference.reported ["llama3:latest"])).candidatesFor
        (extractModel Reference.jsonCrate (Reference.requestFor ("llama3" ++ defaultTag))) "")).map
          Candidate.target = some (.peer "b") := by
  have table : RoutingTable.after "self" (Reference.reported ["llama3:latest"]) =
      .after "self" [.setPeerModels "b" ["llama3:latest"],
        .upsertPeerMeta "b" "10.0.0.6" 9443 true, .setLocalModels []] := by
    simp only [Reference.reported, peerReport, localReport, Reference.parse_tagsText]
  have named (model : String) := extractModel_modelValue Reference.jsonCrate_lawful model
  simp only [Reference.requestFor]
  rw [table, named, named]
  refine ⟨Reference.llama3_untagged, ?_, ?_⟩ <;> decide

end OpenPair
