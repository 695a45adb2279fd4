import OpenPair.Daemon.Discovery
import OpenPair.Library.LastWrite

/-! What is left of a TXT record that a node reads and advertises again
(`discovery.rs`, `pair-discovery`).

A record that was read has no known key among its others and no `=` in them, so
each property is read back under its own key, whatever the order. The keys that
`record_to_txt` adds give way to those of the record, and are themselves kept
from the next time on.
-/

set_option autoImplicit false

namespace OpenPair

open LastWrite

theorem splitOnce_plain {text key value : String} {ch : Char}
    (split : splitOnce text ch = some (key, value)) : ch ∉ key.toList := by
  unfold splitOnce at split
  split at split
  · cases split
  · cases split
    intro member
    rw [String.toList_ofList] at member
    have kept := List.all_eq_true.mp List.all_takeWhile ch member
    simp at kept

namespace NodeRecord

/-! ## Reading -/

/-- What holds of every record that was read. -/
structure Parsed (record : NodeRecord) : Prop where
  plain (key value : String) : record.extra.lookup key = some value → '=' ∉ key.toList
  unknown (key : String) : key ∈ knownKeys → record.extra.lookup key = none

theorem Parsed.readEntry {record : NodeRecord} (parsed : record.Parsed) (entry : String) :
    (record.readEntry entry).Parsed := by
  cases split : splitOnce entry '=' with
  | none =>
    rw [NodeRecord.readEntry, split]
    exact parsed
  | some property =>
    obtain ⟨key, value⟩ := property
    rcases record.readEntry_cases split with
      ⟨-, read⟩ | ⟨-, -, read⟩ | ⟨-, -, -, read⟩ | ⟨unknown, read⟩ <;> rw [read]
    · exact ⟨parsed.plain, parsed.unknown⟩
    · exact ⟨parsed.plain, parsed.unknown⟩
    · exact ⟨parsed.plain, parsed.unknown⟩
    · constructor
      · intro other kept found
        by_cases same : other = key
        · rw [same]
          exact splitOnce_plain split
        · rw [AList.lookup_insert_ne same] at found
          exact parsed.plain other kept found
      · intro other known
        have different : other ≠ key := fun same => unknown (same ▸ known)
        rw [AList.lookup_insert_ne different]
        exact parsed.unknown other known

theorem Parsed.fromTxt (entries : List String) : (NodeRecord.fromTxt entries).Parsed := by
  unfold NodeRecord.fromTxt
  apply List.foldlRecOn entries NodeRecord.readEntry
  · constructor
    · intro key value found
      rw [AList.lookup_empty] at found
      cases found
    · intro key _
      exact AList.lookup_empty key
  · exact fun record parsed entry _ => parsed.readEntry entry

-- The properties of a service as `txt_to_record` reads them.
def fromProperties (properties : List (String × String)) : NodeRecord :=
  NodeRecord.fromTxt (properties.map fun p => s!"{p.1}={p.2}")

section

variable {properties : List (String × String)}

theorem fromProperties_eq_last (field : NodeRecord → Option String) {key : String}
    (sets : ∀ record, ∀ p ∈ properties,
      field (record.readEntry s!"{p.1}={p.2}") = if p.1 = key then some p.2 else field record)
    (start : field {} = none) : field (fromProperties properties) = last key properties := by
  rw [fromProperties, NodeRecord.fromTxt, List.foldl_map, foldl_eq_last {} sets, start,
    Option.or_none]

variable (plain : ∀ p ∈ properties, '=' ∉ p.1.toList)
include plain

theorem fromProperties_nodeUuid (only : ∀ p ∈ properties, p.1 ∈ uuidKeys → p.1 = "uuid") :
    (fromProperties properties).nodeUuid = last "uuid" properties := by
  apply fromProperties_eq_last nodeUuid _ rfl
  intro record p member
  rw [readEntry_nodeUuid record p.1 p.2 (plain p member)]
  have own : p.1 ∈ uuidKeys ↔ p.1 = "uuid" :=
    ⟨only p member, fun same => same ▸ by decide⟩
  rw [if_congr own rfl rfl]

theorem fromProperties_clusterUuid
    (only : ∀ p ∈ properties, p.1 ∈ clusterKeys → p.1 = "cluster-uuid") :
    (fromProperties properties).clusterUuid = last "cluster-uuid" properties := by
  apply fromProperties_eq_last clusterUuid _ rfl
  intro record p member
  have own : p.1 = "cluster-uuid" → p.1 ∉ uuidKeys ∧ p.1 ∈ clusterKeys := by
    intro same
    rw [same]
    decide
  rcases record.readEntry_cases (splitOnce_property p.2 (plain p member)) with
    ⟨uuid, read⟩ | ⟨-, cluster, read⟩ | ⟨-, other, -, read⟩ | ⟨unknown, read⟩ <;> rw [read]
  · rw [if_neg fun same => (own same).1 uuid]
  · rw [if_pos (only p member cluster)]
  · rw [if_neg fun same => other (own same).2]
  · rw [if_neg fun same => unknown (known_of_cluster (own same).2)]

theorem fromProperties_extra {key : String} (unknown : key ∉ knownKeys) :
    (fromProperties properties).extra.lookup key = last key properties := by
  have start : ({} : NodeRecord).extra.lookup key = none := AList.lookup_empty key
  apply fromProperties_eq_last (fun record => record.extra.lookup key) _ start
  intro record p member
  have other (known : p.1 ∈ knownKeys) : p.1 ≠ key := by
    rintro rfl
    exact unknown known
  rcases record.readEntry_cases (splitOnce_property p.2 (plain p member)) with
    ⟨uuid, read⟩ | ⟨-, cluster, read⟩ | ⟨-, -, address, read⟩ | ⟨-, read⟩ <;> rw [read]
  · rw [if_neg (other (known_of_uuid uuid))]
  · rw [if_neg (other (known_of_cluster cluster))]
  · rw [if_neg (other (known_of_address address))]
  · by_cases same : p.1 = key
    · rw [if_pos same, same, AList.lookup_insert]
    · rw [if_neg same, AList.lookup_insert_ne (Ne.symm same)]

theorem fromProperties_addresses (none : ∀ p ∈ properties, p.1 ∉ ["addr", "addresses"]) :
    (fromProperties properties).addresses = [] := by
  rw [fromProperties, NodeRecord.fromTxt, List.foldl_map]
  apply List.foldlRecOn (motive := fun record : NodeRecord => record.addresses = [])
  · rfl
  · intro record holds p member
    rcases record.readEntry_cases (splitOnce_property p.2 (plain p member)) with
      ⟨-, read⟩ | ⟨-, -, read⟩ | ⟨-, -, address, -⟩ | ⟨-, read⟩
    · rw [read, holds]
    · rw [read, holds]
    · exact absurd address (none p member)
    · rw [read, holds]

end

/-! ## Advertising -/

-- The properties that `record_to_txt` sets itself.
def ownProperties (record : NodeRecord) : List (String × String) :=
  [("v", "1")] ++ (record.nodeUuid.toList.map fun uuid => ("uuid", uuid)) ++
    (record.clusterUuid.toList.map fun uuid => ("cluster-uuid", uuid)) ++
    (record.addresses.head?.toList.map fun ip =>
      ("ip", String.ofList (ip.toList.takeWhile (· ≠ ':'))))

theorem recordToTxt_eq (record : NodeRecord) : recordToTxt record =
    (record.ownProperties ++ pairs record.extra).foldl
      (fun props p => props.insert p.1 p.2) ∅ := by
  rw [List.foldl_append, pairs, List.foldl_map]
  unfold recordToTxt ownProperties
  cases record.nodeUuid <;> cases record.clusterUuid <;> cases record.addresses <;> rfl

theorem lookup_recordToTxt (record : NodeRecord) (key : String) :
    (recordToTxt record).lookup key =
      (record.extra.lookup key).or (last key record.ownProperties) := by
  rw [recordToTxt_eq, lookup_foldl_insert, last_append,
    last_pairs (List.Perm.refl _), AList.lookup_empty, Option.or_none]

theorem own_keys {record : NodeRecord} {p : String × String} (own : p ∈ record.ownProperties) :
    p.1 ∈ ["v", "uuid", "cluster-uuid", "ip"] := by
  simp only [ownProperties, List.mem_append, List.mem_map, List.mem_singleton] at own
  rcases own with ((rfl | ⟨_, -, rfl⟩) | ⟨_, -, rfl⟩) | ⟨_, -, rfl⟩ <;> simp

theorem last_own_uuid (record : NodeRecord) : last "uuid" record.ownProperties = record.nodeUuid := by
  unfold ownProperties
  cases record.nodeUuid <;> cases record.clusterUuid <;> cases record.addresses <;> rfl

theorem last_own_cluster (record : NodeRecord) :
    last "cluster-uuid" record.ownProperties = record.clusterUuid := by
  unfold ownProperties
  cases record.nodeUuid <;> cases record.clusterUuid <;> cases record.addresses <;> rfl

theorem last_own_none {record : NodeRecord} {key : String} (unknown : key ∉ knownKeys)
    (version : key ≠ "v") (unresolved : record.addresses = []) :
    last key record.ownProperties = none := by
  rw [last_eq_none_iff]
  intro value own
  have uuid : key ≠ "uuid" := by
    rintro rfl
    exact unknown (by decide)
  have cluster : key ≠ "cluster-uuid" := by
    rintro rfl
    exact unknown (by decide)
  simp [ownProperties, unresolved, version, uuid.symm, cluster.symm] at own

/-! ## There and back -/

/-- `read` is what the properties of `record` are read as, in some order. The
addresses that `txt_to_record` adds to it are the resolver's, not of the properties.
-/
def Reread (record read : NodeRecord) : Prop :=
  ∃ properties : List (String × String),
    properties.Perm (pairs (recordToTxt record)) ∧ read = fromProperties properties

structure Keeps (record read : NodeRecord) : Prop where
  nodeUuid : read.nodeUuid = record.nodeUuid
  clusterUuid : read.clusterUuid = record.clusterUuid
  extra (key value : String) :
    record.extra.lookup key = some value → read.extra.lookup key = some value

/-- Equal records: of a map only what is under its keys counts. -/
structure Same (record read : NodeRecord) : Prop where
  nodeUuid : read.nodeUuid = record.nodeUuid
  clusterUuid : read.clusterUuid = record.clusterUuid
  addresses : read.addresses = record.addresses
  extra (key : String) : read.extra.lookup key = record.extra.lookup key

section

variable {record read : NodeRecord}

/-- Of the known keys only the encoder's own are advertised. -/
theorem Parsed.advertised (parsed : record.Parsed) {properties : List (String × String)}
    (listed : properties.Perm (pairs (recordToTxt record))) {p : String × String}
    (member : p ∈ properties) :
    '=' ∉ p.1.toList ∧ (p.1 ∈ knownKeys → p.1 = "uuid" ∨ p.1 = "cluster-uuid") := by
  have found := mem_pairs.mp (listed.mem_iff.mp member)
  rw [lookup_recordToTxt] at found
  cases other : record.extra.lookup p.1 with
  | none =>
    rw [other, Option.none_or] at found
    have encoder : ∀ key ∈ ["v", "uuid", "cluster-uuid", "ip"],
        '=' ∉ key.toList ∧ (key ∈ knownKeys → key = "uuid" ∨ key = "cluster-uuid") := by
      decide
    exact encoder p.1 (own_keys (mem_of_last found))
  | some value =>
    refine ⟨parsed.plain p.1 value other, fun known => ?_⟩
    rw [parsed.unknown p.1 known] at other
    cases other

theorem Reread.parsed (again : Reread record read) : read.Parsed := by
  obtain ⟨properties, -, rfl⟩ := again
  exact Parsed.fromTxt _

theorem Parsed.reread_nodeUuid (parsed : record.Parsed) (again : Reread record read) :
    read.nodeUuid = record.nodeUuid := by
  obtain ⟨properties, listed, rfl⟩ := again
  have only : ∀ p ∈ properties, p.1 ∈ uuidKeys → p.1 = "uuid" := by
    intro p member uuid
    rcases (parsed.advertised listed member).2 (known_of_uuid uuid) with same | same
    · exact same
    · rw [same] at uuid
      exact absurd uuid (by decide)
  rw [fromProperties_nodeUuid (fun p member => (parsed.advertised listed member).1) only,
    last_pairs listed, lookup_recordToTxt, parsed.unknown "uuid" (by decide),
    Option.none_or, last_own_uuid]

theorem Parsed.reread_clusterUuid (parsed : record.Parsed) (again : Reread record read) :
    read.clusterUuid = record.clusterUuid := by
  obtain ⟨properties, listed, rfl⟩ := again
  have only : ∀ p ∈ properties, p.1 ∈ clusterKeys → p.1 = "cluster-uuid" := by
    intro p member cluster
    rcases (parsed.advertised listed member).2 (known_of_cluster cluster) with same | same
    · rw [same] at cluster
      exact absurd cluster (by decide)
    · exact same
  rw [fromProperties_clusterUuid (fun p member => (parsed.advertised listed member).1) only,
    last_pairs listed, lookup_recordToTxt, parsed.unknown "cluster-uuid" (by decide),
    Option.none_or, last_own_cluster]

theorem Parsed.reread_addresses (parsed : record.Parsed) (again : Reread record read) :
    read.addresses = [] := by
  obtain ⟨properties, listed, rfl⟩ := again
  apply fromProperties_addresses fun p member => (parsed.advertised listed member).1
  intro p member address
  rcases (parsed.advertised listed member).2 (known_of_address address) with same | same
  · rw [same] at address
    exact absurd address (by decide)
  · rw [same] at address
    exact absurd address (by decide)

theorem Parsed.reread_extra (parsed : record.Parsed) (again : Reread record read) {key : String}
    (unknown : key ∉ knownKeys) :
    read.extra.lookup key = (record.extra.lookup key).or (last key record.ownProperties) := by
  obtain ⟨properties, listed, rfl⟩ := again
  rw [fromProperties_extra (fun p member => (parsed.advertised listed member).1) unknown,
    last_pairs listed, lookup_recordToTxt]

theorem Parsed.keeps (parsed : record.Parsed) (again : Reread record read) : Keeps record read where
  nodeUuid := parsed.reread_nodeUuid again
  clusterUuid := parsed.reread_clusterUuid again
  extra key value found := by
    have unknown : key ∉ knownKeys := by
      intro known
      rw [parsed.unknown key known] at found
      cases found
    rw [parsed.reread_extra again unknown, found, Option.some_or]

theorem Parsed.reread_version (parsed : record.Parsed) (again : Reread record read) :
    (read.extra.lookup "v").isSome := by
  have own : ("v", "1") ∈ record.ownProperties := by simp [ownProperties]
  rw [parsed.reread_extra again (by decide), Option.isSome_or, Bool.or_eq_true]
  exact .inr (last_isSome_of_mem own)

theorem or_own {key : String} (version : (record.extra.lookup "v").isSome)
    (unknown : key ∉ knownKeys) (unresolved : record.addresses = []) :
    (record.extra.lookup key).or (last key record.ownProperties) = record.extra.lookup key := by
  cases found : record.extra.lookup key with
  | some value => rw [Option.some_or]
  | none =>
    rw [Option.none_or]
    apply last_own_none unknown _ unresolved
    rintro rfl
    rw [found] at version
    cases version

theorem Parsed.same (parsed : record.Parsed) (again : Reread record read) {twice : NodeRecord}
    (third : Reread read twice) : Same read twice where
  nodeUuid := again.parsed.reread_nodeUuid third
  clusterUuid := again.parsed.reread_clusterUuid third
  addresses := by rw [again.parsed.reread_addresses third, parsed.reread_addresses again]
  extra key := by
    by_cases known : key ∈ knownKeys
    · rw [third.parsed.unknown key known, again.parsed.unknown key known]
    · rw [again.parsed.reread_extra third known,
        or_own (parsed.reread_version again) known (parsed.reread_addresses again)]

end

/-- A record that was read is reread with its UUIDs and all its other keys, and
rereading it again changes nothing.
-/
theorem txt_round_trip (entries : List String) {once twice : NodeRecord}
    (first : Reread (fromTxt entries) once) (second : Reread once twice) :
    Keeps (fromTxt entries) once ∧ Same once twice :=
  ⟨(Parsed.fromTxt entries).keeps first, (Parsed.fromTxt entries).same first second⟩

/-- The properties in another order than the encoder's, each time. -/
theorem txt_round_trip_sample :
    Keeps (fromTxt ["weird=a=b", "node=n1", "v=2", "addr=10.0.0.1:80"])
        (fromProperties [("uuid", "n1"), ("v", "2"), ("weird", "a=b"), ("ip", "10.0.0.1")]) ∧
      Same (fromProperties [("uuid", "n1"), ("v", "2"), ("weird", "a=b"), ("ip", "10.0.0.1")])
        (fromProperties [("ip", "10.0.0.1"), ("v", "2"), ("weird", "a=b"), ("uuid", "n1")]) :=
  txt_round_trip _ ⟨_, by decide, rfl⟩ ⟨_, by decide, rfl⟩

end NodeRecord

end OpenPair
