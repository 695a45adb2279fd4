import Mathlib.Order.Lattice
import Mathlib.Data.List.Pairwise

/-! Maps as lists of entries in the order of their keys, each key once. -/

set_option autoImplicit false

namespace SortedMap

variable {K V : Type} [LinearOrder K]

def Sorted (entries : List (K × V)) : Prop := entries.Pairwise fun first second => first.1 < second.1

/-- A key's value, new or in the place of the one it had. -/
def insert (key : K) (value : V) : List (K × V) → List (K × V)
  | [] => [(key, value)]
  | entry :: rest =>
    if key < entry.1 then (key, value) :: entry :: rest
    else if entry.1 < key then entry :: insert key value rest
    else (key, value) :: rest

def collect (entries : List (K × V)) : List (K × V) :=
  entries.foldl (fun map entry => insert entry.1 entry.2 map) []

theorem mem_insert {key : K} {value : V} {map : List (K × V)} {entry : K × V}
    (member : entry ∈ insert key value map) : entry = (key, value) ∨ entry ∈ map := by
  induction map with
  | nil => exact .inl (List.mem_singleton.mp member)
  | cons first rest ih =>
    rw [insert] at member
    split at member
    · exact List.mem_cons.mp member
    · split at member
      · rcases List.mem_cons.mp member with rfl | later
        · exact .inr List.mem_cons_self
        · exact (ih later).imp_right (List.mem_cons_of_mem _)
      · exact (List.mem_cons.mp member).imp_right (List.mem_cons_of_mem _)

theorem sorted_insert (key : K) (value : V) {map : List (K × V)} (sorted : Sorted map) :
    Sorted (insert key value map) := by
  induction map with
  | nil => exact List.pairwise_singleton _ _
  | cons first rest ih =>
    obtain ⟨above, sorted⟩ := List.pairwise_cons.mp sorted
    rw [insert]
    split
    · next below =>
      apply List.pairwise_cons.mpr ⟨_, List.pairwise_cons.mpr ⟨above, sorted⟩⟩
      intro entry member
      rcases List.mem_cons.mp member with rfl | later
      · exact below
      · exact lt_trans below (above entry later)
    · next past =>
      split
      · next after =>
        apply List.pairwise_cons.mpr ⟨_, ih sorted⟩
        intro entry member
        rcases mem_insert member with rfl | later
        · exact after
        · exact above entry later
      · next past' =>
        -- The key is there already and keeps its place.
        have same : key = first.1 := le_antisymm (not_lt.mp past') (not_lt.mp past)
        apply List.pairwise_cons.mpr ⟨_, sorted⟩
        intro entry later
        rw [same]
        exact above entry later

theorem insert_last {key : K} (value : V) {map : List (K × V)}
    (above : ∀ entry ∈ map, entry.1 < key) : insert key value map = map ++ [(key, value)] := by
  induction map with
  | nil => rfl
  | cons first rest ih =>
    have after := above first List.mem_cons_self
    rw [insert, if_neg (lt_asymm after), if_pos after,
      ih fun entry later => above entry (List.mem_cons_of_mem _ later), List.cons_append]

theorem foldl_insert_sorted (entries : List (K × V)) {map : List (K × V)} (sorted : Sorted map) :
    Sorted (entries.foldl (fun map entry => insert entry.1 entry.2 map) map) := by
  induction entries generalizing map with
  | nil => exact sorted
  | cons entry rest ih => exact ih (sorted_insert entry.1 entry.2 sorted)

theorem sorted_collect (entries : List (K × V)) : Sorted (collect entries) :=
  foldl_insert_sorted entries List.Pairwise.nil

theorem foldl_insert_mem {entries map : List (K × V)} {entry : K × V}
    (member : entry ∈ entries.foldl (fun map entry => insert entry.1 entry.2 map) map) :
    entry ∈ map ∨ entry ∈ entries := by
  induction entries generalizing map with
  | nil => exact .inl member
  | cons first rest ih =>
    rcases ih member with put | later
    · rcases mem_insert put with rfl | before
      · exact .inr List.mem_cons_self
      · exact .inl before
    · exact .inr (List.mem_cons_of_mem _ later)

theorem mem_collect {entries : List (K × V)} {entry : K × V} (member : entry ∈ collect entries) :
    entry ∈ entries := by
  rcases foldl_insert_mem member with none | member
  · cases none
  · exact member

theorem key_mem_insert (key : K) (value : V) (map : List (K × V)) :
    (key, value) ∈ insert key value map := by
  induction map with
  | nil => exact List.mem_singleton_self _
  | cons first rest ih =>
    rw [insert]
    split
    · exact List.mem_cons_self
    · split
      · exact List.mem_cons_of_mem _ ih
      · exact List.mem_cons_self

theorem keys_subset_insert (key : K) (value : V) {map : List (K × V)} {other : K}
    (member : other ∈ map.map Prod.fst) : other ∈ (insert key value map).map Prod.fst := by
  induction map with
  | nil => cases member
  | cons first rest ih =>
    rw [insert]
    split
    · exact List.mem_cons_of_mem _ member
    · next past =>
      split
      · rcases List.mem_cons.mp member with rfl | later
        · exact List.mem_cons_self
        · exact List.mem_cons_of_mem _ (ih later)
      · next past' =>
        have same : key = first.1 := le_antisymm (not_lt.mp past') (not_lt.mp past)
        rw [List.map_cons, same]
        exact member

theorem keys_subset_foldl (entries : List (K × V)) {map : List (K × V)} {key : K}
    (member : key ∈ map.map Prod.fst) :
    key ∈ (entries.foldl (fun map entry => insert entry.1 entry.2 map) map).map Prod.fst := by
  induction entries generalizing map with
  | nil => exact member
  | cons entry rest ih => exact ih (keys_subset_insert entry.1 entry.2 member)

theorem key_mem_collect {key : K} {value : V} {rest : List (K × V)} :
    key ∈ (collect ((key, value) :: rest)).map Prod.fst :=
  keys_subset_foldl rest (List.mem_map_of_mem (key_mem_insert key value []))

theorem foldl_insert_append {entries map : List (K × V)} (sorted : Sorted (map ++ entries)) :
    entries.foldl (fun map entry => insert entry.1 entry.2 map) map = map ++ entries := by
  induction entries generalizing map with
  | nil => exact (List.append_nil map).symm
  | cons entry rest ih =>
    have follows : map ++ entry :: rest = map ++ [entry] ++ rest := by simp
    have above : ∀ other ∈ map, other.1 < entry.1 := by
      intro other member
      exact (List.pairwise_append.mp sorted).2.2 other member entry List.mem_cons_self
    rw [List.foldl_cons, insert_last entry.2 above, follows]
    rw [follows] at sorted
    exact ih sorted

/-- Sorted entries are their own map. -/
theorem collect_sorted {entries : List (K × V)} (sorted : Sorted entries) :
    collect entries = entries :=
  foldl_insert_append sorted

end SortedMap
