import Mathlib.Data.List.AList
import Mathlib.Data.List.Nodup

/-! Writes under keys, of which the last one stays, and what stays when the
writes come from sources that are gone through in any order.
-/

set_option autoImplicit false

namespace LastWrite

variable {K V : Type} [DecidableEq K]

def last (key : K) : List (K × V) → Option V
  | [] => none
  | write :: rest => (last key rest).or (if write.1 = key then some write.2 else none)

variable {key : K} {value : V} {writes : List (K × V)}

theorem last_append (key : K) (first rest : List (K × V)) :
    last key (first ++ rest) = (last key rest).or (last key first) := by
  induction first with
  | nil => simp [last]
  | cons write first ih => rw [List.cons_append, last, ih, last, Option.or_assoc]

theorem last_singleton (key : K) (value : V) : last key [(key, value)] = some value := by
  simp [last]

theorem last_concat (writes : List (K × V)) (key : K) (value : V) :
    last key (writes ++ [(key, value)]) = some value := by
  rw [last_append, last_singleton, Option.some_or]

theorem last_map {W : Type} (f : V → W) (key : K) (writes : List (K × V)) :
    last key (writes.map fun write => (write.1, f write.2)) = (last key writes).map f := by
  induction writes with
  | nil => rfl
  | cons write writes ih =>
    rw [List.map_cons, last, last, ih, Option.map_or]
    split <;> rfl

theorem mem_of_last (found : last key writes = some value) : (key, value) ∈ writes := by
  induction writes with
  | nil => cases found
  | cons write rest ih =>
    rw [last] at found
    cases later : last key rest with
    | some other =>
      rw [later, Option.some_or] at found
      exact List.mem_cons_of_mem _ (ih (later.trans found))
    | none =>
      rw [later, Option.none_or] at found
      split at found
      · next same =>
        cases found
        rw [← same]
        exact List.mem_cons_self
      · cases found

theorem last_isSome_of_mem (written : (key, value) ∈ writes) : (last key writes).isSome := by
  induction writes with
  | nil => cases written
  | cons write rest ih =>
    rw [last, Option.isSome_or, Bool.or_eq_true]
    rcases List.mem_cons.mp written with same | later
    · right
      rw [← same, if_pos rfl]
      rfl
    · exact .inl (ih later)

theorem last_eq_some (written : (key, value) ∈ writes)
    (only : ∀ other, (key, other) ∈ writes → other = value) : last key writes = some value := by
  obtain ⟨other, found⟩ := Option.isSome_iff_exists.mp (last_isSome_of_mem written)
  rw [found, only other (mem_of_last found)]

theorem last_eq_none_iff : last key writes = none ↔ ∀ value, (key, value) ∉ writes := by
  constructor
  · intro absent value written
    have found := last_isSome_of_mem written
    rw [absent] at found
    cases found
  · intro unwritten
    cases found : last key writes with
    | none => rfl
    | some value => exact absurd (mem_of_last found) (unwritten value)

/-- What every write under the key sets, and no other write touches, is what
the last one set.
-/
theorem foldl_eq_last {S : Type} {step : S → K × V → S} {field : S → Option V} (state : S)
    (sets : ∀ state, ∀ write ∈ writes,
      field (step state write) = if write.1 = key then some write.2 else field state) :
    field (writes.foldl step state) = (last key writes).or (field state) := by
  induction writes generalizing state with
  | nil => rfl
  | cons write rest ih =>
    obtain ⟨first, sets⟩ :
        (∀ state, field (step state write) = if write.1 = key then some write.2 else field state) ∧
          ∀ state, ∀ write ∈ rest,
            field (step state write) = if write.1 = key then some write.2 else field state :=
      ⟨fun state => sets state write List.mem_cons_self,
        fun state other later => sets state other (List.mem_cons_of_mem _ later)⟩
    rw [List.foldl_cons, ih _ sets, first, last, Option.or_assoc]
    split
    · rw [Option.some_or]
    · rw [Option.none_or]

/-! ## Tables -/

/-- The keys and values of a table, in the order in which it is gone through here. -/
def pairs (table : AList fun _ : K => V) : List (K × V) :=
  table.entries.map fun entry => (entry.1, entry.2)

variable {table : AList fun _ : K => V}

theorem mem_pairs : (key, value) ∈ pairs table ↔ table.lookup key = some value := by
  rw [← Option.mem_def, AList.mem_lookup_iff, pairs, List.mem_map]
  constructor
  · rintro ⟨⟨_, _⟩, member, same⟩
    cases same
    exact member
  · intro member
    exact ⟨_, member, rfl⟩

/-- In any order each key has its value. -/
theorem last_pairs (listed : writes.Perm (pairs table)) (key : K) :
    last key writes = table.lookup key := by
  cases found : table.lookup key with
  | none =>
    rw [last_eq_none_iff]
    intro value member
    rw [listed.mem_iff, mem_pairs, found] at member
    cases member
  | some value =>
    apply last_eq_some (listed.mem_iff.mpr (mem_pairs.mpr found))
    intro other member
    rw [listed.mem_iff, mem_pairs, found] at member
    exact (Option.some.inj member).symm

theorem lookup_foldl_insert (writes : List (K × V)) (table : AList fun _ : K => V) (key : K) :
    (writes.foldl (fun table write => table.insert write.1 write.2) table).lookup key =
      (last key writes).or (table.lookup key) := by
  have sets : ∀ table : AList fun _ : K => V, ∀ write ∈ writes,
      (table.insert write.1 write.2).lookup key =
        if write.1 = key then some write.2 else table.lookup key := by
    intro table write _
    by_cases same : write.1 = key
    · subst same
      rw [if_pos rfl, AList.lookup_insert]
    · rw [if_neg same, AList.lookup_insert_ne (Ne.symm same)]
  exact foldl_eq_last table sets

/-! ## Sources in any order -/

variable {ι : Type} [DecidableEq ι]

structure Order (source : ι → Prop) (order : List ι) : Prop where
  nodup : order.Nodup
  mem (i : ι) : i ∈ order ↔ source i

variable {source : ι → Prop} {write : ι → Option (K × V)} {order : List ι} {i : ι}

theorem Order.moved (held : Order source order) (member : source i) :
    Order source (order.erase i ++ [i]) where
  nodup := by
    rw [List.nodup_append]
    refine ⟨held.nodup.erase i, List.nodup_singleton i, ?_⟩
    intro a kept b moved same
    rw [List.mem_singleton] at moved
    subst moved same
    exact (List.Nodup.mem_erase_iff held.nodup).mp kept |>.1 rfl
  mem j := by
    rw [List.mem_append, List.mem_singleton, List.Nodup.mem_erase_iff held.nodup, held.mem]
    constructor
    · rintro (⟨-, member'⟩ | rfl)
      · exact member'
      · exact member
    · intro member'
      by_cases same : j = i
      · exact .inr same
      · exact .inl ⟨same, member'⟩

omit [DecidableEq K] [DecidableEq ι] in
theorem mem_writes (held : Order source order) :
    (key, value) ∈ order.filterMap write ↔ ∃ i, source i ∧ write i = some (key, value) := by
  simp only [List.mem_filterMap, held.mem]

omit [DecidableEq ι] in
theorem last_filterMap_concat (order : List ι) (written : write i = some (key, value)) :
    last key ((order ++ [i]).filterMap write) = some value := by
  rw [List.filterMap_append, List.filterMap_cons_some written, List.filterMap_nil, last_concat]

/-- A value stays in every order exactly when it is written and no other is. -/
theorem every_order_iff (listed : Order source order) :
    (∀ order, Order source order → last key (order.filterMap write) = some value) ↔
      (∃ i, source i ∧ write i = some (key, value)) ∧
        ∀ i other, source i → write i = some (key, other) → other = value := by
  constructor
  · intro every
    refine ⟨(mem_writes listed).mp (mem_of_last (every order listed)), ?_⟩
    intro i other member written
    have moved := every _ (listed.moved member)
    rw [last_filterMap_concat _ written] at moved
    exact Option.some.inj moved
  · rintro ⟨written, only⟩ order held
    apply last_eq_some ((mem_writes held).mpr written)
    intro other written'
    obtain ⟨i, member, wrote⟩ := (mem_writes held).mp written'
    exact only i other member wrote

/-- Where sources are taken away, or replaced by ones that write no more under
the key, the same value stays in all orders exactly when all sources agree and
one of them is left. -/
theorem every_orders_iff {source' : ι → Prop} {write' : ι → Option (K × V)} {order' : List ι}
    (listed : Order source order) (listed' : Order source' order')
    (fewer : ∀ i value, source' i → write' i = some (key, value) →
      source i ∧ write i = some (key, value)) :
    (∀ order order', Order source order → Order source' order' →
        last key (order'.filterMap write') = last key (order.filterMap write)) ↔
      ∀ i value, source i → write i = some (key, value) →
        (∀ j other, source j → write j = some (key, other) → other = value) ∧
          ∃ j, source' j ∧ write' j = some (key, value) := by
  constructor
  · -- Any source can be the last one of its order.
    intro every i value member written
    have stays : ∀ order', Order source' order' →
        last key (order'.filterMap write') = some value := by
      intro order' held'
      rw [every _ _ (listed.moved member) held', last_filterMap_concat _ written]
    refine ⟨?_, ((every_order_iff listed').mp stays).1⟩
    intro j other member' written'
    have moved := every _ _ (listed.moved member') listed'
    rw [stays _ listed', last_filterMap_concat _ written'] at moved
    exact (Option.some.inj moved).symm
  · intro agree order order' held held'
    cases found : last key (order.filterMap write) with
    | none =>
      rw [last_eq_none_iff] at found ⊢
      intro value written'
      obtain ⟨i, member, wrote⟩ := (mem_writes held').mp written'
      exact found value ((mem_writes held).mpr ⟨i, fewer i value member wrote⟩)
    | some value =>
      obtain ⟨i, member, wrote⟩ := (mem_writes held).mp (mem_of_last found)
      obtain ⟨only, kept⟩ := agree i value member wrote
      apply last_eq_some ((mem_writes held').mpr kept)
      intro other written'
      obtain ⟨j, member', wrote'⟩ := (mem_writes held').mp written'
      obtain ⟨member, wrote⟩ := fewer j other member' wrote'
      exact only j other member wrote

end LastWrite
