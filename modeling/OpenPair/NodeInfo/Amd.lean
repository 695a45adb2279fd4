import OpenPair.Library.FirstOf
import OpenPair.Library.JsonTree

/-! How the fields of AMD's tools are looked up in their output (`amd.rs`).

The search for a key goes depth first and stops at its first value; whether that
is a number or a string is looked at afterwards.
-/

set_option autoImplicit false

namespace OpenPair

open Json

namespace Amd

-- The values of `f64`.
variable {F : Type}

/-! ## The searches -/

def asStr : Json.Tree F → Option String
  | .str s => some s
  | _ => none

def asF64 (ofInt : Whole → F) : Json.Tree F → Option F
  | .num n => some (ofInt n)
  | .float x => some x
  | _ => none

def get (key : String) : Json.Tree F → Option (Json.Tree F)
  | .obj members => members.lookup key
  | _ => none

mutual

def deepFind (key : String) : Json.Tree F → Option (Json.Tree F)
  | .obj members => (members.lookup key).or (deepFindMembers key members)
  | .arr items => deepFindItems key items
  | .null | .bool _ | .num _ | .float _ | .str _ => none

def deepFindMembers (key : String) : List (String × Json.Tree F) → Option (Json.Tree F)
  | [] => none
  | (_, child) :: rest => (deepFind key child).or (deepFindMembers key rest)

def deepFindItems (key : String) : List (Json.Tree F) → Option (Json.Tree F)
  | [] => none
  | child :: rest => (deepFind key child).or (deepFindItems key rest)

end

def findStr (v : Json.Tree F) (keys : List String) : Option String :=
  keys.findSome? fun k => (deepFind k v).bind asStr

def findNum (ofInt : Whole → F) (v : Json.Tree F) (keys : List String) : Option F :=
  keys.findSome? fun k => (deepFind k v).bind fun found =>
    (asF64 ofInt found).or ((get "value" found).bind (asF64 ofInt))

/-! ## What is there to find -/

/-- A key has a value at a place: at the object that the positions of the children
on the way lead to. -/
inductive At (key : String) : List Nat → Json.Tree F → Json.Tree F → Prop where
  | here {members : List (String × Json.Tree F)} {value : Json.Tree F} :
      members.lookup key = some value → At key [] (.obj members) value
  | inMember {members : List (String × Json.Tree F)} {i : Nat} {name : String} {place : List Nat}
      {child value : Json.Tree F} : members[i]? = some (name, child) → At key place child value →
      At key (i :: place) (.obj members) value
  | inItem {items : List (Json.Tree F)} {i : Nat} {place : List Nat} {child value : Json.Tree F} :
      items[i]? = some child → At key place child value → At key (i :: place) (.arr items) value

/-- A key occurs with a value, anywhere in the tree. -/
def Occurs (key : String) (v value : Json.Tree F) : Prop := ∃ place, At key place v value

/-- Depth-first order is the lexicographic order of the places: an object comes before
its children, and what is in a child before the next one. -/
def Before (place other : List Nat) : Prop := List.Lex (· < ·) place other

/-- The first value of a key in depth-first order. -/
def First (key : String) (v value : Json.Tree F) : Prop :=
  ∃ place, At key place v value ∧ ∀ other another, At key other v another → ¬ Before other place

/-- A value, or an object whose member `value` is one. -/
def Wraps {A : Type} (read : Json.Tree F → Option A) (found : Json.Tree F) (a : A) : Prop :=
  read found = some a ∨ ∃ inner, get "value" found = some inner ∧ read inner = some a

def OccursWith {A : Type} (read : Json.Tree F → Option A) (v : Json.Tree F) (key : String) (a : A) : Prop :=
  ∃ found, Occurs key v found ∧ Wraps read found a

variable {key : String} {v value : Json.Tree F}

theorem not_before_nil {place : List Nat} : ¬ Before place [] := List.not_lex_nil

theorem before_cons {i k : Nat} {place other : List Nat} :
    Before (i :: place) (k :: other) ↔ i < k ∨ i = k ∧ Before place other :=
  List.cons_lex_cons_iff

theorem before_succ {i k : Nat} {place other : List Nat} :
    Before ((i + 1) :: place) ((k + 1) :: other) ↔ Before (i :: place) (k :: other) := by
  rw [before_cons, before_cons, Nat.add_lt_add_iff_right, Nat.add_right_cancel_iff]

theorem not_before_head {i : Nat} {place other : List Nat} (least : ¬ Before place other) :
    ¬ Before (i :: place) (i :: other) := by
  rw [before_cons]
  rintro (less | ⟨-, before⟩)
  · exact less.ne rfl
  · exact least before

theorem eq_of_not_before {place other : List Nat} (left : ¬ Before place other)
    (right : ¬ Before other place) : place = other :=
  List.le_antisymm right left

theorem At.unique {place : List Nat} {other : Json.Tree F} (left : At key place v value)
    (right : At key place v other) : value = other := by
  induction left with
  | here own =>
    cases right with
    | here own' => exact Option.some.inj (own.symm.trans own')
  | inMember child _ ih =>
    cases right with
    | inMember child' inner =>
      cases child.symm.trans child'
      exact ih inner
  | inItem child _ ih =>
    cases right with
    | inItem child' inner =>
      cases child.symm.trans child'
      exact ih inner

theorem First.unique {other : Json.Tree F} (left : First key v value) (right : First key v other) :
    value = other := by
  obtain ⟨place, here, least⟩ := left
  obtain ⟨place', here', least'⟩ := right
  cases eq_of_not_before (least' place value here) (least place' other here')
  exact here.unique here'

/-! ## What the search finds -/

theorem deepFindMembers_eq_none {members : List (String × Json.Tree F)}
    (missed : deepFindMembers key members = none) {name : String} {child : Json.Tree F}
    (member : (name, child) ∈ members) : deepFind key child = none := by
  induction members with
  | nil => cases member
  | cons first rest ih =>
    rw [deepFindMembers, Option.or_eq_none_iff] at missed
    rcases List.mem_cons.mp member with rfl | later
    · exact missed.1
    · exact ih missed.2 later

theorem deepFindItems_eq_none {items : List (Json.Tree F)} (missed : deepFindItems key items = none)
    {child : Json.Tree F} (member : child ∈ items) : deepFind key child = none := by
  induction items with
  | nil => cases member
  | cons first rest ih =>
    rw [deepFindItems, Option.or_eq_none_iff] at missed
    rcases List.mem_cons.mp member with rfl | later
    · exact missed.1
    · exact ih missed.2 later

/-- The search misses no key that occurs. -/
theorem nowhere_of_deepFind (missed : deepFind key v = none) {place : List Nat} :
    ¬ At key place v value := by
  intro found
  induction found with
  | here own =>
    rw [deepFind, own] at missed
    cases missed
  | inMember child _ ih =>
    rw [deepFind, Option.or_eq_none_iff] at missed
    exact ih (deepFindMembers_eq_none missed.2 (List.mem_of_getElem? child))
  | inItem child _ ih =>
    rw [deepFind] at missed
    exact ih (deepFindItems_eq_none missed (List.mem_of_getElem? child))

mutual

/-- What the search finds is the first value. -/
theorem first_of_deepFind (v : Json.Tree F) (hit : deepFind key v = some value) : First key v value := by
  match v with
  | .null | .bool _ | .num _ | .float _ | .str _ => simp [deepFind] at hit
  | .arr items =>
    rw [deepFind] at hit
    obtain ⟨i, child, place, member, inside, least⟩ := first_of_deepFindItems items hit
    refine ⟨i :: place, .inItem member inside, ?_⟩
    rintro _ another (_ | _ | ⟨member', inside'⟩)
    exact least _ _ _ _ member' inside'
  | .obj members =>
    rw [deepFind] at hit
    rcases Option.or_eq_some_iff.mp hit with own | ⟨absent, later⟩
    · exact ⟨[], .here own, fun _ _ _ => not_before_nil⟩
    · obtain ⟨i, name, child, place, member, inside, least⟩ := first_of_deepFindMembers members later
      refine ⟨i :: place, .inMember member inside, ?_⟩
      rintro _ another (own | ⟨member', inside'⟩)
      · rw [absent] at own
        cases own
      · exact least _ _ _ _ _ member' inside'

theorem first_of_deepFindMembers (members : List (String × Json.Tree F))
    (hit : deepFindMembers key members = some value) :
    ∃ i name child place, members[i]? = some (name, child) ∧ At key place child value ∧
      ∀ k name' child' other another, members[k]? = some (name', child') →
        At key other child' another → ¬ Before (k :: other) (i :: place) := by
  match members with
  | [] => simp [deepFindMembers] at hit
  | (name, child) :: rest =>
    rw [deepFindMembers] at hit
    rcases Option.or_eq_some_iff.mp hit with own | ⟨missed, later⟩
    · obtain ⟨place, inside, least⟩ := first_of_deepFind child own
      refine ⟨0, name, child, place, rfl, inside, fun k name' child' other another member there => ?_⟩
      cases k with
      | zero =>
        cases member
        exact not_before_head (least other another there)
      | succ k =>
        rw [before_cons]
        rintro (less | ⟨same, -⟩)
        · exact Nat.not_lt_zero _ less
        · exact Nat.succ_ne_zero k same
    · obtain ⟨i, name', child', place, member, inside, least⟩ := first_of_deepFindMembers rest later
      refine ⟨i + 1, name', child', place, member, inside,
        fun k name'' child'' other another member' there => ?_⟩
      cases k with
      | zero =>
        -- Nothing is found in the first child.
        cases member'
        exact absurd there (nowhere_of_deepFind missed)
      | succ k => exact before_succ.not.mpr (least k name'' child'' other another member' there)

theorem first_of_deepFindItems (items : List (Json.Tree F))
    (hit : deepFindItems key items = some value) :
    ∃ i child place, items[i]? = some child ∧ At key place child value ∧
      ∀ k child' other another, items[k]? = some child' → At key other child' another →
        ¬ Before (k :: other) (i :: place) := by
  match items with
  | [] => simp [deepFindItems] at hit
  | child :: rest =>
    rw [deepFindItems] at hit
    rcases Option.or_eq_some_iff.mp hit with own | ⟨missed, later⟩
    · obtain ⟨place, inside, least⟩ := first_of_deepFind child own
      refine ⟨0, child, place, rfl, inside, fun k child' other another member there => ?_⟩
      cases k with
      | zero =>
        cases member
        exact not_before_head (least other another there)
      | succ k =>
        rw [before_cons]
        rintro (less | ⟨same, -⟩)
        · exact Nat.not_lt_zero _ less
        · exact Nat.succ_ne_zero k same
    · obtain ⟨i, child', place, member, inside, least⟩ := first_of_deepFindItems rest later
      refine ⟨i + 1, child', place, member, inside, fun k child'' other another member' there => ?_⟩
      cases k with
      | zero =>
        cases member'
        exact absurd there (nowhere_of_deepFind missed)
      | succ k => exact before_succ.not.mpr (least k child'' other another member' there)

end

theorem deepFind_eq_some_iff : deepFind key v = some value ↔ First key v value := by
  constructor
  · exact first_of_deepFind v
  · intro first
    cases hit : deepFind key v with
    | none =>
      obtain ⟨place, here, -⟩ := first
      exact absurd here (nowhere_of_deepFind hit)
    | some found => rw [(first_of_deepFind v hit).unique first]

/-! ## Numbers and strings -/

/-- The first value of a key is a number or wraps one. -/
def FirstNum (ofInt : Whole → F) (v : Json.Tree F) (key : String) (x : F) : Prop :=
  ∃ found, First key v found ∧ Wraps (asF64 ofInt) found x

/-- The first value of a key is a string itself. -/
def FirstStr (v : Json.Tree F) (key s : String) : Prop := First key v (.str s)

theorem First.occurs (first : First key v value) : Occurs key v value := by
  obtain ⟨place, here, -⟩ := first
  exact ⟨place, here⟩

theorem asStr_eq_some {s : String} : asStr v = some s ↔ v = .str s := by
  cases v <;> simp [asStr]

theorem wraps_iff {ofInt : Whole → F} {x : F} :
    (asF64 ofInt v).or ((get "value" v).bind (asF64 ofInt)) = some x ↔
      Wraps (asF64 ofInt) v x := by
  rw [Option.or_eq_some_iff, Option.bind_eq_some_iff, Wraps]
  cases v <;> simp [asF64, get]

/-- A number is looked up rightly exactly when the first value of the first key
that occurs with one is a number, or a later key happens to give the same; and a
string likewise, where the first value has to be a string itself. -/
theorem lookup_iff (ofInt : Whole → F) (v : Json.Tree F) (keys : List String) :
    (FirstOf.Answers (OccursWith (asF64 ofInt) v) keys (findNum ofInt v keys) ↔
      FirstOf.Covered (OccursWith (asF64 ofInt) v) (FirstNum ofInt v) keys) ∧
    (FirstOf.Answers (OccursWith asStr v) keys (findStr v keys) ↔
      FirstOf.Covered (OccursWith asStr v) (FirstStr v) keys) := by
  constructor
  · apply FirstOf.answers_iff
    · intro key x
      simp only [Option.bind_eq_some_iff, deepFind_eq_some_iff, wraps_iff]
      rfl
    · rintro key x ⟨found, first, number⟩
      exact ⟨found, first.occurs, number⟩
  · apply FirstOf.answers_iff
    · intro key s
      simp only [Option.bind_eq_some_iff, deepFind_eq_some_iff, asStr_eq_some, exists_eq_right]
      rfl
    · intro key s first
      exact ⟨.str s, first.occurs, .inl rfl⟩

def placeholderFirst : Json.Tree Int :=
  .obj [("cache", .obj [("size", .str "N/A")]),
    ("vram", .obj [("size", .obj [("unit", .str "MB"), ("value", .num ⟨196608, by decide, by decide⟩)])])]

def wrappedSerial : Json.Tree Int := .obj [("serial", .obj [("value", .str "SN-1")])]

theorem lookup_missed :
    (findNum Whole.value placeholderFirst ["size"] = none ∧
      OccursWith (asF64 Whole.value) placeholderFirst "size" 196608 ∧
      ¬ FirstOf.Answers (OccursWith (asF64 Whole.value) placeholderFirst) ["size"]
        (findNum Whole.value placeholderFirst ["size"])) ∧
    findStr wrappedSerial ["serial"] = none ∧ OccursWith asStr wrappedSerial "serial" "SN-1" ∧
      ¬ FirstOf.Answers (OccursWith asStr wrappedSerial) ["serial"]
        (findStr wrappedSerial ["serial"]) := by
  have number : findNum Whole.value placeholderFirst ["size"] = none := rfl
  have size : OccursWith (asF64 Whole.value) placeholderFirst "size" 196608 :=
    ⟨_, ⟨_, .inMember (i := 1) rfl (.here rfl)⟩, .inr ⟨_, rfl, rfl⟩⟩
  have string : findStr wrappedSerial ["serial"] = none := rfl
  have serial : OccursWith asStr wrappedSerial "serial" "SN-1" :=
    ⟨_, ⟨_, .here rfl⟩, .inr ⟨_, rfl, rfl⟩⟩
  refine ⟨⟨number, size, fun answers => ?_⟩, string, serial, fun answers => ?_⟩
  · obtain ⟨x, found, -⟩ := answers.value [] "size" [] rfl
      (fun _ none => (List.not_mem_nil none).elim) ⟨_, size⟩
    rw [number] at found
    cases found
  · obtain ⟨s, found, -⟩ := answers.value [] "serial" [] rfl
      (fun _ none => (List.not_mem_nil none).elim) ⟨_, serial⟩
    rw [string] at found
    cases found

end Amd

end OpenPair
