import OpenPair.Proxy.Routing

/-! What `select` can choose, over every order of the candidates (`router.rs`).

The order of precedence is a property of the candidates as a set. It leaves one
candidate only where no two of them tie; where they tie, the one that is
enumerated first is chosen.
-/

set_option autoImplicit false

namespace OpenPair

/-! ## The first of several least elements -/

section

variable {α β : Type} [LinearOrder β] {key : α → β}

theorem argmin_first {a : α} {front rest : List α} (above : ∀ b ∈ front, key a < key b)
    (least : ∀ b ∈ rest, key a ≤ key b) : (front ++ a :: rest).argmin key = some a := by
  -- By induction on what stands in front, all of which is greater.
  induction front with
  | nil =>
    rw [List.nil_append, List.argmin_cons]
    cases found : rest.argmin key with
    | none => rfl
    | some b => exact if_neg (not_lt.mpr (least b (List.argmin_mem found)))
  | cons b front ih =>
    rw [List.cons_append, List.argmin_cons, ih fun other member => above other (.tail b member)]
    exact if_pos (above b (.head front))

end

/-! ## Precedence -/

namespace Candidate

def ranked (candidate : Candidate) : Bool := candidate.priorityRank.isSome

def rank (candidate : Candidate) : Nat := (candidate.priorityRank.getD 0).toNat

end Candidate

def Eligible (candidates : List Candidate) (candidate : Candidate) : Prop :=
  candidate ∈ candidates ∧ candidate.eligible = true

/-- No candidate that can be chosen has this property. -/
def NoneIs (p : Candidate → Bool) (candidates : List Candidate) : Prop :=
  ∀ other, Eligible candidates other → p other = false

/-- A candidate to which no other is to be preferred. -/
inductive Preferred (candidates : List Candidate) (candidate : Candidate) : Prop where
  | manual (eligible : Eligible candidates candidate) (manual : candidate.manuallySelected = true)
  | ranked (eligible : Eligible candidates candidate)
      (unselected : NoneIs Candidate.manuallySelected candidates)
      (ranked : candidate.ranked = true)
      (lowest : ∀ other, Eligible candidates other → other.ranked = true →
        candidate.rank ≤ other.rank)
  | self (eligible : Eligible candidates candidate)
      (unselected : NoneIs Candidate.manuallySelected candidates)
      (unranked : NoneIs Candidate.ranked candidates) (self : candidate.isSelf = true)
  | least (eligible : Eligible candidates candidate)
      (unselected : NoneIs Candidate.manuallySelected candidates)
      (unranked : NoneIs Candidate.ranked candidates)
      (remote : NoneIs Candidate.isSelf candidates)
      (least : ∀ other, Eligible candidates other → candidate.nodeId ≤ other.nodeId)

section

variable {candidates other : List Candidate} {candidate : Candidate}

theorem mem_eligible : candidate ∈ candidates.filter Candidate.eligible ↔
    Eligible candidates candidate := List.mem_filter

theorem Preferred.eligible (preferred : Preferred candidates candidate) :
    Eligible candidates candidate := by
  cases preferred <;> assumption

theorem Eligible.perm (order : other.Perm candidates) :
    Eligible other candidate ↔ Eligible candidates candidate :=
  and_congr_left' order.mem_iff

theorem NoneIs.perm {p : Candidate → Bool} (order : other.Perm candidates) :
    NoneIs p other ↔ NoneIs p candidates :=
  forall_congr' fun _ => imp_congr_left (Eligible.perm order)

theorem Preferred.perm (order : other.Perm candidates)
    (preferred : Preferred other candidate) : Preferred candidates candidate := by
  cases preferred with
  | manual eligible manual => exact .manual ((Eligible.perm order).mp eligible) manual
  | ranked eligible unselected ranked lowest =>
    exact .ranked ((Eligible.perm order).mp eligible) ((NoneIs.perm order).mp unselected) ranked
      fun peer found => lowest peer ((Eligible.perm order).mpr found)
  | self eligible unselected unranked self =>
    exact .self ((Eligible.perm order).mp eligible) ((NoneIs.perm order).mp unselected)
      ((NoneIs.perm order).mp unranked) self
  | least eligible unselected unranked remote least =>
    exact .least ((Eligible.perm order).mp eligible) ((NoneIs.perm order).mp unselected)
      ((NoneIs.perm order).mp unranked) ((NoneIs.perm order).mp remote)
      fun peer found => least peer ((Eligible.perm order).mpr found)

theorem select_eq (candidates : List Candidate) :
    select candidates =
      ((candidates.filter Candidate.eligible).find? Candidate.manuallySelected).or
        ((((candidates.filter Candidate.eligible).filter Candidate.ranked).argmin
          Candidate.rank).or
          (((candidates.filter Candidate.eligible).find? Candidate.isSelf).or
            ((candidates.filter Candidate.eligible).argmin Candidate.nodeId))) := by
  unfold select Candidate.ranked Candidate.rank
  by_cases empty : (candidates.filter Candidate.eligible).isEmpty
  · rw [if_pos empty, List.isEmpty_iff.mp empty]
    rfl
  · rw [if_neg empty]
    cases (candidates.filter Candidate.eligible).find? Candidate.manuallySelected with
    | some candidate => rfl
    | none =>
      cases ((candidates.filter Candidate.eligible).filter fun candidate =>
          candidate.priorityRank.isSome).argmin
          fun candidate => (candidate.priorityRank.getD 0).toNat with
      | some candidate => rfl
      | none =>
        cases (candidates.filter Candidate.eligible).find? Candidate.isSelf with
        | some candidate => rfl
        | none => rfl

theorem find_noneIs {p : Candidate → Bool} :
    (candidates.filter Candidate.eligible).find? p = none ↔ NoneIs p candidates := by
  simp only [List.find?_eq_none, mem_eligible, NoneIs, Bool.not_eq_true]

theorem argmin_noneIs {p : Candidate → Bool} {key : Candidate → Nat} :
    ((candidates.filter Candidate.eligible).filter p).argmin key = none ↔ NoneIs p candidates := by
  simp only [List.argmin_eq_none, List.filter_eq_nil_iff, mem_eligible, NoneIs, Bool.not_eq_true]

theorem select_eq_none_iff :
    select candidates = none ↔ ∀ candidate, ¬ Eligible candidates candidate := by
  rw [select_eq, Option.or_eq_none_iff, Option.or_eq_none_iff, Option.or_eq_none_iff,
    List.argmin_eq_none, List.argmin_eq_none]
  constructor
  · rintro ⟨-, -, -, empty⟩ candidate eligible
    rw [← mem_eligible, empty] at eligible
    cases eligible
  · intro none
    have empty : candidates.filter Candidate.eligible = [] :=
      List.eq_nil_iff_forall_not_mem.mpr fun candidate member => none candidate (mem_eligible.mp member)
    simp only [empty, List.find?_nil, List.filter_nil, and_self]

/-- What is chosen is a candidate to which no other is preferred. -/
theorem select_preferred (chosen : select candidates = some candidate) :
    Preferred candidates candidate := by
  rw [select_eq, Option.or_eq_some_iff] at chosen
  rcases chosen with manual | ⟨unselected, chosen⟩
  · exact .manual (mem_eligible.mp (List.mem_of_find?_eq_some manual)) (List.find?_some manual)
  -- Whatever is left has passed over the rules before it.
  rw [find_noneIs] at unselected
  rw [Option.or_eq_some_iff] at chosen
  rcases chosen with ranked | ⟨unranked, chosen⟩
  · have member := List.mem_filter.mp (List.argmin_mem ranked)
    refine .ranked (mem_eligible.mp member.1) unselected member.2 fun other found is => ?_
    exact List.le_of_mem_argmin (List.mem_filter.mpr ⟨mem_eligible.mpr found, is⟩) ranked
  rw [argmin_noneIs] at unranked
  rw [Option.or_eq_some_iff] at chosen
  rcases chosen with self | ⟨remote, least⟩
  · exact .self (mem_eligible.mp (List.mem_of_find?_eq_some self)) unselected unranked
      (List.find?_some self)
  · refine .least (mem_eligible.mp (List.argmin_mem least)) unselected unranked
      (find_noneIs.mp remote) fun other found => ?_
    exact List.le_of_mem_argmin (mem_eligible.mpr found) least

end

/-! ## The first preferred candidate -/

/-- Of the candidates to which no other is preferred, the first one is chosen. -/
theorem select_first {front rest : List Candidate} {candidate : Candidate}
    (preferred : Preferred (front ++ candidate :: rest) candidate)
    (before : ∀ other ∈ front, ¬ Preferred (front ++ candidate :: rest) other) :
    select (front ++ candidate :: rest) = some candidate := by
  have mine := preferred.eligible.2
  have ahead {other : Candidate} (member : other ∈ front.filter Candidate.eligible) :
      other ∈ front ∧ Eligible (front ++ candidate :: rest) other :=
    have inside := List.mem_filter.mp member
    ⟨inside.1, List.mem_append_left _ inside.1, inside.2⟩
  have behind {other : Candidate} (member : other ∈ rest.filter Candidate.eligible) :
      Eligible (front ++ candidate :: rest) other :=
    have inside := List.mem_filter.mp member
    ⟨List.mem_append_right _ (.tail _ inside.1), inside.2⟩
  have split : (front ++ candidate :: rest).filter Candidate.eligible =
      front.filter Candidate.eligible ++ candidate :: rest.filter Candidate.eligible := by
    rw [List.filter_append, List.filter_cons_of_pos mine]
  rw [select_eq, Option.or_eq_some_iff]
  -- Were the rule met further in front, that candidate would be preferred there as well.
  cases preferred with
  | manual eligible manual =>
    left
    have none : (front.filter Candidate.eligible).find? Candidate.manuallySelected = none :=
      List.find?_eq_none.mpr fun other member is =>
        before other (ahead member).1 (.manual (ahead member).2 is)
    rw [split, List.find?_append, none, Option.none_or, List.find?_cons_of_pos manual]
  | ranked eligible unselected ranked lowest =>
    right
    refine ⟨find_noneIs.mpr unselected, ?_⟩
    rw [split, List.filter_append, List.filter_cons_of_pos ranked, argmin_first, Option.some_or]
    · intro other member
      have inside := List.mem_filter.mp member
      refine not_le.mp fun lower => before other (ahead inside.1).1 ?_
      exact .ranked (ahead inside.1).2 unselected inside.2 fun peer found is =>
        lower.trans (lowest peer found is)
    · intro other member
      have inside := List.mem_filter.mp member
      exact lowest other (behind inside.1) inside.2
  | self eligible unselected unranked self =>
    right
    refine ⟨find_noneIs.mpr unselected, ?_⟩
    have none : (front.filter Candidate.eligible).find? Candidate.isSelf = none :=
      List.find?_eq_none.mpr fun other member is =>
        before other (ahead member).1 (.self (ahead member).2 unselected unranked is)
    rw [argmin_noneIs.mpr unranked, Option.none_or, split, List.find?_append, none,
      Option.none_or, List.find?_cons_of_pos self, Option.some_or]
  | least eligible unselected unranked remote least =>
    right
    refine ⟨find_noneIs.mpr unselected, ?_⟩
    rw [argmin_noneIs.mpr unranked, Option.none_or, find_noneIs.mpr remote, Option.none_or, split]
    apply argmin_first
    · intro other member
      refine not_le.mp fun lower => before other (ahead member).1 ?_
      exact .least (ahead member).2 unselected unranked remote fun peer found =>
        lower.trans (least peer found)
    · intro other member
      exact least other (behind member)

end OpenPair
