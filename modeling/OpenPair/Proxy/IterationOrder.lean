import OpenPair.Proxy.RoutingRuns

/-! Whether the chosen node depends on the order in which candidates are enumerated.

The peers come from a hash map. Whoever is preferred is chosen in some order of
the candidates, so the choice is free of the order exactly where one candidate
is preferred. The least id is always one candidate's; the other rules have ties.
-/

set_option autoImplicit false

namespace OpenPair

section

variable (candidates : List Candidate)

/-- Of the candidates that can be chosen, at most one has this property. -/
def AtMostOne (p : Candidate → Prop) : Prop :=
  ∀ a b, Eligible candidates a → Eligible candidates b → p a → p b → a = b

/-- A rank below which no other candidate is ranked. -/
def Lowest (candidate : Candidate) : Prop :=
  candidate.ranked = true ∧
    ∀ other, Eligible candidates other → other.ranked = true → candidate.rank ≤ other.rank

/-- No two candidates tie under the rule that decides. -/
structure Untied : Prop where
  manual : AtMostOne candidates fun candidate => candidate.manuallySelected = true
  ranked : NoneIs Candidate.manuallySelected candidates → AtMostOne candidates (Lowest candidates)
  self : NoneIs Candidate.manuallySelected candidates → NoneIs Candidate.ranked candidates →
    AtMostOne candidates fun candidate => candidate.isSelf = true

instance (p : Candidate → Prop) [DecidablePred p] :
    Decidable (∀ candidate, Eligible candidates candidate → p candidate) :=
  decidable_of_iff (∀ candidate ∈ candidates.filter Candidate.eligible, p candidate)
    (forall_congr' fun _ => imp_congr_left mem_eligible)

instance (p : Candidate → Bool) : Decidable (NoneIs p candidates) :=
  inferInstanceAs (Decidable (∀ other, Eligible candidates other → p other = false))

instance (p : Candidate → Prop) [DecidablePred p] : Decidable (AtMostOne candidates p) :=
  decidable_of_iff
    (∀ a, Eligible candidates a → ∀ b, Eligible candidates b → p a → p b → a = b)
    ⟨fun one a b fa fb => one a fa b fb, fun one a fa b fb => one a b fa fb⟩

instance : DecidablePred (Lowest candidates) := fun candidate =>
  inferInstanceAs (Decidable (candidate.ranked = true ∧ _))

instance : Decidable (Untied candidates) :=
  decidable_of_iff
    ((AtMostOne candidates fun candidate => candidate.manuallySelected = true) ∧
      (NoneIs Candidate.manuallySelected candidates → AtMostOne candidates (Lowest candidates)) ∧
      (NoneIs Candidate.manuallySelected candidates → NoneIs Candidate.ranked candidates →
        AtMostOne candidates fun candidate => candidate.isSelf = true))
    ⟨fun rules => ⟨rules.1, rules.2.1, rules.2.2⟩,
      fun untied => ⟨untied.manual, untied.ranked, untied.self⟩⟩

end

def Distinct (candidates : List Candidate) : Prop :=
  ∀ a ∈ candidates, ∀ b ∈ candidates, a.nodeId = b.nodeId → a.isSelf = b.isSelf → a = b

section

variable {candidates : List Candidate} {a b : Candidate}

theorem distinct_of_nodup (nodup : (candidates.map Candidate.nodeId).Nodup) :
    Distinct candidates :=
  fun _ left _ right same _ => List.inj_on_of_nodup_map nodup left right same

theorem Untied.unique (untied : Untied candidates) (distinct : Distinct candidates)
    (left : Preferred candidates a) (right : Preferred candidates b) : a = b := by
  have fa := left.eligible
  have fb := right.eligible
  -- Two different rules exclude each other: the later one needs that the earlier is met nowhere.
  cases left with
  | manual _ manual =>
    cases right with
    | manual _ manual' => exact untied.manual a b fa fb manual manual'
    | ranked _ unselected | self _ unselected | least _ unselected =>
      exact absurd manual (Bool.eq_false_iff.mp (unselected a fa))
  | ranked _ unselected ranked lowest =>
    cases right with
    | manual _ manual => exact absurd manual (Bool.eq_false_iff.mp (unselected b fb))
    | ranked _ _ ranked' lowest' =>
      exact untied.ranked unselected a b fa fb ⟨ranked, lowest⟩ ⟨ranked', lowest'⟩
    | self _ _ unranked | least _ _ unranked =>
      exact absurd ranked (Bool.eq_false_iff.mp (unranked a fa))
  | self _ unselected unranked self =>
    cases right with
    | manual _ manual => exact absurd manual (Bool.eq_false_iff.mp (unselected b fb))
    | ranked _ _ ranked => exact absurd ranked (Bool.eq_false_iff.mp (unranked b fb))
    | self _ _ _ self' => exact untied.self unselected unranked a b fa fb self self'
    | least _ _ _ remote => exact absurd self (Bool.eq_false_iff.mp (remote a fa))
  | least _ unselected unranked remote least =>
    cases right with
    | manual _ manual => exact absurd manual (Bool.eq_false_iff.mp (unselected b fb))
    | ranked _ _ ranked => exact absurd ranked (Bool.eq_false_iff.mp (unranked b fb))
    | self _ _ _ self => exact absurd self (Bool.eq_false_iff.mp (remote b fb))
    | least _ _ _ _ least' =>
      exact distinct a fa.1 b fb.1 (le_antisymm (least b fb) (least' a fa))
        ((remote a fa).trans (remote b fb).symm)

/-- Nothing ties exactly where one candidate is preferred to all others. -/
theorem untied_iff (distinct : Distinct candidates) :
    Untied candidates ↔ ∀ a b, Preferred candidates a → Preferred candidates b → a = b := by
  constructor
  · intro untied a b left right
    exact untied.unique distinct left right
  · intro unique
    constructor
    · intro a b fa fb left right
      exact unique a b (.manual fa left) (.manual fb right)
    · intro unselected a b fa fb left right
      exact unique a b (.ranked fa unselected left.1 left.2) (.ranked fb unselected right.1 right.2)
    · intro unselected unranked a b fa fb left right
      exact unique a b (.self fa unselected unranked left) (.self fb unselected unranked right)

/-- Whoever is preferred is chosen in some order, and no one else in any. -/
theorem chosen_iff : (∃ other : List Candidate, other.Perm candidates ∧ select other = some a) ↔
    Preferred candidates a := by
  constructor
  · rintro ⟨other, order, chosen⟩
    exact (select_preferred chosen).perm order
  · intro preferred
    -- At the head of the list a preferred candidate has nothing in front of it.
    obtain ⟨front, rest, rfl⟩ := List.append_of_mem preferred.eligible.1
    have chosen : select ([] ++ a :: (front ++ rest)) = some a :=
      select_first (preferred.perm List.perm_middle) fun _ wrong =>
        (List.not_mem_nil wrong).elim
    exact ⟨a :: (front ++ rest), List.perm_middle.symm, chosen⟩

theorem select_perm_of_untied {other : List Candidate} (untied : Untied candidates)
    (distinct : Distinct candidates) (order : other.Perm candidates) :
    select other = select candidates := by
  cases chosen : select candidates with
  | none =>
    rw [select_eq_none_iff] at chosen ⊢
    exact fun candidate found => chosen candidate ((Eligible.perm order).mp found)
  | some candidate =>
    cases chosen' : select other with
    | none =>
      rw [select_eq_none_iff] at chosen'
      have found := (select_preferred chosen).eligible
      exact (chosen' candidate ((Eligible.perm order).mpr found)).elim
    | some candidate' =>
      have left := (select_preferred chosen').perm order
      exact congrArg some (untied.unique distinct left (select_preferred chosen))

end

/-! ## Tables -/

namespace RoutingTable

variable {table : RoutingTable} {localId backend : String} {history : List RoutingOp}
  {model : Option String} {candidate : Candidate}

theorem Reordered.candidatesFor {other : RoutingTable} (same : other.Reordered table) :
    (other.candidatesFor model backend).Perm (table.candidatesFor model backend) := by
  have first : other.localCandidate model backend = table.localCandidate model backend := by
    rw [localCandidate, localCandidate, same.localModels, same.localId]
  unfold RoutingTable.candidatesFor
  rw [first]
  refine .cons _ ?_
  cases model with
  | none => exact .refl _
  | some m => exact same.peers.map _

theorem Keeps.distinct (keeps : table.Keeps localId history) :
    Distinct (table.candidatesFor model backend) := by
  intro a left b right same kind
  rcases mem_candidatesFor.mp left with rfl | ⟨m, nodeId, peer, asked, found, rfl⟩
  · rcases mem_candidatesFor.mp right with rfl | ⟨m, nodeId, peer, asked, found, rfl⟩
    · rfl
    · cases kind
  · rcases mem_candidatesFor.mp right with rfl | ⟨m', nodeId', peer', asked', found', rfl⟩
    · cases kind
    · have named := (keeps.peers nodeId).named peer found
      have named' := (keeps.peers nodeId').named peer' found'
      have key : nodeId = nodeId' := named.symm.trans (same.trans named')
      rw [asked, Option.some.injEq] at asked'
      rw [key, found', Option.some.injEq] at found
      rw [asked', found]

theorem local_not_preferred {m : String} {peer : PeerEntry}
    (preferred : Preferred (table.candidatesFor model backend) (peer.candidate m)) :
    ¬ Preferred (table.candidatesFor model backend) (table.localCandidate model backend) := by
  have found := preferred.eligible
  intro self
  have here := self.eligible
  cases self with
  | manual _ manual => cases manual
  | ranked _ _ ranked => cases ranked
  | self _ unselected unranked =>
    cases preferred with
    | manual _ manual => exact absurd manual (Bool.eq_false_iff.mp (unselected _ found))
    | ranked _ _ ranked => exact absurd ranked (Bool.eq_false_iff.mp (unranked _ found))
    | self _ _ _ self => cases self
    | least _ _ _ remote => cases remote _ here
  | least _ _ _ remote => cases remote _ here

theorem exists_order (preferred : Preferred (table.candidatesFor model backend) candidate) :
    ∃ other : RoutingTable, other.Reordered table ∧
      select (other.candidatesFor model backend) = some candidate := by
  rcases mem_candidatesFor.mp preferred.eligible.1 with rfl | ⟨m, nodeId, peer, rfl, found, rfl⟩
  · have chosen : select ([] ++ table.candidatesFor model backend) = _ :=
      select_first preferred fun _ wrong => (List.not_mem_nil wrong).elim
    exact ⟨table, .refl table, chosen⟩
  · -- The peer is moved to the front of the map.
    obtain ⟨front, rest, split⟩ := List.append_of_mem (AList.mem_lookup_iff.mp found)
    have order : (⟨nodeId, peer⟩ :: (front ++ rest)).Perm table.peers.entries := by
      rw [split]
      exact List.perm_middle.symm
    let other : RoutingTable :=
      { table with peers := ⟨_, (List.perm_nodupKeys order).mpr table.peers.nodupKeys⟩ }
    have same : other.Reordered table := ⟨rfl, rfl, order⟩
    have moved := preferred.perm same.candidatesFor.symm
    refine ⟨other, same, ?_⟩
    have chosen : select ([other.localCandidate (some m) backend] ++
        peer.candidate m :: (front ++ rest).map fun peer => peer.2.candidate m) =
          some (peer.candidate m) :=
      select_first moved fun ahead member => by
        rw [List.mem_singleton.mp member]
        exact local_not_preferred moved
    exact chosen

end RoutingTable

/-- Candidates that are other nodes are chosen from alike in every order exactly
where no two of them tie; the same holds of the peers of every routing table. -/
theorem selection_order_free_iff {candidates : List Candidate}
    (nodup : (candidates.map Candidate.nodeId).Nodup) {localId : String}
    {history : List RoutingOp} {table : RoutingTable} (same : table.Reordered (.after localId history))
    (model : Option String) (backend : String) :
    ((∀ other : List Candidate, other.Perm candidates →
        (select other).map Candidate.nodeId = (select candidates).map Candidate.nodeId) ↔
      Untied candidates) ∧
    ((∀ other : RoutingTable, other.Reordered table →
        (select (other.candidatesFor model backend)).map Candidate.target =
          (select (table.candidatesFor model backend)).map Candidate.target) ↔
      Untied (table.candidatesFor model backend)) := by
  constructor
  · have distinct := distinct_of_nodup nodup
    constructor
    · intro free
      rw [untied_iff distinct]
      intro a b left right
      -- Each of the two is chosen in some order, and every order chooses one node.
      obtain ⟨first, order, chosen⟩ := chosen_iff.mpr left
      obtain ⟨second, order', chosen'⟩ := chosen_iff.mpr right
      have same := (free first order).trans (free second order').symm
      rw [chosen, chosen', Option.map_some, Option.map_some, Option.some.injEq] at same
      exact List.inj_on_of_nodup_map nodup left.eligible.1 right.eligible.1 same
    · intro untied other order
      rw [select_perm_of_untied untied distinct order]
  · have keeps := same.keeps (RoutingTable.after_keeps localId history)
    have distinct : Distinct (table.candidatesFor model backend) := keeps.distinct
    constructor
    · intro free
      rw [untied_iff distinct]
      intro a b left right
      obtain ⟨first, order, chosen⟩ := RoutingTable.exists_order left
      obtain ⟨second, order', chosen'⟩ := RoutingTable.exists_order right
      have agree := (free first order).trans (free second order').symm
      rw [chosen, chosen', Option.map_some, Option.map_some, Option.some.injEq] at agree
      have left' := keeps.shows left.eligible.1
      have right' := keeps.shows right.eligible.1
      refine distinct a left.eligible.1 b right.eligible.1 ?_ (Bool.eq_iff_iff.mpr ?_)
      · rw [left'.nodeId, right'.nodeId, agree]
      · rw [left'.self, right'.self, agree]
    · intro untied other order
      rw [select_perm_of_untied untied distinct order.candidatesFor]

namespace Reference

def tiedPeers : List RoutingOp :=
  [.setPeerPriority "b" (some 1), .setPeerPriority "a" (some 1),
    .setPeerModels "b" ["llama3"], .upsertPeerMeta "b" "10.0.0.6" 9443 true,
    .setPeerModels "a" ["llama3"], .upsertPeerMeta "a" "10.0.0.5" 9443 true]

def tiedCandidates : List Candidate :=
  (RoutingTable.after "self" tiedPeers).candidatesFor (some "llama3") "127.0.0.1:11434"

def rankedCandidates : List Candidate :=
  (RoutingTable.after "self" rankedPeers).candidatesFor (some "llama3") "127.0.0.1:11434"

end Reference

/-- Where the ranks differ, the other order gives the same node. -/
theorem selection_order_free_ranked :
    (select Reference.rankedCandidates.reverse).map Candidate.nodeId =
      (select Reference.rankedCandidates).map Candidate.nodeId := by
  have nodup : (Reference.rankedCandidates.map Candidate.nodeId).Nodup := by decide
  have same := RoutingTable.Reordered.refl (.after "self" Reference.rankedPeers)
  have free := (selection_order_free_iff nodup same none "").1.mpr (by decide)
  exact free _ (List.reverse_perm _)

/-- Of two peers of one rank the one that is enumerated first is chosen. -/
theorem selection_follows_order :
    (Reference.tiedCandidates.map Candidate.nodeId).Nodup ∧
      Reference.tiedCandidates.reverse.Perm Reference.tiedCandidates ∧
      (select Reference.tiedCandidates.reverse).map Candidate.nodeId ≠
        (select Reference.tiedCandidates).map Candidate.nodeId := by
  refine ⟨?_, List.reverse_perm _, ?_⟩ <;> decide

end OpenPair
