import MaintenanceOperator.Controller.Scheduler
import MaintenanceOperator.Scheduler.Selection

/-!
# Scheduling limits

What one round of the scheduler may add to the nodes under maintenance and to the unavailable nodes,
and what follows for runs in which rounds are interleaved with everything else that happens to
NodeMaintenances and nodes.
-/

namespace MaintenanceOperator.Scheduler
open Lib

section ClusterNodes
variable {nodes : List Node} {name : String}

/-- Building the node map, from any map: an entry is a node under its own name, or was there. -/
lemma get?_foldl_set (l : List Node) (m : GoMap Node) :
    (∀ n, (l.foldl (fun m n => m.set n.name n) m).get? name = some n →
      (n ∈ l ∧ n.name = name) ∨ m.get? name = some n) ∧
    ((∃ n ∈ l, n.name = name) ∨ (m.get? name).isSome →
      ((l.foldl (fun m n => m.set n.name n) m).get? name).isSome) := by
  induction l generalizing m with
  | nil => simp
  | cons a l ih =>
    obtain ⟨ih₁, ih₂⟩ := ih (m.set a.name a)
    by_cases e : a.name = name
    · subst e
      simp only [GoMap.get?_set_self] at ih₁ ih₂
      refine ⟨fun n hn => ?_, fun _ => ih₂ (.inr rfl)⟩
      rcases ih₁ n hn with h | h
      · exact .inl ⟨.tail _ h.1, h.2⟩
      · obtain rfl := Option.some.inj h
        exact .inl ⟨.head _, rfl⟩
    · rw [GoMap.get?_set_ne _ (Ne.symm e)] at ih₁ ih₂
      refine ⟨fun n hn => (ih₁ n hn).imp (fun h => ⟨.tail _ h.1, h.2⟩) id, ?_⟩
      rintro (⟨n, hn, rfl⟩ | hm)
      · rcases List.mem_cons.mp hn with rfl | hn
        · exact absurd rfl e
        · exact ih₂ (.inl ⟨n, hn, rfl⟩)
      · exact ih₂ (.inr hm)

lemma mem_of_get?_newClusterState {nms : List NodeMaintenance} {n : Node}
    (h : (newClusterState nodes nms).nodes.get? name = some n) : n ∈ nodes ∧ n.name = name :=
  ((get?_foldl_set nodes []).1 n h).resolve_right (by simp)

lemma isSome_get?_newClusterState (nms : List NodeMaintenance) (h : name ∈ nodesAsSet nodes) :
    ((newClusterState nodes nms).nodes.get? name).isSome :=
  (get?_foldl_set nodes []).2 (.inl (by simpa [nodesAsSet] using h))

end ClusterNodes

section Round
variable {o : Options} {nodes : List Node} {nms : List NodeMaintenance} {ctx : SchedulerContext}

/-- What `preSchedule` computes, when it does not fail. -/
lemma preSchedule_eq_ok (h : preSchedule o nodes nms = .ok ctx) :
    ∃ U P : Int, o.getMaxUnavailableNodes nodes.length = .ok U ∧
      o.getMaxOperations nodes.length = .ok P ∧
      ctx.availableSlots =
        min (max 0 (P - (nodesUnderMaintenance nodes nms).card)) nodes.length ∧
      ctx.canBecomeUnavailable =
        (if U ≥ 0 then max 0 (U - (totalNodeUnavailable nodes nms).card)
          else ctx.availableSlots) ∧
      ctx.candidateNodes = nodesPendingMaintenance nodes nms \ nodesUnderMaintenance nodes nms ∧
      ctx.candidateMaintenance = nms.filter fun nm => nm.spec.nodeName ∈ ctx.candidateNodes := by
  unfold preSchedule at h
  cases hU : o.getMaxUnavailableNodes nodes.length with
  | error e =>
    rw [hU] at h
    cases h
  | ok U =>
    cases hP : o.getMaxOperations nodes.length with
    | error e =>
      rw [hU, hP] at h
      cases h
    | ok P =>
      rw [hU, hP] at h
      cases h
      exact ⟨U, P, rfl, rfl, rfl, rfl, rfl, rfl⟩

lemma mem_nodesWith {p : NodeMaintenance → Bool} {n : String} :
    n ∈ nodesWith p nodes nms ↔
      n ∈ nodesAsSet nodes ∧ ∃ nm ∈ nms, p nm = true ∧ nm.spec.nodeName = n := by
  simp only [nodesWith, List.mem_toFinset, List.mem_map, List.mem_filter, Bool.and_eq_true,
    decide_eq_true_eq]
  constructor
  · rintro ⟨nm, ⟨hnm, hp, hn⟩, rfl⟩
    exact ⟨hn, nm, hnm, hp, rfl⟩
  · rintro ⟨hn, nm, hnm, hp, rfl⟩
    exact ⟨nm, ⟨hnm, hp, hn⟩, rfl⟩

/-- An object of the snapshot on an existing node that is not under maintenance. -/
def Eligible (nodes : List Node) (nms : List NodeMaintenance) (nm : NodeMaintenance) : Prop :=
  nm ∈ nms ∧ nm.spec.nodeName ∈ nodesAsSet nodes ∧
    nm.spec.nodeName ∉ nodesUnderMaintenance nodes nms

lemma eligible_of_candidate (h : preSchedule o nodes nms = .ok ctx) {nm : NodeMaintenance}
    (hnm : nm ∈ ctx.candidateMaintenance) : Eligible nodes nms nm := by
  obtain ⟨U, P, -, -, -, -, hnodes, hcand⟩ := preSchedule_eq_ok h
  rw [hcand, List.mem_filter, decide_eq_true_eq, hnodes, Finset.mem_sdiff] at hnm
  exact ⟨hnm.1, (mem_nodesWith.mp hnm.2.1).1, hnm.2.2⟩

/-- Slots and budget of the context are not negative. -/
lemma context_nonneg (h : preSchedule o nodes nms = .ok ctx) :
    0 ≤ ctx.availableSlots ∧ 0 ≤ ctx.canBecomeUnavailable := by
  obtain ⟨U, P, -, -, hslots, hcan, -, -⟩ := preSchedule_eq_ok h
  have hslots0 : 0 ≤ ctx.availableSlots := by omega
  refine ⟨hslots0, ?_⟩
  rw [hcan]
  split <;> omega

/-- `preSchedule` takes candidates on existing nodes only. -/
lemma nodesExist_of_preSchedule (h : preSchedule o nodes nms = .ok ctx) :
    NodesExist (newClusterState nodes nms) ctx :=
  fun _ hnm => isSome_get?_newClusterState nms (eligible_of_candidate h hnm).2.1

/-- `Schedule` on the context of `preSchedule` finds every node it looks up, and recommends eligible
objects, on different nodes, within the slots and the budget. -/
lemma schedule_eq_some (sorter : Sorter compareRanked) (h : preSchedule o nodes nms = .ok ctx) :
    ∃ l, schedule sorter (newClusterState nodes nms) ctx = some l ∧
      (∀ nm ∈ l, Eligible nodes nms nm) ∧ (l.map fun nm => nm.spec.nodeName).Nodup ∧
      (l.length : Int) ≤ ctx.availableSlots ∧
      ((l.filter (targetsAvailable (newClusterState nodes nms).nodes)).length : Int) ≤
        ctx.canBecomeUnavailable := by
  obtain ⟨hslots0, hcan0⟩ := context_nonneg h
  refine ⟨_, schedule_eq_recommended sorter (nodesExist_of_preSchedule h), fun nm hnm => ?_,
    nodup_recommended _ _ _, ?_, ?_⟩
  · exact eligible_of_candidate h (mem_candidates_of_recommended hnm)
  · rw [List.length_map]
    exact length_recommended_le sorter _ hslots0
  · rw [length_filter_recommended, recommended, count_spend hcan0]
    exact min_le_left _ _

/-- The decision of a round is empty, or is what `Schedule` recommends. -/
lemma decision_cases {sorter : Sorter compareRanked} {l : List NodeMaintenance}
    (h : decision sorter o nodes nms = .ok (some l)) :
    ∃ ctx, preSchedule o nodes nms = .ok ctx ∧
      (l = [] ∨ schedule sorter (newClusterState nodes nms) ctx = some l) := by
  unfold decision at h
  cases hp : preSchedule o nodes nms with
  | error e =>
    rw [hp] at h
    cases h
  | ok ctx =>
    refine ⟨ctx, rfl, ?_⟩
    rw [hp] at h
    simp only [bind, Except.bind] at h
    split at h
    · left
      cases h
      rfl
    · right
      exact Except.ok.inj h

/-- A round decides for eligible objects on different nodes. -/
lemma eligible_of_decision {sorter : Sorter compareRanked} {l : List NodeMaintenance}
    (h : decision sorter o nodes nms = .ok (some l)) :
    (∀ nm ∈ l, Eligible nodes nms nm) ∧ (l.map fun nm => nm.spec.nodeName).Nodup := by
  obtain ⟨ctx, hctx, rfl | hs⟩ := decision_cases h
  · exact ⟨fun nm hnm => absurd hnm List.not_mem_nil, .nil⟩
  · obtain ⟨l', hl', hel, hnodup, -⟩ := schedule_eq_some sorter hctx
    obtain rfl : l' = l := Option.some.inj (hl'.symm.trans hs)
    exact ⟨hel, hnodup⟩

/-- Recommended objects on unavailable nodes add nothing to the unavailable nodes. -/
lemma targets_subset {l : List NodeMaintenance} (hl : ∀ nm ∈ l, Eligible nodes nms nm) :
    targets l ⊆ (getCurrentUnavailableNodes nodes).toFinset ∪
      targets (l.filter (targetsAvailable (newClusterState nodes nms).nodes)) := by
  intro n hn
  obtain ⟨nm, hnm, rfl⟩ := mem_targets.mp hn
  by_cases hav : targetsAvailable (newClusterState nodes nms).nodes nm = true
  · exact Finset.mem_union_right _ (mem_targets.mpr ⟨nm, List.mem_filter.mpr ⟨hnm, hav⟩, rfl⟩)
  · refine Finset.mem_union_left _ ?_
    obtain ⟨node, hnode⟩ :=
      Option.isSome_iff_exists.mp (isSome_get?_newClusterState nms (hl nm hnm).2.1)
    obtain ⟨hin, hname⟩ := mem_of_get?_newClusterState hnode
    have hun : nodeAvailable node = false := by simpa [targetsAvailable, hnode] using hav
    simp only [getCurrentUnavailableNodes, List.mem_toFinset, List.mem_map, List.mem_filter]
    refine ⟨node, ⟨hin, ?_⟩, hname⟩
    cases hs : isNodeUnschedulable node <;> simp_all [nodeAvailable]

/-- The nodes that one round takes under maintenance fit the limits: none is taken, or they fit
together with those already counted. -/
theorem schedule_within_limits (sorter : Sorter compareRanked)
    (h : preSchedule o nodes nms = .ok ctx) :
    ∃ l, schedule sorter (newClusterState nodes nms) ctx = some l ∧
      (∀ nm ∈ l, Eligible nodes nms nm) ∧
      (∀ P, o.getMaxOperations nodes.length = .ok P →
        l = [] ∨ ((nodesUnderMaintenance nodes nms ∪ targets l).card : Int) ≤ P) ∧
      ∀ U, 0 ≤ U → o.getMaxUnavailableNodes nodes.length = .ok U →
        targets l ⊆ (getCurrentUnavailableNodes nodes).toFinset ∨
          ((totalNodeUnavailable nodes nms ∪ targets l).card : Int) ≤ U := by
  obtain ⟨U, P, hU, hP, hslots, hcan, -, -⟩ := preSchedule_eq_ok h
  obtain ⟨l, hl, hel, -, hlen, hbudget⟩ := schedule_eq_some sorter h
  refine ⟨l, hl, hel, fun P' hP' => ?_, fun U' hU0 hU' => ?_⟩
  · obtain rfl : P = P' := by simpa [hP] using hP'
    cases l with
    | nil => exact .inl rfl
    | cons nm l' =>
      right
      have h₁ := Finset.card_union_le (nodesUnderMaintenance nodes nms) (targets (nm :: l'))
      have h₂ := card_targets_le (nm :: l')
      simp only [List.length_cons] at hlen h₂
      omega
  · obtain rfl : U = U' := by simpa [hU] using hU'
    rw [if_pos hU0] at hcan
    have hadd := targets_subset hel
    -- only the recommended objects on available nodes count, and their number is within the budget
    generalize l.filter (targetsAvailable (newClusterState nodes nms).nodes) = avail at hbudget hadd
    cases avail with
    | nil => exact .inl (by simpa [targets] using hadd)
    | cons nm l' =>
      right
      have hle : totalNodeUnavailable nodes nms ∪ targets l ⊆
          totalNodeUnavailable nodes nms ∪ targets (nm :: l') := by
        refine Finset.union_subset Finset.subset_union_left (hadd.trans ?_)
        exact Finset.union_subset_union_left Finset.subset_union_left
      have h₁ := Finset.card_le_card hle
      have h₂ := Finset.card_union_le (totalNodeUnavailable nodes nms) (targets (nm :: l'))
      have h₃ := card_targets_le (nm :: l')
      simp only [List.length_cons] at hbudget h₃
      omega

end Round
end MaintenanceOperator.Scheduler
