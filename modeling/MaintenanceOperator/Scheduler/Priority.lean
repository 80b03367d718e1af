import Mathlib.Order.Compare
import MaintenanceOperator.Scheduler.Selection

/-!
# Priority of candidates

The documented priority compares requestors first: those with a maintenance in progress, then those
with fewer pending requests (up to a cap), then older requests. The code adds two weights up and
compares sums. Both orders are the same, since the second weight never reaches the first
(`compareRanked_rankOf`). What `Schedule` selects respects this order (`no_priority_inversion`).
-/

namespace MaintenanceOperator.Scheduler
open Lib

/-- The requestor of the object has a maintenance in progress. -/
def requestorInProgress (cs : ClusterState) (nm : NodeMaintenance) : Bool :=
  cs.maintenanceInProgress.any fun o => nm.spec.requestorID = o.spec.requestorID

/-- The number of pending requests of the object's requestor. -/
def requestorPending (cs : ClusterState) (nm : NodeMaintenance) : Nat :=
  cs.maintenancePending.countP fun o => o.spec.requestorID = nm.spec.requestorID

/-- The documented priority, with the remaining keys of `CompareRanked` as tie-break; the higher
priority is the lesser. -/
def comparePriority (cs : ClusterState) (a b : NodeMaintenance) : Ordering :=
  (compare (requestorInProgress cs b) (requestorInProgress cs a)).then <|
  (compare (min 100 (requestorPending cs a)) (min 100 (requestorPending cs b))).then <|
  (compare a.creationTimestamp b.creationTimestamp).then <|
  (compare a.spec.nodeName b.spec.nodeName).then <|
  (compare a.spec.requestorID b.spec.requestorID).then <|
  compare a.key.toStr b.key.toStr

/-- `a` has higher priority than `b`. -/
def Higher (cs : ClusterState) (a b : NodeMaintenance) : Prop := comparePriority cs a b = .lt

instance (cs : ClusterState) (a b : NodeMaintenance) : Decidable (Higher cs a b) :=
  inferInstanceAs (Decidable (_ = _))

/-- `a` is the candidate of its node with the highest priority. -/
def Foremost (cs : ClusterState) (ctx : SchedulerContext) (a : NodeMaintenance) : Prop :=
  a ∈ ctx.candidateMaintenance ∧ ∀ a' ∈ ctx.candidateMaintenance,
    a'.spec.nodeName = a.spec.nodeName → a' = a ∨ Higher cs a a'

section Ranks
variable {cs : ClusterState}

/-- The rank is the sum of two weights. -/
lemma rankOf_rank (cs : ClusterState) (nm : NodeMaintenance) :
    (rankOf cs nm).rank = (if requestorInProgress cs nm then 1000 else 0) +
      (100 - (min 100 (requestorPending cs nm) : Nat)) := by
  have hprogress : (inProgressRanker cs ⟨nm, 0⟩).rank =
      if requestorInProgress cs nm then 1000 else 0 := by
    unfold inProgressRanker requestorInProgress
    split <;> rfl
  have hpending : (cs.maintenancePending.countP fun o =>
      o.spec.requestorID = (inProgressRanker cs ⟨nm, 0⟩).nm.spec.requestorID) =
        requestorPending cs nm := by
    rw [inProgressRanker_nm, requestorPending]
  simp only [rankOf, leastPendingRanker, leastPendingRankerMaxWeight, hprogress, hpending]
  split <;> omega

/-- A sum of weights compares like the pair, as long as the second weight stays below the first. -/
lemma compare_weights {p q : Bool} {x y : Nat} (hx : x ≤ 100) (hy : y ≤ 100) :
    compare ((if q then 1000 else 0) + (100 - (y : Int))) ((if p then 1000 else 0) + (100 - (x : Int))) =
      (compare q p).then (compare x y) := by
  have hsame : ∀ k : Int, compare (k + (100 - (y : Int))) (k + (100 - (x : Int))) = compare x y := by
    intro k
    rcases lt_trichotomy x y with h | rfl | h
    · rw [Nat.compare_eq_lt.mpr h]
      exact compare_lt_iff_lt.mpr (by omega)
    · rw [compare_eq_iff_eq.mpr rfl, compare_eq_iff_eq.mpr rfl]
    · rw [Nat.compare_eq_gt.mpr h]
      exact compare_gt_iff_gt.mpr (by omega)
  cases p <;> cases q
  · exact hsame 0
  · exact compare_gt_iff_gt.mpr (by simp; omega)
  · exact compare_lt_iff_lt.mpr (by simp; omega)
  · exact hsame 1000

/-- `CompareRanked` on the ranks that the rankers give is the documented priority. -/
theorem compareRanked_rankOf (cs : ClusterState) (a b : NodeMaintenance) :
    compareRanked (rankOf cs a) (rankOf cs b) = comparePriority cs a b := by
  rw [compareRanked, rankOf_rank, rankOf_rank, rankOf_nm, rankOf_nm, comparePriority,
    compare_weights (min_le_left _ _) (min_le_left _ _), Ordering.then_assoc]

/-- Objects that compare equal agree in every key. -/
lemma compareRanked_eq {a b : RankedNodeMaintenance} (h : compareRanked a b = .eq) :
    a.rank = b.rank ∧ a.nm.spec.nodeName = b.nm.spec.nodeName ∧
      a.nm.key.toStr = b.nm.key.toStr := by
  simp only [compareRanked, Ordering.then_eq_eq, Std.LawfulEqCmp.compare_eq_iff_eq] at h
  exact ⟨h.1.symm, h.2.2.1, h.2.2.2.2⟩

lemma not_lt_of_isLE {a b : RankedNodeMaintenance} (h : (compareRanked a b).isLE) :
    compareRanked b a ≠ .lt := by
  rw [@Std.OrientedCmp.eq_swap _ compareRanked]
  intro e
  rw [Ordering.swap_eq_lt] at e
  rw [e] at h
  cases h

/-- On different nodes the order is strict. -/
lemma lt_of_isLE_of_ne {a b : RankedNodeMaintenance} (h : (compareRanked a b).isLE)
    (hne : a.nm.spec.nodeName ≠ b.nm.spec.nodeName) : compareRanked a b = .lt := by
  cases hab : compareRanked a b with
  | lt => rfl
  | eq => exact absurd (compareRanked_eq hab).2.1 hne
  | gt =>
    rw [hab] at h
    cases h

end Ranks

section Selected
variable {sorter : Sorter compareRanked} {cs : ClusterState} {ctx : SchedulerContext}

lemma sorted_compacted (sorter : Sorter compareRanked) (cs : ClusterState) (ctx : SchedulerContext) :
    (compacted sorter cs ctx).Pairwise fun a b => (compareRanked a b).isLE :=
  (sorter.sorted _).sublist (compactIdenticalNodes_sublist _ _)

/-- No candidate of its node has higher priority than a representative. -/
lemma isLE_of_mem_compacted {c : RankedNodeMaintenance} (hc : c ∈ compacted sorter cs ctx)
    {nm : NodeMaintenance} (hnm : nm ∈ ctx.candidateMaintenance)
    (hname : nm.spec.nodeName = c.nm.spec.nodeName) : (comparePriority cs c.nm nm).isLE := by
  obtain ⟨c', hc', hname', hle⟩ := exists_mem_compacted sorter cs hnm
  obtain rfl := eq_of_mem_compacted hc' hc (hname'.trans hname)
  obtain ⟨nm', -, rfl⟩ := mem_candidates_of_compacted hc
  rwa [compareRanked_rankOf, ← rankOf_nm cs nm'] at hle

/-- The foremost candidate of a node represents it. -/
lemma Foremost.mem_compacted {a : NodeMaintenance} (h : Foremost cs ctx a)
    (sorter : Sorter compareRanked) : rankOf cs a ∈ compacted sorter cs ctx := by
  obtain ⟨c, hc, hname, hle⟩ := exists_mem_compacted sorter cs h.1
  obtain ⟨a', ha', rfl⟩ := mem_candidates_of_compacted hc
  rw [rankOf_nm] at hname
  rcases h.2 a' ha' hname with rfl | hlt
  · exact hc
  · refine absurd ?_ (not_lt_of_isLE hle)
    rw [compareRanked_rankOf]
    exact hlt

/-- Whatever comes before a considered candidate is considered, too. -/
lemma mem_considered_of_lt {a b : RankedNodeMaintenance} (ha : a ∈ compacted sorter cs ctx)
    (hb : b ∈ considered sorter cs ctx) (hab : compareRanked a b = .lt) :
    a ∈ considered sorter cs ctx := by
  rw [considered_eq] at hb ⊢
  have hsorted := sorted_compacted sorter cs ctx
  rw [← List.take_append_drop ctx.availableSlots.toNat (compacted sorter cs ctx)] at ha hsorted
  refine (List.mem_append.mp ha).resolve_right fun hdrop => ?_
  exact not_lt_of_isLE ((List.pairwise_append.mp hsorted).2.2 b hb a hdrop) hab

/-- A candidate splits the sorted candidates: what comes before it has higher priority, since it is on
another node, and what comes after it has not. -/
lemma priority_split {a : NodeMaintenance} {l₁ l₂ : List RankedNodeMaintenance}
    (hsub : (l₁ ++ rankOf cs a :: l₂).Sublist (compacted sorter cs ctx)) :
    (∀ c ∈ l₁, Higher cs c.nm a) ∧ ∀ c ∈ rankOf cs a :: l₂, ¬ Higher cs c.nm a := by
  have hsorted := List.pairwise_append.mp ((sorted_compacted sorter cs ctx).sublist hsub)
  have hmem : ∀ c ∈ l₁ ++ rankOf cs a :: l₂, ∃ nm, rankOf cs nm = c :=
    fun c hc => (mem_candidates_of_compacted (hsub.subset hc)).imp fun _ h => h.2
  refine ⟨fun c hc => ?_, fun c hc => ?_⟩
  · obtain ⟨nm, rfl⟩ := hmem c (List.mem_append_left _ hc)
    have hnodup := (nodup_compacted sorter cs ctx).sublist (hsub.map _)
    rw [List.map_append, List.nodup_append] at hnodup
    have hne := hnodup.2.2 _ (List.mem_map_of_mem hc) _ (List.mem_map_of_mem (.head _))
    rw [rankOf_nm, Higher, ← compareRanked_rankOf]
    exact lt_of_isLE_of_ne (hsorted.2.2 _ hc _ (.head _)) hne
  · obtain ⟨nm, rfl⟩ := hmem c (List.mem_append_right _ hc)
    rw [rankOf_nm, Higher, ← compareRanked_rankOf]
    refine not_lt_of_isLE ?_
    rcases List.mem_cons.mp hc with hc | hc
    · rw [hc, @Std.ReflCmp.compare_self _ compareRanked]
      rfl
    · exact (List.pairwise_cons.mp hsorted.2.1).1 _ hc

/-- A considered candidate is recommended, or its node is available and recommended candidates with
higher priority on available nodes use up the budget. -/
lemma recommended_or_spent {a : NodeMaintenance} (ha : rankOf cs a ∈ considered sorter cs ctx) :
    rankOf cs a ∈ recommended sorter cs ctx ∨ targetsAvailable cs.nodes a = true ∧
      ((recommended sorter cs ctx).countP (fun c =>
        decide (Higher cs c.nm a) && costsNode cs.nodes c) : Int) = ctx.canBecomeUnavailable := by
  obtain ⟨l₁, l₂, hl⟩ := List.append_of_mem ha
  have hsub : (l₁ ++ rankOf cs a :: l₂).Sublist (compacted sorter cs ctx) := by
    rw [← hl, considered_eq]
    exact List.take_sublist _ _
  obtain ⟨hbefore, hafter⟩ := priority_split hsub
  rw [recommended, hl]
  -- not recommended: the budget was spent before its turn, by candidates of higher priority
  refine (mem_or_spent ctx.canBecomeUnavailable l₁ (rankOf cs a) l₂).imp id fun hover => ?_
  obtain ⟨hcost, hspent⟩ := hover
  refine ⟨by simpa [costsNode] using hcost, ?_⟩
  rw [spend_append, List.countP_append]
  have h₁ : (spend (costsNode cs.nodes) ctx.canBecomeUnavailable l₁).countP (fun c =>
      decide (Higher cs c.nm a) && costsNode cs.nodes c) =
        (spend (costsNode cs.nodes) ctx.canBecomeUnavailable l₁).countP (costsNode cs.nodes) := by
    refine List.countP_congr fun c hc => ?_
    simp [hbefore c ((spend_sublist _ _).subset hc)]
  have h₂ : (spend (costsNode cs.nodes) (ctx.canBecomeUnavailable -
      (spend (costsNode cs.nodes) ctx.canBecomeUnavailable l₁).countP (costsNode cs.nodes))
        (rankOf cs a :: l₂)).countP (fun c =>
          decide (Higher cs c.nm a) && costsNode cs.nodes c) = 0 := by
    refine List.countP_eq_zero.mpr fun c hc => ?_
    simp [hafter c ((spend_sublist _ _).subset hc)]
  rw [h₁, h₂, Nat.add_zero]
  exact hspent

/-- Ranks compare as documented; at most one candidate of each node is recommended, one with the
highest priority there; and a candidate with higher priority than a recommended one is recommended,
too, unless its node is available and the budget is used up by recommended candidates with still
higher priority. -/
theorem no_priority_inversion (sorter : Sorter compareRanked) (hn : NodesExist cs ctx) :
    (∀ a ∈ rankSlice ctx.candidateMaintenance [inProgressRanker cs, leastPendingRanker cs],
      ∀ b ∈ rankSlice ctx.candidateMaintenance [inProgressRanker cs, leastPendingRanker cs],
        compareRanked a b = comparePriority cs a.nm b.nm) ∧
    ∃ l, schedule sorter cs ctx = some l ∧ (l.map fun nm => nm.spec.nodeName).Nodup ∧
      (∀ nm ∈ l, nm ∈ ctx.candidateMaintenance ∧ ∀ a ∈ ctx.candidateMaintenance,
        a.spec.nodeName = nm.spec.nodeName → (comparePriority cs nm a).isLE) ∧
      ∀ a b, Foremost cs ctx a → b ∈ l → a.spec.nodeName ≠ b.spec.nodeName → Higher cs a b →
        a ∈ l ∨ targetsAvailable cs.nodes a = true ∧
          ((l.filter fun nm => decide (Higher cs nm a) && targetsAvailable cs.nodes nm).length : Int) =
            ctx.canBecomeUnavailable := by
  refine ⟨fun a ha b hb => ?_, _, schedule_eq_recommended sorter hn, nodup_recommended _ _ _, ?_, ?_⟩
  · rw [rankSlice_eq] at ha hb
    obtain ⟨a, -, rfl⟩ := List.mem_map.mp ha
    obtain ⟨b, -, rfl⟩ := List.mem_map.mp hb
    rw [compareRanked_rankOf, rankOf_nm, rankOf_nm]
  · intro nm hnm
    refine ⟨mem_candidates_of_recommended hnm, fun a ha hname => ?_⟩
    obtain ⟨c, hc, rfl⟩ := List.mem_map.mp hnm
    exact isLE_of_mem_compacted ((recommended_sublist _ _ _).subset hc) ha hname
  · intro a b hfore hb _ hab
    obtain ⟨c, hc, rfl⟩ := List.mem_map.mp hb
    obtain ⟨b, -, rfl⟩ := mem_candidates_of_compacted ((recommended_sublist _ _ _).subset hc)
    rw [rankOf_nm, Higher, ← compareRanked_rankOf] at hab
    have hcons := mem_considered_of_lt (hfore.mem_compacted sorter) ((spend_sublist _ _).subset hc) hab
    refine (recommended_or_spent hcons).imp (fun h => ?_) fun h => ⟨h.1, ?_⟩
    · rw [← rankOf_nm cs a]
      exact List.mem_map_of_mem h
    · rw [List.filter_map, List.length_map, ← List.countP_eq_length_filter]
      exact h.2

end Selected

/-- Of two requests the older one has higher priority; it is passed over for the other one since its
node is available and none may become unavailable. -/
theorem no_priority_inversion_half_cordoned :
    NodesExist halfCordoned (frozen 2) ∧
    ∃ l, schedule (Sorter.insertion compareRanked) halfCordoned (frozen 2) = some l ∧
      pendingRequest "nm-2" "node-2" 2 ∈ l ∧
      Higher halfCordoned (pendingRequest "nm-1" "node-1" 1) (pendingRequest "nm-2" "node-2" 2) ∧
      (pendingRequest "nm-1" "node-1" 1 ∈ l ∨
        targetsAvailable halfCordoned.nodes (pendingRequest "nm-1" "node-1" 1) = true ∧
        ((l.filter fun nm => decide (Higher halfCordoned nm (pendingRequest "nm-1" "node-1" 1)) &&
          targetsAvailable halfCordoned.nodes nm).length : Int) = 0) := by
  have hexist : NodesExist halfCordoned (frozen 2) := by
    unfold NodesExist
    decide +kernel
  have hfore : Foremost halfCordoned (frozen 2) (pendingRequest "nm-1" "node-1" 1) := by
    unfold Foremost
    decide +kernel
  have hhigher : Higher halfCordoned (pendingRequest "nm-1" "node-1" 1)
      (pendingRequest "nm-2" "node-2" 2) := by decide +kernel
  obtain ⟨l, hl, -, -, hinv⟩ :=
    (no_priority_inversion (Sorter.insertion compareRanked) hexist).2
  have hb : pendingRequest "nm-2" "node-2" 2 ∈ l := by
    have hmem : (schedule (Sorter.insertion compareRanked) halfCordoned (frozen 2)).any
        (pendingRequest "nm-2" "node-2" 2 ∈ ·) = true := by decide +kernel
    simpa [hl] using hmem
  exact ⟨hexist, l, hl, hb, hhigher, hinv _ _ hfore hb (by decide) hhigher⟩

end MaintenanceOperator.Scheduler
