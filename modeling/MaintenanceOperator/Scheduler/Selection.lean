import MaintenanceOperator.Lib.Budget
import MaintenanceOperator.Scheduler.DefaultScheduler

/-!
# What `Schedule` selects

`Schedule` as a composition: ranking maps a function over the candidates, compaction keeps the first
candidate of each node, and the loop is a selection under a budget (`schedule_eq_recommended`). The
loop stops looking after as many candidates as there are slots, whether it took them or passed them
over. So a slot may stay unused while a candidate waits on a node that is unavailable anyway
(`work_conserving_iff`).
-/

namespace MaintenanceOperator.Scheduler
open Lib

/-- Node names of a list of NodeMaintenances. -/
def targets (l : List NodeMaintenance) : Finset String :=
  (l.map fun nm => nm.spec.nodeName).toFinset

lemma mem_targets {l : List NodeMaintenance} {n : String} :
    n ∈ targets l ↔ ∃ nm ∈ l, nm.spec.nodeName = n := by
  simp [targets]

lemma card_targets_le (l : List NodeMaintenance) : (targets l).card ≤ l.length :=
  (List.toFinset_card_le _).trans_eq (List.length_map _)

section Pipeline
variable {sorter : Sorter compareRanked} {cs : ClusterState} {ctx : SchedulerContext}

lemma inProgressRanker_nm (cs : ClusterState) (rnm : RankedNodeMaintenance) :
    (inProgressRanker cs rnm).nm = rnm.nm := by
  unfold inProgressRanker
  split <;> rfl

/-- An object with the rank that the two rankers give it. -/
def rankOf (cs : ClusterState) (nm : NodeMaintenance) : RankedNodeMaintenance :=
  leastPendingRanker cs (inProgressRanker cs ⟨nm, 0⟩)

@[simp] lemma rankOf_nm (cs : ClusterState) (nm : NodeMaintenance) : (rankOf cs nm).nm = nm := by
  simp [rankOf, leastPendingRanker, inProgressRanker_nm]

lemma rankSlice_eq (cs : ClusterState) (l : List NodeMaintenance) :
    rankSlice l [inProgressRanker cs, leastPendingRanker cs] = l.map (rankOf cs) := by
  simp [rankSlice, rankOf, Function.comp_def]

/-- The candidates in order of their rank, one for each node. -/
def compacted (sorter : Sorter compareRanked) (cs : ClusterState) (ctx : SchedulerContext) :
    List RankedNodeMaintenance :=
  compactIdenticalNodes [] (sorter.sort (ctx.candidateMaintenance.map (rankOf cs)))

lemma considered_eq (sorter : Sorter compareRanked) (cs : ClusterState) (ctx : SchedulerContext) :
    considered sorter cs ctx = (compacted sorter cs ctx).take ctx.availableSlots.toNat := by
  have hlen : ∀ l : List RankedNodeMaintenance, l.take (min ctx.availableSlots l.length).toNat =
      l.take ctx.availableSlots.toNat := by
    intro l
    rw [List.take_eq_take_iff]
    omega
  rw [considered, rankSlice_eq]
  exact hlen _

lemma compactIdenticalNodes_cons (seen : List String) (rnm : RankedNodeMaintenance)
    (rest : List RankedNodeMaintenance) :
    compactIdenticalNodes seen (rnm :: rest) =
      if rnm.nm.spec.nodeName ∈ seen then compactIdenticalNodes seen rest
      else rnm :: compactIdenticalNodes (rnm.nm.spec.nodeName :: seen) rest := rfl

/-- Compaction drops elements only. -/
lemma compactIdenticalNodes_sublist (seen : List String) (l : List RankedNodeMaintenance) :
    (compactIdenticalNodes seen l).Sublist l := by
  induction l generalizing seen with
  | nil => exact .slnil
  | cons rnm rest ih =>
    rw [compactIdenticalNodes_cons]
    split
    · exact (ih seen).cons _
    · exact (ih _).cons_cons _

/-- After compaction all node names are different, and none has been seen before. -/
lemma nodup_compactIdenticalNodes (seen : List String) (l : List RankedNodeMaintenance) :
    ((compactIdenticalNodes seen l).map fun c => c.nm.spec.nodeName).Nodup ∧
      ∀ c ∈ compactIdenticalNodes seen l, c.nm.spec.nodeName ∉ seen := by
  induction l generalizing seen with
  | nil => exact ⟨.nil, fun c hc => absurd hc List.not_mem_nil⟩
  | cons rnm rest ih =>
    rw [compactIdenticalNodes_cons]
    split
    · exact ih seen
    · rename_i hnew
      obtain ⟨hnodup, hseen⟩ := ih (rnm.nm.spec.nodeName :: seen)
      refine ⟨List.nodup_cons.mpr ⟨?_, hnodup⟩, ?_⟩
      · intro hmem
        obtain ⟨c, hc, e⟩ := List.mem_map.mp hmem
        exact hseen c hc (e ▸ .head _)
      · intro c hc
        rcases List.mem_cons.mp hc with rfl | hc
        · exact hnew
        · exact fun h => hseen c hc (.tail _ h)

/-- Of each node that has not been seen before, the first element is kept. -/
lemma exists_mem_compactIdenticalNodes {R : RankedNodeMaintenance → RankedNodeMaintenance → Prop}
    (hR : ∀ a, R a a) {l : List RankedNodeMaintenance} (hl : l.Pairwise R) {seen : List String}
    {a : RankedNodeMaintenance} (ha : a ∈ l) (hs : a.nm.spec.nodeName ∉ seen) :
    ∃ c ∈ compactIdenticalNodes seen l, c.nm.spec.nodeName = a.nm.spec.nodeName ∧ R c a := by
  induction l generalizing seen with
  | nil => cases ha
  | cons rnm rest ih =>
    obtain ⟨hfirst, hrest⟩ := List.pairwise_cons.mp hl
    rw [compactIdenticalNodes_cons]
    by_cases e : rnm.nm.spec.nodeName = a.nm.spec.nodeName
    · rw [if_neg (e ▸ hs)]
      refine ⟨rnm, .head _, e, ?_⟩
      rcases List.mem_cons.mp ha with rfl | ha
      · exact hR a
      · exact hfirst a ha
    · have ha' : a ∈ rest := (List.mem_cons.mp ha).resolve_left fun h => e (h ▸ rfl)
      split
      · exact ih hrest ha' hs
      · have hs' : a.nm.spec.nodeName ∉ rnm.nm.spec.nodeName :: seen := by simp [hs, Ne.symm e]
        obtain ⟨c, hc, h⟩ := ih hrest ha' hs'
        exact ⟨c, .tail _ hc, h⟩

/-- What is left after compaction are candidates. -/
lemma mem_candidates_of_compacted {c : RankedNodeMaintenance} (h : c ∈ compacted sorter cs ctx) :
    ∃ nm ∈ ctx.candidateMaintenance, rankOf cs nm = c :=
  List.mem_map.mp (sorter.mem_sort.mp ((compactIdenticalNodes_sublist _ _).subset h))

/-- Every candidate has a representative on its node that does not come after it in the order. -/
lemma exists_mem_compacted (sorter : Sorter compareRanked) (cs : ClusterState) {nm : NodeMaintenance}
    (h : nm ∈ ctx.candidateMaintenance) :
    ∃ c ∈ compacted sorter cs ctx, c.nm.spec.nodeName = nm.spec.nodeName ∧
      (compareRanked c (rankOf cs nm)).isLE := by
  have hmem : rankOf cs nm ∈ sorter.sort (ctx.candidateMaintenance.map (rankOf cs)) :=
    sorter.mem_sort.mpr (List.mem_map_of_mem h)
  have hrefl : ∀ a, (compareRanked a a).isLE := fun a => by simp [Std.ReflCmp.compare_self]
  obtain ⟨c, hc, hname, hle⟩ := exists_mem_compactIdenticalNodes hrefl (sorter.sorted _) hmem
    List.not_mem_nil
  rw [rankOf_nm] at hname
  exact ⟨c, hc, hname, hle⟩

/-- One candidate for each node. -/
lemma nodup_compacted (sorter : Sorter compareRanked) (cs : ClusterState) (ctx : SchedulerContext) :
    ((compacted sorter cs ctx).map fun c => c.nm.spec.nodeName).Nodup :=
  (nodup_compactIdenticalNodes [] _).1

lemma eq_of_mem_compacted {a b : RankedNodeMaintenance} (ha : a ∈ compacted sorter cs ctx)
    (hb : b ∈ compacted sorter cs ctx) (h : a.nm.spec.nodeName = b.nm.spec.nodeName) : a = b :=
  List.inj_on_of_nodup_map (nodup_compacted sorter cs ctx) ha hb h

/-- No more candidates are considered than there are slots. -/
lemma length_considered_le (sorter : Sorter compareRanked) (cs : ClusterState)
    (h : 0 ≤ ctx.availableSlots) :
    ((considered sorter cs ctx).length : Int) ≤ ctx.availableSlots := by
  rw [considered_eq, List.length_take]
  omega

end Pipeline

section Loop
variable {nodes : GoMap Node}

/-- The node of an object exists in the map and is schedulable and ready. -/
def targetsAvailable (nodes : GoMap Node) (nm : NodeMaintenance) : Bool :=
  (nodes.get? nm.spec.nodeName).any nodeAvailable

lemma targetsAvailable_congr {nm nm' : NodeMaintenance} (h : nm.spec.nodeName = nm'.spec.nodeName) :
    targetsAvailable nodes nm = targetsAvailable nodes nm' := by
  rw [targetsAvailable, h, targetsAvailable]

/-- The same for a ranked object: recommending it costs one unit of the budget. -/
def costsNode (nodes : GoMap Node) (c : RankedNodeMaintenance) : Bool := targetsAvailable nodes c.nm

/-- The loop of `Schedule` is a selection under the budget. -/
lemma recommend_eq_spend {l : List RankedNodeMaintenance} (can : Int)
    (hl : ∀ c ∈ l, (nodes.get? c.nm.spec.nodeName).isSome) :
    recommend nodes can l = some ((spend (costsNode nodes) can l).map RankedNodeMaintenance.nm) := by
  induction l generalizing can with
  | nil => rfl
  | cons c rest ih =>
    obtain ⟨node, hnode⟩ := Option.isSome_iff_exists.mp (hl c (.head _))
    have hrest := fun can => ih can fun c' hc' => hl c' (.tail _ hc')
    have hcost : costsNode nodes c = nodeAvailable node := by
      simp [costsNode, targetsAvailable, hnode]
    simp only [recommend, spend_cons, hnode, hcost, hrest, Option.bind_eq_bind, Option.bind_some]
    split
    · split <;> rfl
    · rfl

end Loop

section Schedule
variable {sorter : Sorter compareRanked} {cs : ClusterState} {ctx : SchedulerContext}

/-- The nodes of all candidates exist. -/
def NodesExist (cs : ClusterState) (ctx : SchedulerContext) : Prop :=
  ∀ nm ∈ ctx.candidateMaintenance, (cs.nodes.get? nm.spec.nodeName).isSome = true

/-- What `Schedule` selects, with the ranks. -/
def recommended (sorter : Sorter compareRanked) (cs : ClusterState) (ctx : SchedulerContext) :
    List RankedNodeMaintenance :=
  spend (costsNode cs.nodes) ctx.canBecomeUnavailable (considered sorter cs ctx)

/-- `Schedule` finds every node and returns what is selected under the budget. -/
theorem schedule_eq_recommended (sorter : Sorter compareRanked) (h : NodesExist cs ctx) :
    schedule sorter cs ctx =
      some ((recommended sorter cs ctx).map RankedNodeMaintenance.nm) := by
  refine recommend_eq_spend _ fun c hc => ?_
  rw [considered_eq] at hc
  obtain ⟨nm, hnm, rfl⟩ := mem_candidates_of_compacted (List.mem_of_mem_take hc)
  rw [rankOf_nm]
  exact h nm hnm

lemma recommended_sublist (sorter : Sorter compareRanked) (cs : ClusterState)
    (ctx : SchedulerContext) : (recommended sorter cs ctx).Sublist (compacted sorter cs ctx) := by
  refine (spend_sublist _ _).trans ?_
  rw [considered_eq]
  exact List.take_sublist _ _

/-- Only candidates are recommended. -/
lemma mem_candidates_of_recommended {nm : NodeMaintenance}
    (h : nm ∈ (recommended sorter cs ctx).map RankedNodeMaintenance.nm) :
    nm ∈ ctx.candidateMaintenance := by
  obtain ⟨c, hc, rfl⟩ := List.mem_map.mp h
  obtain ⟨nm, hnm, rfl⟩ := mem_candidates_of_compacted ((recommended_sublist _ _ _).subset hc)
  rwa [rankOf_nm]

/-- Recommended objects are on different nodes. -/
lemma nodup_recommended (sorter : Sorter compareRanked) (cs : ClusterState)
    (ctx : SchedulerContext) :
    (((recommended sorter cs ctx).map RankedNodeMaintenance.nm).map
      fun nm => nm.spec.nodeName).Nodup := by
  rw [List.map_map]
  exact (nodup_compacted sorter cs ctx).sublist ((recommended_sublist _ _ _).map _)

/-- No more objects are recommended than there are slots. -/
lemma length_recommended_le (sorter : Sorter compareRanked) (cs : ClusterState)
    (h : 0 ≤ ctx.availableSlots) :
    ((recommended sorter cs ctx).length : Int) ≤ ctx.availableSlots := by
  have h₁ := (@spend_sublist _ (costsNode cs.nodes) ctx.canBecomeUnavailable
    (considered sorter cs ctx)).length_le
  have h₂ := length_considered_le sorter cs h
  rw [recommended]
  omega

/-- The recommended objects on available nodes. -/
lemma length_filter_recommended (l : List RankedNodeMaintenance) :
    ((l.map RankedNodeMaintenance.nm).filter (targetsAvailable cs.nodes)).length =
      l.countP (costsNode cs.nodes) := by
  rw [List.filter_map, List.length_map, List.countP_eq_length_filter]
  rfl

/-- The node of a representative is the target of a recommended object only if the representative
itself is recommended. -/
lemma mem_targets_recommended {c : RankedNodeMaintenance} (hc : c ∈ compacted sorter cs ctx) :
    c.nm.spec.nodeName ∈ targets ((recommended sorter cs ctx).map RankedNodeMaintenance.nm) ↔
      c ∈ recommended sorter cs ctx := by
  rw [mem_targets]
  constructor
  · rintro ⟨nm, hnm, hname⟩
    obtain ⟨c', hc', rfl⟩ := List.mem_map.mp hnm
    obtain rfl := eq_of_mem_compacted ((recommended_sublist _ _ _).subset hc') hc hname
    exact hc'
  · exact fun h => ⟨c.nm, List.mem_map_of_mem h, rfl⟩

/-- A node with a candidate is left out only if the slots are used, or if it is available and the
budget is used. -/
def WorkConserving (cs : ClusterState) (ctx : SchedulerContext) (l : List NodeMaintenance) : Prop :=
  ∀ nm ∈ ctx.candidateMaintenance, nm.spec.nodeName ∉ targets l →
    (l.length : Int) = ctx.availableSlots ∨
      targetsAvailable cs.nodes nm = true ∧
        ((l.filter (targetsAvailable cs.nodes)).length : Int) = ctx.canBecomeUnavailable

/-- The candidates within the slots fit the budget, or no candidate behind them is on an unavailable
node. -/
def SlotsSuffice (sorter : Sorter compareRanked) (cs : ClusterState) (ctx : SchedulerContext) : Prop :=
  ((considered sorter cs ctx).countP (costsNode cs.nodes) : Int) ≤ ctx.canBecomeUnavailable ∨
    ∀ c ∈ (compacted sorter cs ctx).drop ctx.availableSlots.toNat, costsNode cs.nodes c = true

/-- With the budget not exceeded, everything considered is recommended, so a representative is left
out only behind the slots, which are then all used. -/
lemma length_recommended_of_fits (hs : 0 ≤ ctx.availableSlots)
    (hfit : ((considered sorter cs ctx).countP (costsNode cs.nodes) : Int) ≤ ctx.canBecomeUnavailable)
    {c : RankedNodeMaintenance} (hc : c ∈ compacted sorter cs ctx)
    (hout : c ∉ recommended sorter cs ctx) :
    ((recommended sorter cs ctx).length : Int) = ctx.availableSlots := by
  rw [recommended, spend_of_count_le hfit, considered_eq] at hout ⊢
  have hlong : ctx.availableSlots.toNat < (compacted sorter cs ctx).length := by
    by_contra hle
    rw [List.take_of_length_le (by omega)] at hout
    exact hout hc
  rw [List.length_take]
  omega

/-- `Schedule` leaves no work undone exactly if the slots are not lost on candidates that exceed the
budget while others, on unavailable nodes, wait behind them. -/
theorem work_conserving_iff (sorter : Sorter compareRanked) (hs : 0 ≤ ctx.availableSlots)
    (hc : 0 ≤ ctx.canBecomeUnavailable) (hn : NodesExist cs ctx) :
    ∃ l, schedule sorter cs ctx = some l ∧
      (WorkConserving cs ctx l ↔ SlotsSuffice sorter cs ctx) := by
  refine ⟨_, schedule_eq_recommended sorter hn, fun hwork => ?_, fun hsuf nm hnm hout => ?_⟩
  · refine or_iff_not_imp_left.mpr fun hbig c hdrop => ?_
    -- a candidate behind the slots is not recommended, and some slot is unused
    have hmem : c ∈ compacted sorter cs ctx := List.mem_of_mem_drop hdrop
    have hnot : c ∉ recommended sorter cs ctx := by
      intro hrec
      have hcons := (spend_sublist _ _).subset hrec
      rw [considered_eq] at hcons
      exact List.disjoint_take_drop (List.Nodup.of_map _ (nodup_compacted sorter cs ctx)) le_rfl
        hcons hdrop
    obtain ⟨nm, hnm, rfl⟩ := mem_candidates_of_compacted hmem
    have hlen := @length_spend _ (costsNode cs.nodes) _ hc (considered sorter cs ctx)
    have hle := length_considered_le sorter cs hs
    rcases hwork nm hnm (by simpa using mt (mem_targets_recommended hmem).mp hnot) with h | h
    · rw [List.length_map, recommended] at h
      omega
    · simpa [costsNode] using h.1
  · obtain ⟨c, hmem, hname, -⟩ := exists_mem_compacted sorter cs hnm
    have hnot : c ∉ recommended sorter cs ctx := by
      rw [← mem_targets_recommended hmem, hname]
      exact hout
    rw [List.length_map, length_filter_recommended, ← targetsAvailable_congr hname]
    by_cases hfit : ((considered sorter cs ctx).countP (costsNode cs.nodes) : Int) ≤
        ctx.canBecomeUnavailable
    · exact .inl (length_recommended_of_fits hs hfit hmem hnot)
    · refine .inr ⟨?_, ?_⟩
      · -- passed over within the slots, or waiting behind them
        by_contra hfree
        rw [Bool.not_eq_true] at hfree
        rcases List.mem_append.mp ((List.take_append_drop ctx.availableSlots.toNat
          (compacted sorter cs ctx)).symm ▸ hmem) with htake | hdrop
        · rw [← considered_eq] at htake
          exact hnot (mem_spend_of_free htake hfree _)
        · have hcost := hsuf.resolve_left hfit c hdrop
          rw [costsNode, hfree] at hcost
          cases hcost
      · rw [recommended, count_spend hc]
        omega

end Schedule

/-- A node that is schedulable and ready. -/
def plainNode (name : String) : Node := ⟨name, name, [], [], false, []⟩

/-- A pending request for a node, with the time of its creation. -/
def pendingRequest (name nodeName : String) (created : Nat) : NodeMaintenance :=
  withReadyReason { newNodeMaintenance ⟨"default", name⟩ name
    ⟨"requestor.nvidia.com", [], nodeName, true, none, none⟩ with creationTimestamp := created }
    .pending "" 0

/-- A cluster of an available node and a cordoned one, with one request for each. -/
def halfCordoned : ClusterState :=
  newClusterState [plainNode "node-1", { plainNode "node-2" with unschedulable := true }]
    [pendingRequest "nm-1" "node-1" 1, pendingRequest "nm-2" "node-2" 2]

/-- Both requests are candidates, and no node may become unavailable. -/
def frozen (slots : Int) : SchedulerContext where
  availableSlots := slots
  canBecomeUnavailable := 0
  candidateNodes := {"node-1", "node-2"}
  candidateMaintenance := [pendingRequest "nm-1" "node-1" 1, pendingRequest "nm-2" "node-2" 2]

/-- With a slot for each request, the one on the cordoned node is recommended. -/
theorem work_conserving_two_slots :
    ∃ l, schedule (Sorter.insertion compareRanked) halfCordoned (frozen 2) = some l ∧
      l.map (·.key.name) = ["nm-2"] ∧ WorkConserving halfCordoned (frozen 2) l := by
  obtain ⟨l, hl, hiff⟩ := @work_conserving_iff halfCordoned (frozen 2)
    (Sorter.insertion compareRanked) (by decide) (by decide) (by unfold NodesExist; decide +kernel)
  refine ⟨l, hl, ?_, hiff.mpr (.inr (by decide +kernel))⟩
  have hnames : (schedule (Sorter.insertion compareRanked) halfCordoned (frozen 2)).map
      (List.map (·.key.name)) = some ["nm-2"] := by decide +kernel
  simpa [hl] using hnames

/-- With a single slot, the older request takes it and is passed over: nothing is recommended, although
the other request is for a node that is unavailable anyway. -/
theorem slot_lost_on_available_node :
    ∃ l, schedule (Sorter.insertion compareRanked) halfCordoned (frozen 1) = some l ∧ l = [] ∧
      ¬ WorkConserving halfCordoned (frozen 1) l := by
  refine ⟨[], by decide +kernel, rfl, fun h => ?_⟩
  have hout := h (pendingRequest "nm-2" "node-2" 2) (by decide +kernel) (by decide)
  revert hout
  decide +kernel

end MaintenanceOperator.Scheduler
