import MaintenanceOperator.Drain.Identity
import MaintenanceOperator.Scheduler.Limits
import MaintenanceOperator.Scheduler.Priority

/-!
# The decision of a round

`preSchedule`, `NewClusterState` and `Schedule` on one snapshot. The decision is the same for every
order of the lists of the snapshot (`selection_order_independent`). Candidates are found through
their nodes, so a request that is not pending yet is a candidate if a pending one targets the same node
(`candidates_pending_iff`). Larger limits select more, with the exception of a negative limit, which
stands for no limit (`tighter_limits_iff`).
-/

namespace MaintenanceOperator.Scheduler
open Lib

/-- `preSchedule`, `NewClusterState` and `Schedule`. -/
def selection (sorter : Sorter compareRanked) (o : Options) (nodes : List Node)
    (nms : List NodeMaintenance) : Except Err (Option (List NodeMaintenance)) := do
  let ctx ← preSchedule o nodes nms
  return schedule sorter (newClusterState nodes nms) ctx

section Selection
variable {sorter sorter' : Sorter compareRanked} {o : Options} {nodes nodes' : List Node}
  {nms nms' : List NodeMaintenance} {ctx ctx' : SchedulerContext}

lemma selection_eq (h : preSchedule o nodes nms = .ok ctx) :
    selection sorter o nodes nms =
      .ok (some ((recommended sorter (newClusterState nodes nms) ctx).map RankedNodeMaintenance.nm)) := by
  rw [selection, h, ← schedule_eq_recommended sorter (nodesExist_of_preSchedule h)]
  rfl

/-- Nothing is recommended without candidates or without slots. -/
lemma recommended_eq_nil {cs : ClusterState}
    (h : ctx.candidateMaintenance = [] ∨ ctx.availableSlots = 0) : recommended sorter cs ctx = [] := by
  have hnil : considered sorter cs ctx = [] := by
    rw [considered_eq]
    rcases h with h | h
    · have hempty : compacted sorter cs ctx = [] := by
        refine List.eq_nil_iff_forall_not_mem.mpr fun c hc => ?_
        obtain ⟨nm, hnm, -⟩ := mem_candidates_of_compacted hc
        rw [h] at hnm
        cases hnm
      rw [hempty, List.take_nil]
    · rw [h]
      rfl
  rw [recommended, hnil]
  rfl

/-- The early returns of `Reconcile` change nothing. -/
theorem decision_eq_selection (sorter : Sorter compareRanked) (o : Options) (nodes : List Node)
    (nms : List NodeMaintenance) : decision sorter o nodes nms = selection sorter o nodes nms := by
  cases hp : preSchedule o nodes nms with
  | error e => rw [decision, selection, hp]; rfl
  | ok ctx =>
    rw [selection_eq hp, decision, hp]
    simp only [bind, Except.bind]
    split
    · rename_i hstop
      rw [recommended_eq_nil]
      · rfl
      · simp only [Bool.or_eq_true, List.isEmpty_iff, decide_eq_true_eq] at hstop
        rcases hstop with (h | h) | h
        · exact .inl h
        · obtain ⟨-, -, -, -, -, -, -, hcand⟩ := preSchedule_eq_ok hp
          exact .inl (by rw [hcand, h]; simp)
        · exact .inr h
    · rw [schedule_eq_recommended sorter (nodesExist_of_preSchedule hp)]
      rfl

/-! ### The order of the lists -/

lemma nodesWith_perm (p : NodeMaintenance → Bool) (hn : nodes.Perm nodes') (hm : nms.Perm nms') :
    nodesWith p nodes nms = nodesWith p nodes' nms' := by
  ext n
  simp only [mem_nodesWith, nodesAsSet, List.mem_toFinset, List.mem_map, hn.mem_iff, hm.mem_iff]

lemma totalNodeUnavailable_perm (hn : nodes.Perm nodes') (hm : nms.Perm nms') :
    totalNodeUnavailable nodes nms = totalNodeUnavailable nodes' nms' := by
  rw [totalNodeUnavailable, totalNodeUnavailable, nodesUnderMaintenance, nodesWith_perm _ hn hm]
  congr 1
  ext n
  simp only [getCurrentUnavailableNodes, List.mem_toFinset, List.mem_map, List.mem_filter, hn.mem_iff]

/-- Contexts that differ in the order of the candidates only. -/
structure SameContext (ctx ctx' : SchedulerContext) : Prop where
  slots : ctx'.availableSlots = ctx.availableSlots
  budget : ctx'.canBecomeUnavailable = ctx.canBecomeUnavailable
  candidates : ctx.candidateMaintenance.Perm ctx'.candidateMaintenance

/-- `preSchedule` fails in the same way, or computes the same context. -/
lemma preSchedule_perm (o : Options) (hn : nodes.Perm nodes') (hm : nms.Perm nms') :
    (∃ e, preSchedule o nodes nms = .error e ∧ preSchedule o nodes' nms' = .error e) ∨
      ∃ ctx ctx', preSchedule o nodes nms = .ok ctx ∧ preSchedule o nodes' nms' = .ok ctx' ∧
        SameContext ctx ctx' := by
  simp only [preSchedule, nodesUnderMaintenance, nodesPendingMaintenance,
    ← totalNodeUnavailable_perm hn hm, ← nodesWith_perm _ hn hm, ← hn.length_eq]
  generalize wrapExcept _ (o.getMaxUnavailableNodes nodes.length) = maxUnavailable
  generalize wrapExcept _ (o.getMaxOperations nodes.length) = maxOperations
  cases maxUnavailable with
  | error e => exact .inl ⟨e, rfl, rfl⟩
  | ok U =>
    cases maxOperations with
    | error e => exact .inl ⟨e, rfl, rfl⟩
    | ok P => exact .inr ⟨_, _, rfl, rfl, rfl, rfl, hm.filter _⟩

/-- Ranks depend on how many requests of which requestor there are, not on their order. -/
lemma rankOf_perm (hm : nms.Perm nms') :
    rankOf (newClusterState nodes nms) = rankOf (newClusterState nodes' nms') := by
  funext nm
  have hprogress : requestorInProgress (newClusterState nodes nms) nm =
      requestorInProgress (newClusterState nodes' nms') nm := (hm.filter _).any_eq
  have hpending : requestorPending (newClusterState nodes nms) nm =
      requestorPending (newClusterState nodes' nms') nm := (hm.filter _).countP_eq _
  ext1
  · rw [rankOf_nm, rankOf_nm]
  · rw [rankOf_rank, rankOf_rank, hprogress, hpending]

/-- With distinct names, the node map holds every node under its name. -/
lemma get?_newClusterState (hnodes : (nodes.map Node.name).Nodup) {name : String} {n : Node} :
    (newClusterState nodes nms).nodes.get? name = some n ↔ n ∈ nodes ∧ n.name = name := by
  refine ⟨mem_of_get?_newClusterState, fun ⟨hn, hname⟩ => ?_⟩
  have hset : name ∈ nodesAsSet nodes := by simpa [nodesAsSet] using ⟨n, hn, hname⟩
  have hsome := isSome_get?_newClusterState nms hset
  obtain ⟨n', hn'⟩ := Option.isSome_iff_exists.mp hsome
  obtain ⟨hmem, hname'⟩ := mem_of_get?_newClusterState hn'
  rw [hn', List.inj_on_of_nodup_map hnodes hmem hn (hname'.trans hname.symm)]

lemma costsNode_perm (hn : nodes.Perm nodes') (hnodes : (nodes.map Node.name).Nodup) :
    costsNode (newClusterState nodes nms).nodes = costsNode (newClusterState nodes' nms').nodes := by
  funext c
  have hget : (newClusterState nodes nms).nodes.get? c.nm.spec.nodeName =
      (newClusterState nodes' nms').nodes.get? c.nm.spec.nodeName := by
    ext n
    rw [get?_newClusterState hnodes, get?_newClusterState ((hn.map _).nodup_iff.mp hnodes), hn.mem_iff]
  rw [costsNode, costsNode, targetsAvailable, targetsAvailable, hget]

/-- Only an object and itself compare equal. -/
lemma eq_of_compareRanked_eq (hkeys : (nms.map NodeMaintenance.key).Nodup)
    (hns : ∀ nm ∈ nms, '/' ∉ nm.key.ns.toList) {a b : RankedNodeMaintenance} (ha : a.nm ∈ nms)
    (hb : b.nm ∈ nms) (h : compareRanked a b = .eq) : a = b := by
  obtain ⟨hrank, -, hkey⟩ := compareRanked_eq h
  have hnm := List.inj_on_of_nodup_map hkeys ha hb (Drain.toStr_injective (hns _ ha) (hns _ hb) hkey)
  exact RankedNodeMaintenance.ext hnm hrank

/-- Whatever the order of the nodes and of the NodeMaintenances, and whatever sorts them, the same
objects are selected in the same order; the comparison is a strict total order on the objects of the
snapshot. -/
theorem selection_order_independent (sorter sorter' : Sorter compareRanked) (o : Options)
    (hn : nodes.Perm nodes') (hm : nms.Perm nms') (hnodes : (nodes.map Node.name).Nodup)
    (hkeys : (nms.map NodeMaintenance.key).Nodup) (hns : ∀ nm ∈ nms, '/' ∉ nm.key.ns.toList) :
    selection sorter o nodes nms = selection sorter' o nodes' nms' ∧
    ∀ a b c : RankedNodeMaintenance, a.nm ∈ nms → b.nm ∈ nms → c.nm ∈ nms →
      compareRanked a b = (compareRanked b a).swap ∧
      (compareRanked a b = .lt → compareRanked b c = .lt → compareRanked a c = .lt) ∧
      (compareRanked a b = .eq ↔ a = b) := by
  refine ⟨?_, fun a b c ha hb _ => ⟨Std.OrientedCmp.eq_swap, Std.TransCmp.lt_trans,
    eq_of_compareRanked_eq hkeys hns ha hb, fun h => h ▸ Std.ReflCmp.compare_self⟩⟩
  rcases preSchedule_perm o hn hm with ⟨e, he, he'⟩ | ⟨ctx, ctx', hctx, hctx', hsame⟩
  · rw [selection, selection, he, he']
    rfl
  · have hsort : compacted sorter (newClusterState nodes nms) ctx =
        compacted sorter' (newClusterState nodes' nms') ctx' := by
      rw [compacted, compacted, ← @rankOf_perm nodes nodes' _ _ hm]
      refine congrArg _ (Sorter.sort_eq_sort sorter sorter' (hsame.candidates.map _) ?_)
      have hmem : ∀ a ∈ ctx.candidateMaintenance.map (rankOf (newClusterState nodes nms)),
          a.nm ∈ nms := by
        intro a ha
        obtain ⟨nm, hnm, rfl⟩ := List.mem_map.mp ha
        rw [rankOf_nm]
        exact (eligible_of_candidate hctx hnm).1
      exact fun a ha b hb => eq_of_compareRanked_eq hkeys hns (hmem a ha) (hmem b hb)
    rw [selection_eq hctx, selection_eq hctx', recommended, recommended, considered_eq,
      considered_eq, hsort, hsame.slots, hsame.budget, costsNode_perm hn hnodes]

end Selection

/-- Two requests with equal rank and time, in either order, on nodes in either order: the first node is
selected. -/
theorem selection_of_reversed_lists :
    let nodes := [plainNode "node-1", plainNode "node-2"]
    let nms := [pendingRequest "nm-1" "node-1" 0, pendingRequest "nm-2" "node-2" 0]
    let sorter := Sorter.insertion compareRanked
    selection sorter ⟨none, none⟩ nodes nms = .ok (some [pendingRequest "nm-1" "node-1" 0]) ∧
      selection sorter ⟨none, none⟩ nodes nms = selection sorter ⟨none, none⟩ nodes.reverse nms.reverse := by
  refine ⟨by decide +kernel, ?_⟩
  exact (selection_order_independent (Sorter.insertion compareRanked) (Sorter.insertion compareRanked)
    ⟨none, none⟩ (List.reverse_perm _).symm (List.reverse_perm _).symm (by decide) (by decide)
    (by decide)).1

/-! ### Candidates -/

section Candidates
variable {o : Options} {nodes : List Node} {nms : List NodeMaintenance} {ctx : SchedulerContext}

/-- An object in the Pending state. -/
def isPending (nm : NodeMaintenance) : Prop := getReadyConditionReason nm = .pending

/-- The candidates are the pending objects on existing nodes that are not under maintenance, and only
such objects are moved to Scheduled. -/
structure OnlyPending (sorter : Sorter compareRanked) (o : Options) (nodes : List Node)
    (nms : List NodeMaintenance) (ctx : SchedulerContext) : Prop where
  candidates : ∀ nm ∈ ctx.candidateMaintenance, isPending nm
  scheduled : ∀ l, decision sorter o nodes nms = .ok (some l) → ∀ nm ∈ l, isPending nm
  complete : ∀ nm ∈ nms, isPending nm → nm.spec.nodeName ∈ nodesAsSet nodes →
    nm.spec.nodeName ∉ nodesUnderMaintenance nodes nms → nm ∈ ctx.candidateMaintenance

lemma mem_candidates_iff (h : preSchedule o nodes nms = .ok ctx) {nm : NodeMaintenance} :
    nm ∈ ctx.candidateMaintenance ↔ nm ∈ nms ∧ nm.spec.nodeName ∈ ctx.candidateNodes := by
  obtain ⟨-, -, -, -, -, -, -, hcand⟩ := preSchedule_eq_ok h
  rw [hcand, List.mem_filter, decide_eq_true_eq]

/-- On a node that is not under maintenance, an object is pending or has no phase yet. -/
lemma pending_or_uninitialized (h : preSchedule o nodes nms = .ok ctx) {nm : NodeMaintenance}
    (hnm : nm ∈ ctx.candidateMaintenance) :
    isPending nm ∨ getReadyConditionReason nm = .uninitialized := by
  obtain ⟨hmem, hnode, hfree⟩ := eligible_of_candidate h hnm
  have hunder : isUnderMaintenance nm = false := by
    by_contra hu
    exact hfree (mem_nodesWith.mpr ⟨hnode, nm, hmem, by simpa using hu, rfl⟩)
  unfold isUnderMaintenance at hunder
  unfold isPending
  split at hunder
  · exact .inr ‹_›
  · exact .inl ‹_›
  · cases hunder

/-- Only pending requests are scheduled exactly if no request without a phase targets a candidate
node. -/
theorem candidates_pending_iff (sorter : Sorter compareRanked) (h : preSchedule o nodes nms = .ok ctx) :
    OnlyPending sorter o nodes nms ctx ↔
      ∀ nm ∈ nms, getReadyConditionReason nm = .uninitialized →
        nm.spec.nodeName ∉ ctx.candidateNodes := by
  constructor
  · intro hpend nm hnm hun hnode
    have hp : isPending nm := hpend.candidates nm ((mem_candidates_iff h).mpr ⟨hnm, hnode⟩)
    rw [isPending, hun] at hp
    cases hp
  · intro hnone
    have hcand : ∀ nm ∈ ctx.candidateMaintenance, isPending nm := by
      intro nm hnm
      obtain ⟨hmem, hnode⟩ := (mem_candidates_iff h).mp hnm
      exact (pending_or_uninitialized h hnm).resolve_right fun hun => hnone nm hmem hun hnode
    refine ⟨hcand, fun l hl nm hnm => ?_, fun nm hnm hp hnode hfree => ?_⟩
    · rw [decision_eq_selection, selection_eq h, Except.ok.injEq, Option.some.injEq] at hl
      subst hl
      exact hcand nm (mem_candidates_of_recommended hnm)
    · obtain ⟨-, -, -, -, -, -, hnodes, -⟩ := preSchedule_eq_ok h
      refine (mem_candidates_iff h).mpr ⟨hnm, ?_⟩
      rw [hnodes, Finset.mem_sdiff]
      exact ⟨mem_nodesWith.mpr ⟨hnode, nm, hnm, by simpa [isPending] using hp, rfl⟩, hfree⟩

end Candidates

/-- A request that has no phase yet, of another requestor. -/
def newRequest (name nodeName : String) : NodeMaintenance :=
  newNodeMaintenance ⟨"default", name⟩ name ⟨"other.nvidia.com", [], nodeName, true, none, none⟩

/-- A new request for another node does no harm. -/
theorem candidates_pending_apart :
    ∃ ctx, preSchedule ⟨none, none⟩ [plainNode "node-1", plainNode "node-2"]
        [pendingRequest "nm-1" "node-1" 0, newRequest "nm-2" "node-2"] = .ok ctx ∧
      ctx.candidateMaintenance = [pendingRequest "nm-1" "node-1" 0] ∧
      OnlyPending (Sorter.insertion compareRanked) ⟨none, none⟩
        [plainNode "node-1", plainNode "node-2"]
        [pendingRequest "nm-1" "node-1" 0, newRequest "nm-2" "node-2"] ctx := by
  refine ⟨_, rfl, by decide +kernel, ?_⟩
  exact (candidates_pending_iff (Sorter.insertion compareRanked) rfl).mpr (by decide +kernel)

/-- A new request for the node of a pending one is a candidate, and is even scheduled in its place, as
its requestor has fewer pending requests. -/
theorem uninitialized_request_scheduled :
    ∃ ctx, preSchedule ⟨none, none⟩ [plainNode "node-1"]
        [pendingRequest "nm-1" "node-1" 0, newRequest "nm-2" "node-1"] = .ok ctx ∧
      decision (Sorter.insertion compareRanked) ⟨none, none⟩ [plainNode "node-1"]
        [pendingRequest "nm-1" "node-1" 0, newRequest "nm-2" "node-1"] =
          .ok (some [newRequest "nm-2" "node-1"]) ∧
      ¬ OnlyPending (Sorter.insertion compareRanked) ⟨none, none⟩ [plainNode "node-1"]
        [pendingRequest "nm-1" "node-1" 0, newRequest "nm-2" "node-1"] ctx := by
  have hdec : decision (Sorter.insertion compareRanked) ⟨none, none⟩ [plainNode "node-1"]
      [pendingRequest "nm-1" "node-1" 0, newRequest "nm-2" "node-1"] =
        .ok (some [newRequest "nm-2" "node-1"]) := by decide +kernel
  refine ⟨_, rfl, hdec, fun hpend => ?_⟩
  have hp := hpend.scheduled _ hdec _ (.head _)
  revert hp
  unfold isPending
  decide

/-! ### Larger limits -/

/-- Limits of a configuration, as integers; the second may be unset. -/
def limits (maxParallelOperations : Int) (maxUnavailable : Option Int) : Options :=
  ⟨maxUnavailable.map .int, some (.int maxParallelOperations)⟩

/-- An unset limit is larger than every integer. -/
def LimitLE : Option Int → Option Int → Prop
  | _, none => True
  | none, some _ => False
  | some u, some u' => u ≤ u'

/-- A negative number, which the code takes for no limit, does not stand against a real limit. -/
def ComparableLimits (u₁ u₂ : Option Int) : Prop :=
  ∀ n₁ n₂, u₁ = some n₁ → u₂ = some n₂ → n₁ < 0 → n₂ < 0

section Larger
variable {sorter : Sorter compareRanked} {cs : ClusterState} {ctx₁ ctx₂ : SchedulerContext}

/-- With more slots and a larger budget, or one that covers the slots, more is recommended. -/
lemma recommended_subset (hcand : ctx₁.candidateMaintenance = ctx₂.candidateMaintenance)
    (hs : ctx₁.availableSlots ≤ ctx₂.availableSlots) (hc : 0 ≤ ctx₁.canBecomeUnavailable)
    (hb : ctx₁.canBecomeUnavailable ≤ ctx₂.canBecomeUnavailable ∨
      0 ≤ ctx₁.availableSlots ∧ ctx₁.availableSlots ≤ ctx₂.canBecomeUnavailable) :
    recommended sorter cs ctx₁ ⊆ recommended sorter cs ctx₂ := by
  -- fewer slots cut the same order earlier
  have hpre : considered sorter cs ctx₂ = considered sorter cs ctx₁ ++
      (considered sorter cs ctx₂).drop ctx₁.availableSlots.toNat := by
    have htake : considered sorter cs ctx₁ =
        (considered sorter cs ctx₂).take ctx₁.availableSlots.toNat := by
      rw [considered_eq, considered_eq, List.take_take, compacted, compacted, hcand]
      congr 1
      omega
    rw [htake, List.take_append_drop]
  -- and a smaller budget keeps a part of what a larger one keeps
  have hsub : (spend (costsNode cs.nodes) ctx₁.canBecomeUnavailable (considered sorter cs ctx₁)).Sublist
      (spend (costsNode cs.nodes) ctx₂.canBecomeUnavailable (considered sorter cs ctx₁)) := by
    rcases hb with hb | ⟨hs₀, hb⟩
    · exact spend_sublist_of_le hc hb _
    · have hlen := length_considered_le sorter cs hs₀
      have hcount := List.countP_le_length (p := costsNode cs.nodes) (l := considered sorter cs ctx₁)
      rw [spend_of_count_le (b := ctx₂.canBecomeUnavailable) (by omega)]
      exact spend_sublist _ _
  intro c hc'
  rw [recommended, hpre, spend_append]
  exact List.mem_append_left _ (hsub.subset hc')

/-- The context for integer limits. -/
lemma preSchedule_limits (p : Int) (u : Option Int) (nodes : List Node) (nms : List NodeMaintenance) :
    ∃ ctx, preSchedule (limits p u) nodes nms = .ok ctx ∧
      ctx.availableSlots = min (max 0 (p - (nodesUnderMaintenance nodes nms).card)) nodes.length ∧
      ctx.canBecomeUnavailable =
        (if u.getD (-1) ≥ 0 then max 0 (u.getD (-1) - (totalNodeUnavailable nodes nms).card)
          else ctx.availableSlots) ∧
      ctx.candidateMaintenance = nms.filter fun nm => nm.spec.nodeName ∈
        nodesPendingMaintenance nodes nms \ nodesUnderMaintenance nodes nms := by
  cases u <;> exact ⟨_, rfl, rfl, rfl, rfl⟩

/-- Under comparable limits, what the smaller ones select is selected under the larger ones. -/
lemma selection_subset {p₁ p₂ : Int} (hp : p₁ ≤ p₂) {u₁ u₂ : Option Int} (hu : LimitLE u₁ u₂)
    (hcomp : ComparableLimits u₁ u₂) (sorter : Sorter compareRanked) (nodes : List Node)
    (nms : List NodeMaintenance) :
    ∃ l₁ l₂, selection sorter (limits p₁ u₁) nodes nms = .ok (some l₁) ∧
      selection sorter (limits p₂ u₂) nodes nms = .ok (some l₂) ∧ l₁ ⊆ l₂ := by
  obtain ⟨ctx₁, h₁, hs₁, hc₁, hm₁⟩ := preSchedule_limits p₁ u₁ nodes nms
  obtain ⟨ctx₂, h₂, hs₂, hc₂, hm₂⟩ := preSchedule_limits p₂ u₂ nodes nms
  have hnn := context_nonneg h₁
  refine ⟨_, _, selection_eq h₁, selection_eq h₂, List.map_subset _ ?_⟩
  refine recommended_subset (hm₁.trans hm₂.symm) (by omega) hnn.2 ?_
  rw [hc₁, hc₂]
  by_cases hneg : u₂.getD (-1) ≥ 0
  · -- both are limits
    cases u₂ with
    | none => exact absurd hneg (by decide)
    | some n₂ =>
      cases u₁ with
      | none => exact hu.elim
      | some n₁ =>
        simp only [Option.getD_some] at hneg ⊢
        have hle : n₁ ≤ n₂ := hu
        have hpos : n₁ ≥ 0 := by
          by_contra hlt
          have := hcomp n₁ n₂ rfl rfl (by omega)
          omega
        rw [if_pos hpos, if_pos hneg]
        omega
  · -- the larger one is no limit, so its budget covers all slots
    rw [if_neg hneg]
    exact .inr ⟨hnn.1, by omega⟩

/-- The name of a node, as a number of strokes. -/
def stroke (i : Nat) : String := String.ofList (List.replicate i '|')

lemma stroke_injective : Function.Injective stroke := by
  intro i j h
  simpa [stroke] using congrArg (fun s => s.toList.length) h

/-- One available node and `n` cordoned ones. -/
def crowded (n : Nat) : List Node :=
  plainNode (stroke 0) ::
    (List.range n).map fun i => { plainNode (stroke (i + 1)) with unschedulable := true }

lemma names_crowded (n : Nat) : (crowded n).map Node.name = (List.range (n + 1)).map stroke := by
  simp [crowded, plainNode, List.range_succ_eq_map, Function.comp_def]

lemma nodup_crowded (n : Nat) : ((crowded n).map Node.name).Nodup := by
  rw [names_crowded]
  exact List.nodup_range.map stroke_injective

/-- A pending request for the available node. -/
def waiting : NodeMaintenance := pendingRequest "nm" (stroke 0) 0

lemma nodesUnderMaintenance_crowded (n : Nat) : nodesUnderMaintenance (crowded n) [waiting] = ∅ := by
  refine Finset.eq_empty_iff_forall_notMem.mpr fun name hname => ?_
  obtain ⟨-, nm, hnm, hu, -⟩ := mem_nodesWith.mp hname
  rw [List.mem_singleton] at hnm
  subst hnm
  exact absurd hu (by decide)

lemma card_totalNodeUnavailable_crowded (n : Nat) :
    (totalNodeUnavailable (crowded n) [waiting]).card = n := by
  have hnames : getCurrentUnavailableNodes (crowded n) =
      (List.range n).map fun i => stroke (i + 1) := by
    have hfilter : ((List.range n).map fun i =>
        { plainNode (stroke (i + 1)) with unschedulable := true }).filter
          (fun node => isNodeUnschedulable node || !isNodeReady node) =
        (List.range n).map fun i => { plainNode (stroke (i + 1)) with unschedulable := true } := by
      refine List.filter_eq_self.mpr fun node hnode => ?_
      obtain ⟨i, -, rfl⟩ := List.mem_map.mp hnode
      rfl
    rw [getCurrentUnavailableNodes, crowded, List.filter_cons_of_neg (by decide), hfilter,
      List.map_map]
    rfl
  have hinj : Function.Injective fun i => stroke (i + 1) :=
    fun i j h => Nat.succ.inj (stroke_injective h)
  rw [totalNodeUnavailable, nodesUnderMaintenance_crowded, Finset.union_empty, hnames,
    List.toFinset_card_of_nodup (List.nodup_range.map hinj), List.length_map, List.length_range]

lemma candidate_crowded {n : Nat} {p : Int} {u : Option Int} {ctx : SchedulerContext}
    (h : preSchedule (limits p u) (crowded n) [waiting] = .ok ctx) :
    ctx.candidateMaintenance = [waiting] := by
  obtain ⟨-, -, -, -, -, -, hnodes, hcand⟩ := preSchedule_eq_ok h
  rw [hcand, hnodes, nodesUnderMaintenance_crowded, Finset.sdiff_empty]
  refine List.filter_eq_self.mpr fun nm hnm => ?_
  rw [List.mem_singleton] at hnm
  subst hnm
  refine decide_eq_true (mem_nodesWith.mpr ⟨?_, waiting, .head _, by decide, rfl⟩)
  simp [nodesAsSet, crowded, plainNode, waiting, pendingRequest, withReadyReason, newNodeMaintenance]

lemma waiting_costs (n : Nat) :
    costsNode (newClusterState (crowded n) [waiting]).nodes
      (rankOf (newClusterState (crowded n) [waiting]) waiting) = true := by
  have hget : (newClusterState (crowded n) [waiting]).nodes.get? waiting.spec.nodeName =
      some (plainNode (stroke 0)) :=
    (get?_newClusterState (nodup_crowded n)).mpr ⟨List.mem_cons_self, rfl⟩
  rw [costsNode, rankOf_nm, targetsAvailable, hget]
  rfl

/-- Without a limit the request is selected. -/
lemma selected_without_limit {p u : Int} (hp : 0 < p) (hu : u < 0) (n : Nat) :
    ∃ l, selection sorter (limits p (some u)) (crowded n) [waiting] = .ok (some l) ∧ waiting ∈ l := by
  obtain ⟨ctx, h, hs, hc, -⟩ := preSchedule_limits p (some u) (crowded n) [waiting]
  refine ⟨_, selection_eq h, ?_⟩
  have hcand := candidate_crowded h
  obtain ⟨c, hmem, -, -⟩ := exists_mem_compacted sorter (newClusterState (crowded n) [waiting])
    (hcand ▸ List.mem_singleton_self waiting)
  obtain ⟨nm, hnm, rfl⟩ := mem_candidates_of_compacted hmem
  rw [hcand, List.mem_singleton] at hnm
  subst hnm
  have hone : (compacted sorter (newClusterState (crowded n) [waiting]) ctx).length ≤ 1 := by
    refine ((compactIdenticalNodes_sublist _ _).length_le).trans ?_
    rw [(sorter.perm _).length_eq, List.length_map, hcand]
    rfl
  rw [nodesUnderMaintenance_crowded, crowded, List.length_cons] at hs
  have hslots : 1 ≤ ctx.availableSlots := by
    simp only [Finset.card_empty] at hs
    omega
  simp only [Option.getD_some, if_neg (by omega : ¬ u ≥ 0)] at hc
  have hall : recommended sorter (newClusterState (crowded n) [waiting]) ctx =
      compacted sorter (newClusterState (crowded n) [waiting]) ctx := by
    have hcount := List.countP_le_length
      (p := costsNode (newClusterState (crowded n) [waiting]).nodes)
      (l := considered sorter (newClusterState (crowded n) [waiting]) ctx)
    have hnonneg : 0 ≤ ctx.availableSlots := by omega
    have hlen := length_considered_le sorter (newClusterState (crowded n) [waiting]) hnonneg
    rw [recommended, spend_of_count_le (by omega), considered_eq, List.take_of_length_le (by omega)]
  rw [hall, ← rankOf_nm (newClusterState (crowded n) [waiting]) waiting]
  exact List.mem_map_of_mem hmem

/-- With the limit reached it is not. -/
lemma not_selected_at_limit (p : Int) (n : Nat) {l : List NodeMaintenance}
    (h : selection sorter (limits p (some n)) (crowded n) [waiting] = .ok (some l)) : waiting ∉ l := by
  obtain ⟨ctx, hctx, -, hc, -⟩ := preSchedule_limits p (some n) (crowded n) [waiting]
  rw [selection_eq hctx, Except.ok.injEq, Option.some.injEq] at h
  subst h
  simp only [Option.getD_some, card_totalNodeUnavailable_crowded] at hc
  have hzero : ctx.canBecomeUnavailable = 0 := by
    rw [hc, if_pos (by omega)]
    omega
  intro hmem
  obtain ⟨c, hrec, hnm⟩ := List.mem_map.mp hmem
  obtain ⟨nm, -, rfl⟩ := mem_candidates_of_compacted ((recommended_sublist _ _ _).subset hrec)
  rw [rankOf_nm] at hnm
  subst hnm
  have hpos := List.countP_pos_iff.mpr ⟨_, hrec, waiting_costs n⟩
  have hcount := @count_spend _ (costsNode (newClusterState (crowded n) [waiting]).nodes) _
    (by omega : 0 ≤ ctx.canBecomeUnavailable)
    (considered sorter (newClusterState (crowded n) [waiting]) ctx)
  rw [recommended] at hpos
  omega

/-- Tighter limits never select more, on any snapshot, exactly if a negative limit is not taken for
the tighter one. -/
theorem tighter_limits_iff (sorter : Sorter compareRanked) {p₁ p₂ : Int} (hp : 0 < p₁)
    (hle : p₁ ≤ p₂) {u₁ u₂ : Option Int} (hu : LimitLE u₁ u₂) :
    (∀ nodes nms, ∃ l₁ l₂, selection sorter (limits p₁ u₁) nodes nms = .ok (some l₁) ∧
      selection sorter (limits p₂ u₂) nodes nms = .ok (some l₂) ∧ l₁ ⊆ l₂) ↔
      ComparableLimits u₁ u₂ := by
  refine ⟨fun hsub n₁ n₂ h₁ h₂ hneg => ?_, fun hcomp => selection_subset hle hu hcomp sorter⟩
  subst h₁ h₂
  -- a cluster that is full at the second limit tells a missing limit from one that is there
  by_contra hpos
  obtain ⟨n, rfl⟩ := Int.eq_ofNat_of_zero_le (not_lt.mp hpos)
  obtain ⟨l₁, l₂, hl₁, hl₂, hincl⟩ := hsub (crowded n) [waiting]
  obtain ⟨l, hl, hmem⟩ := @selected_without_limit sorter _ _ hp hneg n
  rw [hl, Except.ok.injEq, Option.some.injEq] at hl₁
  subst hl₁
  exact not_selected_at_limit p₂ n hl₂ (hincl hmem)

end Larger

/-- From one operation and no unavailable node to two operations and one unavailable node. -/
theorem tighter_limits_one_two :
    ComparableLimits (some 0) (some 1) ∧
    ∃ l₁ l₂, selection (Sorter.insertion compareRanked) (limits 1 (some 0)) [plainNode "node-1"]
        [pendingRequest "nm-1" "node-1" 0] = .ok (some l₁) ∧
      selection (Sorter.insertion compareRanked) (limits 2 (some 1)) [plainNode "node-1"]
        [pendingRequest "nm-1" "node-1" 0] = .ok (some l₂) ∧ l₁ ⊆ l₂ := by
  have hcomp : ComparableLimits (some 0) (some 1) := by
    rintro n₁ n₂ ⟨⟩ ⟨⟩ h
    omega
  have hunavailable : LimitLE (some 0) (some 1) := Int.zero_le_ofNat 1
  exact ⟨hcomp, (tighter_limits_iff (Sorter.insertion compareRanked) (by decide : (0 : Int) < 1)
    (by decide : (1 : Int) ≤ 2) hunavailable).mpr hcomp _ _⟩

/-- The limit -1 selects a request that the larger limit 0 does not. -/
theorem negative_limit_selects_more :
    LimitLE (some (-1)) (some 0) ∧
    ∃ l₁ l₂, selection (Sorter.insertion compareRanked) (limits 1 (some (-1))) [plainNode "node-1"]
        [pendingRequest "nm-1" "node-1" 0] = .ok (some l₁) ∧
      selection (Sorter.insertion compareRanked) (limits 1 (some 0)) [plainNode "node-1"]
        [pendingRequest "nm-1" "node-1" 0] = .ok (some l₂) ∧ ¬ l₁ ⊆ l₂ := by
  refine ⟨?_, [pendingRequest "nm-1" "node-1" 0], [], by decide +kernel, by decide +kernel, ?_⟩
  · change (-1 : Int) ≤ 0
    decide
  · exact fun h => absurd (h (.head _)) List.not_mem_nil

end MaintenanceOperator.Scheduler
