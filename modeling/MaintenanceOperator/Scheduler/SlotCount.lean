import Mathlib.Data.Rat.Floor
import MaintenanceOperator.Scheduler.Decision

/-!
# The number of selected objects

Without a limit on unavailable nodes, `Schedule` selects one object for each candidate node, up to the
slots that `MaxParallelOperations` leaves (`length_selection`). The documentation of
`MaxParallelOperations` reads "0 means no limit", but `getMaxOperations` hands out the integer 0 as it is,
and then there are no slots at all (`slot_count_iff`).
-/

namespace MaintenanceOperator.Scheduler
open Lib

/-- The number in a percentage such as `10%`. -/
def percent? (s : String) : Option Int :=
  if s.toList.getLast? = some '%' then atoi s.toList.dropLast else none

/-- The limit that the documentation gives a value of `MaxParallelOperations`, on so many nodes; `none`
is no limit. -/
inductive Documented (total : Nat) : Option IntOrString → Option Int → Prop
  | unset : Documented total none (some 1)
  | noLimit : Documented total (some (.int 0)) none
  | number {n : Int} (pos : 0 < n) : Documented total (some (.int n)) (some n)
  | percentage {s : String} {p : Int} (hp : percent? s = some p) (nonneg : 0 ≤ p) :
      Documented total (some (.str s)) (some ⌈(p * total : ℚ) / 100⌉)

/-- The number of objects that may be selected within a limit, with so many nodes under maintenance and
so many candidate nodes. -/
def allowance (limit : Option Int) (underMaintenance candidates : Int) : Int :=
  match limit with
  | none => candidates
  | some limit => min candidates (max 0 (limit - underMaintenance))

section Count
variable {sorter : Sorter compareRanked} {o : Options} {nodes : List Node}
  {nms : List NodeMaintenance} {ctx : SchedulerContext} {limit : Option Int}

/-- Nodes with a pending request and none under maintenance. -/
def candidateNodes (nodes : List Node) (nms : List NodeMaintenance) : Finset String :=
  nodesPendingMaintenance nodes nms \ nodesUnderMaintenance nodes nms

/-- Candidate nodes are nodes. -/
lemma card_candidateNodes_le (nodes : List Node) (nms : List NodeMaintenance) :
    (candidateNodes nodes nms).card ≤ nodes.length := by
  have hsub : candidateNodes nodes nms ⊆ nodesAsSet nodes := fun n hn =>
    (mem_nodesWith.mp (Finset.mem_sdiff.mp hn).1).1
  calc (candidateNodes nodes nms).card
      ≤ (nodesAsSet nodes).card := Finset.card_le_card hsub
    _ ≤ (nodes.map Node.name).length := List.toFinset_card_le _
    _ = nodes.length := List.length_map _

/-- Compaction leaves one object for each candidate node. -/
lemma length_compacted (h : preSchedule o nodes nms = .ok ctx) (cs : ClusterState) :
    (compacted sorter cs ctx).length = (candidateNodes nodes nms).card := by
  obtain ⟨-, -, -, -, -, -, hnodes, hcand⟩ := preSchedule_eq_ok h
  -- one candidate is kept for each candidate node
  have hset : ((compacted sorter cs ctx).map fun c => c.nm.spec.nodeName).toFinset =
      candidateNodes nodes nms := by
    ext n
    rw [List.mem_toFinset, List.mem_map, candidateNodes, ← hnodes]
    constructor
    · rintro ⟨c, hc, rfl⟩
      obtain ⟨nm, hnm, rfl⟩ := mem_candidates_of_compacted hc
      rw [hcand, List.mem_filter, decide_eq_true_eq] at hnm
      rw [rankOf_nm]
      exact hnm.2
    · intro hn
      have hpending := hn
      rw [hnodes, Finset.mem_sdiff] at hpending
      obtain ⟨-, nm, hnm, -, rfl⟩ := mem_nodesWith.mp hpending.1
      have hmem : nm ∈ ctx.candidateMaintenance := by
        rw [hcand]
        exact List.mem_filter.mpr ⟨hnm, by simpa using hn⟩
      obtain ⟨c, hc, hname, -⟩ := exists_mem_compacted sorter cs hmem
      exact ⟨c, hc, hname⟩
  rw [← hset, List.toFinset_card_of_nodup (nodup_compacted sorter cs ctx), List.length_map]

/-- Without a limit on unavailable nodes, the loop is not cut short: there is as much budget as there
are slots. -/
lemma recommended_eq_considered (hU : o.maxUnavailable = none) (h : preSchedule o nodes nms = .ok ctx)
    (cs : ClusterState) : recommended sorter cs ctx = considered sorter cs ctx := by
  obtain ⟨U, P, hU', -, -, hcan, -, -⟩ := preSchedule_eq_ok h
  have hneg : U = -1 := by
    simp only [Options.getMaxUnavailableNodes, hU, Except.ok.injEq] at hU'
    exact hU'.symm
  have hbudget : ctx.canBecomeUnavailable = ctx.availableSlots := by
    rw [hcan, if_neg (by omega)]
  have hlen := length_considered_le sorter cs (context_nonneg h).1
  have hcount := List.countP_le_length (p := costsNode cs.nodes) (l := considered sorter cs ctx)
  rw [recommended, spend_of_count_le (by omega)]

/-- The number of objects that are selected, in terms of the number that `getMaxOperations` returns. -/
lemma length_selection (sorter : Sorter compareRanked) (nms : List NodeMaintenance) {P : Int}
    (hU : o.maxUnavailable = none) (hP : o.getMaxOperations nodes.length = .ok P) :
    ∃ l, selection sorter o nodes nms = .ok (some l) ∧
      (l.length : Int) = min ((candidateNodes nodes nms).card : Int)
        (max 0 (P - (nodesUnderMaintenance nodes nms).card)) := by
  have hpre : ∃ ctx, preSchedule o nodes nms = .ok ctx := by
    simp only [preSchedule, Options.getMaxUnavailableNodes, hU, hP, wrapExcept]
    exact ⟨_, rfl⟩
  obtain ⟨ctx, h⟩ := hpre
  refine ⟨_, selection_eq h, ?_⟩
  obtain ⟨_, P', -, hP', hslots, -⟩ := preSchedule_eq_ok h
  obtain rfl : P = P' := by simpa [hP] using hP'
  have hle := card_candidateNodes_le nodes nms
  rw [List.length_map, recommended_eq_considered hU h, considered_eq, List.length_take,
    length_compacted h]
  omega

/-- A percentage is scaled by rounding up. -/
lemma getScaledValue_percentage {s : String} {p : Int} (hp : percent? s = some p) (total : Nat) :
    getScaledValueFromIntOrPercent (.str s) total true = .ok ⌈(p * total : ℚ) / 100⌉ := by
  have hceil : ⌈(p * total : ℚ) / 100⌉ = -(-(p * total) / 100) := by
    have h := Rat.ceil_intCast_div_natCast (p * total) 100
    push_cast at h
    exact h
  unfold percent? at hp
  split at hp
  · rename_i hlast
    simp [getScaledValueFromIntOrPercent, hlast, hp, hceil]
  · cases hp

/-- Apart from the integer 0, the documentation and `getMaxOperations` agree. -/
lemma Documented.getMaxOperations (h : Documented nodes.length o.maxParallelOperations limit) :
    ∃ P, o.getMaxOperations nodes.length = .ok P ∧
      (limit = some P ∧ o.maxParallelOperations ≠ some (.int 0) ∨
        limit = none ∧ P = 0 ∧ o.maxParallelOperations = some (.int 0)) := by
  unfold Options.getMaxOperations
  generalize o.maxParallelOperations = v at h
  cases h with
  | unset => exact ⟨1, rfl, .inl ⟨rfl, nofun⟩⟩
  | noLimit => exact ⟨0, rfl, .inr ⟨rfl, rfl, rfl⟩⟩
  | number pos => exact ⟨_, rfl, .inl ⟨rfl, by simpa using pos.ne'⟩⟩
  | percentage hp nonneg => exact ⟨_, getScaledValue_percentage hp _, .inl ⟨rfl, nofun⟩⟩

end Count

/-- Without a limit on unavailable nodes, as many objects are selected as the documentation of
`MaxParallelOperations` allows, unless the value is the integer 0 and there is a candidate: then none is
selected. -/
theorem slot_count_iff (sorter : Sorter compareRanked) {o : Options} (hU : o.maxUnavailable = none)
    (nodes : List Node) (nms : List NodeMaintenance) {limit : Option Int}
    (hlimit : Documented nodes.length o.maxParallelOperations limit) :
    ∃ l, selection sorter o nodes nms = .ok (some l) ∧
      ((l.length : Int) = allowance limit (nodesUnderMaintenance nodes nms).card
          (candidateNodes nodes nms).card ↔
        o.maxParallelOperations ≠ some (.int 0) ∨ candidateNodes nodes nms = ∅) := by
  obtain ⟨P, hP, hagree⟩ := hlimit.getMaxOperations
  obtain ⟨l, hl, hlen⟩ := length_selection sorter nms hU hP
  refine ⟨l, hl, ?_⟩
  rcases hagree with ⟨rfl, hne⟩ | ⟨rfl, rfl, hzero⟩
  · exact ⟨fun _ => .inl hne, fun _ => hlen⟩
  · -- no slot is left, so all depends on whether there is a candidate
    rw [← Finset.card_eq_zero]
    simp only [allowance, hzero, ne_eq, not_true_eq_false, false_or]
    omega

/-- Half of three nodes, rounded up, with two candidate nodes, one of them requested twice, and none
under maintenance. -/
theorem slot_count_of_half :
    ∃ l, selection (Sorter.insertion compareRanked) ⟨none, some (.str "50%")⟩
        [plainNode "node-1", plainNode "node-2", plainNode "node-3"]
        [pendingRequest "nm-1" "node-1" 0, pendingRequest "nm-2" "node-2" 0,
          pendingRequest "nm-3" "node-2" 0] = .ok (some l) ∧ l.length = 2 := by
  obtain ⟨l, hl, hiff⟩ := slot_count_iff (Sorter.insertion compareRanked)
    (o := ⟨none, some (.str "50%")⟩) rfl
    [plainNode "node-1", plainNode "node-2", plainNode "node-3"]
    [pendingRequest "nm-1" "node-1" 0, pendingRequest "nm-2" "node-2" 0,
      pendingRequest "nm-3" "node-2" 0]
    (.percentage (p := 50) (by decide) (by decide))
  have hlen : (l.length : Int) = 2 := (hiff.mpr (.inl nofun)).trans (by decide +kernel)
  exact ⟨l, hl, by omega⟩

/-- With the value 0, the only request is not selected. -/
theorem no_slot_without_limit :
    selection (Sorter.insertion compareRanked) ⟨none, some (.int 0)⟩ [plainNode "node-1"]
        [pendingRequest "nm-1" "node-1" 0] = .ok (some []) ∧
      Documented 1 (some (.int 0)) none ∧
      allowance none (nodesUnderMaintenance [plainNode "node-1"] [pendingRequest "nm-1" "node-1" 0]).card
        (candidateNodes [plainNode "node-1"] [pendingRequest "nm-1" "node-1" 0]).card = 1 :=
  ⟨by decide +kernel, .noLimit, by decide +kernel⟩

end MaintenanceOperator.Scheduler
