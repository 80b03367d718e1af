import Mathlib.Logic.Relation
import MaintenanceOperator.Scheduler.Limits

/-!
# Scheduling limits over runs

Rounds of the scheduler interleaved with the life of NodeMaintenances and nodes. A round reads a
snapshot in which everything now under maintenance already is (only the scheduler's own writes put
anything under maintenance), decides, and then writes the recommended objects one by one; between any
two writes objects may be created, progress, or be deleted, and nodes may change. `RoundStep true` is
the variant in which node flags are read as they are and a node turns unavailable only while it is
under maintenance, as cordon and drain make it.
-/

namespace MaintenanceOperator.Scheduler
open Lib Relation

/-- Nodes, NodeMaintenances, and what the present round has still to write. -/
structure RoundState where
  nodes : List Node
  nms : List NodeMaintenance
  unwritten : List NodeMaintenance

/-- One step of a run. -/
inductive RoundStep (sorter : Sorter compareRanked) (o : Options) (strict : Bool) :
    RoundState → RoundState → Prop where
  | decide {s nodes nms l} : s.unwritten = [] →
      nodes.map Node.name = s.nodes.map Node.name →
      nodesUnderMaintenance s.nodes s.nms ⊆ nodesUnderMaintenance nodes nms →
      (strict = true → nodes = s.nodes) →
      decision sorter o nodes nms = .ok (some l) →
      RoundStep sorter o strict s { s with unwritten := l }
  | write {s nm b before after now} : b ∈ s.unwritten → s.nms = before ++ nm :: after →
      nm.key = b.key → nm.spec.nodeName = b.spec.nodeName →
      RoundStep sorter o strict s { s with
        nms := before ++ withReadyReason nm .scheduled "" now :: after
        unwritten := s.unwritten.erase b }
  | fail {s b} : RoundStep sorter o strict s { s with unwritten := s.unwritten.erase b }
  | create {s nm} : isUnderMaintenance nm = false →
      RoundStep sorter o strict s { s with nms := nm :: s.nms }
  | progress {s nm nm' before after} : s.nms = before ++ nm :: after →
      nm'.spec.nodeName = nm.spec.nodeName →
      (isUnderMaintenance nm' = true → isUnderMaintenance nm = true) →
      RoundStep sorter o strict s { s with nms := before ++ nm' :: after }
  | delete {s nm before after} : s.nms = before ++ nm :: after →
      RoundStep sorter o strict s { s with nms := before ++ after }
  | nodes {s nodes} : nodes.map Node.name = s.nodes.map Node.name →
      (strict = true → (getCurrentUnavailableNodes nodes).toFinset ⊆
        totalNodeUnavailable s.nodes s.nms) →
      RoundStep sorter o strict s { s with nodes := nodes }

variable {sorter : Sorter compareRanked} {o : Options} {strict : Bool} {s s' : RoundState}

/-- Nodes under maintenance, or about to be. -/
def RoundState.committed (s : RoundState) : Finset String :=
  nodesUnderMaintenance s.nodes s.nms ∪ targets s.unwritten

/-- Nodes unavailable or under maintenance, or about to be. -/
def RoundState.unavailable (s : RoundState) : Finset String :=
  totalNodeUnavailable s.nodes s.nms ∪ targets s.unwritten

lemma underMaintenance_subset (s : RoundState) :
    nodesUnderMaintenance s.nodes s.nms ⊆ s.committed :=
  Finset.subset_union_left

lemma total_subset (s : RoundState) : totalNodeUnavailable s.nodes s.nms ⊆ s.unavailable :=
  Finset.subset_union_left

/-- Between rounds nothing is about to be under maintenance. -/
lemma committed_of_idle (h : s.unwritten = []) :
    s.committed = nodesUnderMaintenance s.nodes s.nms := by
  simp [RoundState.committed, h, targets]

lemma unavailable_of_idle (h : s.unwritten = []) :
    s.unavailable = totalNodeUnavailable s.nodes s.nms := by
  simp [RoundState.unavailable, h, targets]

lemma nodesUnderMaintenance_mono {nodes nodes' : List Node} {nms nms' : List NodeMaintenance}
    {extra : Finset String} (hnodes : nodes'.map Node.name = nodes.map Node.name)
    (h : ∀ nm' ∈ nms', isUnderMaintenance nm' = true →
      nm'.spec.nodeName ∈ extra ∨
        ∃ nm ∈ nms, isUnderMaintenance nm = true ∧ nm.spec.nodeName = nm'.spec.nodeName) :
    nodesUnderMaintenance nodes' nms' ⊆ nodesUnderMaintenance nodes nms ∪ extra := by
  intro n hn
  obtain ⟨hex, nm', hnm', hu, rfl⟩ := mem_nodesWith.mp hn
  rcases h nm' hnm' hu with he | ⟨nm, hnm, hu', hname⟩
  · exact Finset.mem_union_right _ he
  · refine Finset.mem_union_left _ (mem_nodesWith.mpr ⟨?_, nm, hnm, hu', hname⟩)
    rwa [nodesAsSet, hnodes] at hex

lemma targets_erase_subset (l : List NodeMaintenance) (b : NodeMaintenance) :
    targets (l.erase b) ⊆ targets l := by
  intro n hn
  obtain ⟨nm, hnm, rfl⟩ := mem_targets.mp hn
  exact mem_targets.mpr ⟨nm, List.mem_of_mem_erase hnm, rfl⟩

/-- A step other than a decision adds nothing to what is committed or unavailable. -/
structure Shrinks (strict : Bool) (s s' : RoundState) : Prop where
  underMaintenance : nodesUnderMaintenance s'.nodes s'.nms ⊆ s.committed
  unwritten : targets s'.unwritten ⊆ targets s.unwritten
  unavailable : strict = true →
    (getCurrentUnavailableNodes s'.nodes).toFinset ⊆ totalNodeUnavailable s.nodes s.nms

lemma Shrinks.committed_subset (h : Shrinks strict s s') : s'.committed ⊆ s.committed :=
  Finset.union_subset h.underMaintenance (h.unwritten.trans Finset.subset_union_right)

lemma committed_subset_unavailable (s : RoundState) : s.committed ⊆ s.unavailable :=
  Finset.union_subset_union_left Finset.subset_union_right

lemma Shrinks.unavailable_subset (h : Shrinks strict s s') (hs : strict = true) :
    s'.unavailable ⊆ s.unavailable := by
  refine Finset.union_subset (Finset.union_subset ?_ ?_) ?_
  · exact (h.unavailable hs).trans Finset.subset_union_left
  · exact h.underMaintenance.trans (committed_subset_unavailable s)
  · exact h.unwritten.trans Finset.subset_union_right

/-- Replacing, adding or dropping objects, when whatever is under maintenance afterwards was so before
or is on a node about to be. -/
lemma Shrinks.of_nms {nms unwritten : List NodeMaintenance}
    (h : ∀ nm' ∈ nms, isUnderMaintenance nm' = true →
      nm'.spec.nodeName ∈ targets s.unwritten ∨
        ∃ nm ∈ s.nms, isUnderMaintenance nm = true ∧ nm.spec.nodeName = nm'.spec.nodeName)
    (hu : targets unwritten ⊆ targets s.unwritten) :
    Shrinks strict s { s with nms, unwritten } :=
  ⟨nodesUnderMaintenance_mono rfl h, hu, fun _ => Finset.subset_union_left⟩

/-- What a decision commits, or makes unavailable, is within the limits. -/
lemma decision_within_limits {nodes : List Node} {nms l : List NodeMaintenance}
    (hnodes : nodes.map Node.name = s.nodes.map Node.name)
    (hfresh : nodesUnderMaintenance s.nodes s.nms ⊆ nodesUnderMaintenance nodes nms)
    (hstrict : strict = true → nodes = s.nodes) (hdec : decision sorter o nodes nms = .ok (some l)) :
    (∀ P, o.getMaxOperations s.nodes.length = .ok P →
      ({ s with unwritten := l } : RoundState).committed ⊆ s.committed ∨
        (({ s with unwritten := l } : RoundState).committed.card : Int) ≤ P) ∧
    (strict = true → ∀ U, 0 ≤ U → o.getMaxUnavailableNodes s.nodes.length = .ok U →
      ({ s with unwritten := l } : RoundState).unavailable ⊆ s.unavailable ∨
        (({ s with unwritten := l } : RoundState).unavailable.card : Int) ≤ U) := by
  -- the decision is made on a snapshot, which may be older than the state: `hfresh` compares them
  obtain ⟨ctx, hctx, hl⟩ := decision_cases hdec
  have hlen : nodes.length = s.nodes.length := by
    simpa using congrArg List.length hnodes
  rcases hl with rfl | hl
  · exact ⟨fun _ _ => .inl (by simp [RoundState.committed, targets]),
      fun _ _ _ _ => .inl (by simp [RoundState.unavailable, targets])⟩
  obtain ⟨l', hl', -, hP, hU⟩ := schedule_within_limits sorter hctx
  obtain rfl : l = l' := Option.some.inj (hl.symm.trans hl')
  rw [hlen] at hP hU
  refine ⟨fun P hP' => (hP P hP').imp ?_ ?_, fun hs U hU0 hU' => ?_⟩
  · rintro rfl
    simp [RoundState.committed, targets]
  · intro hle
    have hsub := Finset.card_le_card (Finset.union_subset_union_left hfresh (t := targets l))
    exact (Int.ofNat_le.mpr hsub).trans hle
  · obtain rfl := hstrict hs
    refine (hU U hU0 hU').imp ?_ ?_
    · intro hsub
      refine Finset.union_subset Finset.subset_union_left (hsub.trans ?_)
      exact Finset.subset_union_left.trans Finset.subset_union_left
    · intro hle
      have htot : totalNodeUnavailable s.nodes s.nms ⊆ totalNodeUnavailable s.nodes nms :=
        Finset.union_subset_union_right hfresh
      have hsub := Finset.card_le_card (Finset.union_subset_union_left htot (t := targets l))
      exact (Int.ofNat_le.mpr hsub).trans hle

/-- What one step can do: add nothing, or commit to nodes that fit the limits. -/
lemma RoundStep.cases_limits (st : RoundStep sorter o strict s s') :
    s'.nodes.map Node.name = s.nodes.map Node.name ∧
      (Shrinks strict s s' ∨
        (∀ P, o.getMaxOperations s.nodes.length = .ok P →
          s'.committed ⊆ s.committed ∨ (s'.committed.card : Int) ≤ P) ∧
        (strict = true → ∀ U, 0 ≤ U → o.getMaxUnavailableNodes s.nodes.length = .ok U →
          s'.unavailable ⊆ s.unavailable ∨ (s'.unavailable.card : Int) ≤ U)) := by
  cases st with
  | @decide nodes nms l hempty hnodes hfresh hstrict hdec =>
    exact ⟨rfl, .inr (decision_within_limits hnodes hfresh hstrict hdec)⟩
  | @write nm b before after now hb hnms hkey hname =>
    refine ⟨rfl, .inl (.of_nms ?_ (targets_erase_subset _ _))⟩
    -- the written object is on a node that was recommended
    intro nm' hnm' hu
    rcases List.mem_append.mp hnm' with h | h
    · exact .inr ⟨nm', by simp [hnms, h], hu, rfl⟩
    · rcases List.mem_cons.mp h with rfl | h
      · exact .inl (mem_targets.mpr ⟨b, hb, hname.symm⟩)
      · exact .inr ⟨nm', by simp [hnms, h], hu, rfl⟩
  | @fail b =>
    exact ⟨rfl, .inl (.of_nms (fun nm' h hu => .inr ⟨nm', h, hu, rfl⟩) (targets_erase_subset _ _))⟩
  | @create nm hnew =>
    refine ⟨rfl, .inl (.of_nms ?_ subset_rfl)⟩
    intro nm' hnm' hu
    rcases List.mem_cons.mp hnm' with rfl | h
    · simp [hnew] at hu
    · exact .inr ⟨nm', h, hu, rfl⟩
  | @progress nm nm₁ before after hnms hname hmono =>
    refine ⟨rfl, .inl (.of_nms ?_ subset_rfl)⟩
    intro nm' hnm' hu
    rcases List.mem_append.mp hnm' with h | h
    · exact .inr ⟨nm', by simp [hnms, h], hu, rfl⟩
    · rcases List.mem_cons.mp h with rfl | h
      · exact .inr ⟨nm, by simp [hnms], hmono hu, hname.symm⟩
      · exact .inr ⟨nm', by simp [hnms, h], hu, rfl⟩
  | @delete nm before after hnms =>
    refine ⟨rfl, .inl (.of_nms ?_ subset_rfl)⟩
    intro nm' hnm' hu
    refine .inr ⟨nm', ?_, hu, rfl⟩
    rcases List.mem_append.mp hnm' with h | h <;> simp [hnms, h]
  | @nodes nodes hnodes hun =>
    refine ⟨hnodes, .inl ⟨?_, subset_rfl, hun⟩⟩
    exact (nodesUnderMaintenance_mono hnodes fun nm' h hu => .inr ⟨nm', h, hu, rfl⟩).trans
      (Finset.union_subset Finset.subset_union_left (Finset.empty_subset _))

/-- Along a run, what is committed or unavailable never exceeds the limit, unless it did at the
start. -/
lemma limits_along_run (run : ReflTransGen (RoundStep sorter o strict) s s') :
    s'.nodes.map Node.name = s.nodes.map Node.name ∧
      (∀ P, o.getMaxOperations s.nodes.length = .ok P →
        (s'.committed.card : Int) ≤ max P s.committed.card) ∧
      (strict = true → ∀ U, 0 ≤ U → o.getMaxUnavailableNodes s.nodes.length = .ok U →
        (s'.unavailable.card : Int) ≤ max U s.unavailable.card) := by
  induction run with
  | refl => exact ⟨rfl, fun _ _ => le_max_right _ _, fun _ _ _ _ => le_max_right _ _⟩
  | @tail s₁ s₂ _ st ih =>
    obtain ⟨hnames, hP, hU⟩ := ih
    obtain ⟨hnames', hstep⟩ := st.cases_limits
    have hlen : s₁.nodes.length = s.nodes.length := by simpa using congrArg List.length hnames
    rw [hlen] at hstep
    refine ⟨hnames'.trans hnames, fun P hP' => ?_, fun hs U hU0 hU' => ?_⟩
    · have bound := hP P hP'
      have hsub : s₂.committed ⊆ s₁.committed ∨ (s₂.committed.card : Int) ≤ P :=
        hstep.elim (fun h => .inl h.committed_subset) (fun h => h.1 P hP')
      rcases hsub with h | h
      · have := Finset.card_le_card h
        omega
      · omega
    · have bound := hU hs U hU0 hU'
      have hsub : s₂.unavailable ⊆ s₁.unavailable ∨ (s₂.unavailable.card : Int) ≤ U :=
        hstep.elim (fun h => .inl (h.unavailable_subset hs)) (fun h => h.2 hs U hU0 hU')
      rcases hsub with h | h
      · have := Finset.card_le_card h
        omega
      · omega

/-- Some of the recommended objects have been moved to Scheduled, nothing else has changed. -/
def MovedSome (l : List NodeMaintenance) : List NodeMaintenance → List NodeMaintenance → Prop :=
  List.Forall₂ fun nm nm' => nm' = nm ∨ nm ∈ l ∧ ∃ now, nm' = withReadyReason nm .scheduled "" now

lemma MovedSome.nodesUnderMaintenance_subset {l nms nms' : List NodeMaintenance}
    (h : MovedSome l nms nms') (nodes : List Node) :
    nodesUnderMaintenance nodes nms' ⊆ nodesUnderMaintenance nodes nms ∪ targets l := by
  refine nodesUnderMaintenance_mono rfl fun nm' hnm' hu => ?_
  induction h with
  | nil => cases hnm'
  | @cons nm nm₁ nms nms' hmove _ ih =>
    rcases List.mem_cons.mp hnm' with rfl | hnm'
    · rcases hmove with rfl | ⟨hl, now, rfl⟩
      · exact .inr ⟨_, .head _, hu, rfl⟩
      · exact .inl (mem_targets.mpr ⟨nm, hl, rfl⟩)
    · exact (ih hnm').imp id fun ⟨nm, hnm, h⟩ => ⟨nm, .tail _ hnm, h⟩

/-- One round: every node is found, and whichever of the recommended objects are moved to Scheduled,
the limits hold unless they were exceeded before. -/
lemma limits_after_round {nodes : List Node} {nms : List NodeMaintenance} {ctx : SchedulerContext}
    (sorter : Sorter compareRanked) (h : preSchedule o nodes nms = .ok ctx) :
    ∃ l, schedule sorter (newClusterState nodes nms) ctx = some l ∧
      ∀ nms', MovedSome l nms nms' →
        (∀ P, o.getMaxOperations nodes.length = .ok P →
          ((nodesUnderMaintenance nodes nms').card : Int) ≤
            max P (nodesUnderMaintenance nodes nms).card) ∧
        ∀ U, 0 ≤ U → o.getMaxUnavailableNodes nodes.length = .ok U →
          ((totalNodeUnavailable nodes nms').card : Int) ≤
            max U (totalNodeUnavailable nodes nms).card := by
  obtain ⟨l, hl, -, hP, hU⟩ := schedule_within_limits sorter h
  refine ⟨l, hl, fun nms' hmove => ⟨fun P hP' => ?_, fun U hU0 hU' => ?_⟩⟩
  · have hle := Finset.card_le_card (hmove.nodesUnderMaintenance_subset nodes)
    rcases hP P hP' with rfl | hfit
    · simp only [targets, List.map_nil, List.toFinset_nil, Finset.union_empty] at hle
      omega
    · omega
  · have htot : totalNodeUnavailable nodes nms' ⊆ totalNodeUnavailable nodes nms ∪ targets l := by
      rw [totalNodeUnavailable, totalNodeUnavailable, Finset.union_assoc]
      exact Finset.union_subset_union_right (hmove.nodesUnderMaintenance_subset nodes)
    have hle := Finset.card_le_card htot
    rcases hU U hU0 hU' with hsub | hfit
    · have habs : totalNodeUnavailable nodes nms ∪ targets l = totalNodeUnavailable nodes nms :=
        Finset.union_eq_left.mpr (hsub.trans Finset.subset_union_left)
      rw [habs] at hle
      omega
    · omega

/-- The limits of the configuration hold after every round, and along every run, unless they were
exceeded at its start. -/
theorem scheduling_limits (sorter : Sorter compareRanked) (o : Options) :
    (∀ nodes nms ctx, preSchedule o nodes nms = .ok ctx →
      ∃ l, schedule sorter (newClusterState nodes nms) ctx = some l ∧
        ∀ nms', MovedSome l nms nms' →
          (∀ P, o.getMaxOperations nodes.length = .ok P →
            ((nodesUnderMaintenance nodes nms').card : Int) ≤
              max P (nodesUnderMaintenance nodes nms).card) ∧
          ∀ U, 0 ≤ U → o.getMaxUnavailableNodes nodes.length = .ok U →
            ((totalNodeUnavailable nodes nms').card : Int) ≤
              max U (totalNodeUnavailable nodes nms).card) ∧
    ∀ strict s s', s.unwritten = [] → ReflTransGen (RoundStep sorter o strict) s s' →
      (∀ P, o.getMaxOperations s.nodes.length = .ok P →
        ((nodesUnderMaintenance s'.nodes s'.nms).card : Int) ≤
          max P (nodesUnderMaintenance s.nodes s.nms).card) ∧
      (strict = true → ∀ U, 0 ≤ U → o.getMaxUnavailableNodes s.nodes.length = .ok U →
        ((totalNodeUnavailable s'.nodes s'.nms).card : Int) ≤
          max U (totalNodeUnavailable s.nodes s.nms).card) := by
  refine ⟨fun nodes nms ctx h => limits_after_round sorter h, fun strict s s' hempty run => ?_⟩
  obtain ⟨-, hP, hU⟩ := limits_along_run run
  rw [committed_of_idle hempty] at hP
  rw [unavailable_of_idle hempty] at hU
  refine ⟨fun P hP' => ?_, fun hs U hU0 hU' => ?_⟩
  · exact (Int.ofNat_le.mpr (Finset.card_le_card (underMaintenance_subset s'))).trans (hP P hP')
  · exact (Int.ofNat_le.mpr (Finset.card_le_card (total_subset s'))).trans (hU hs U hU0 hU')

/-- Two pending requests on two nodes. -/
def twoPending : List NodeMaintenance :=
  ["node-1", "node-2"].map fun name =>
    withReadyReason (newNodeMaintenance ⟨"default", name⟩ name
      ⟨"requestor.nvidia.com", [], name, true, none, none⟩) .pending "" 0

/-- With the default limit of one operation, one of two pending requests is recommended, and the
limit holds after the round. -/
theorem scheduling_limits_two_pending :
    let nodes := [plainNode "node-1", plainNode "node-2"]
    let sorter := Sorter.insertion compareRanked
    ∃ ctx, preSchedule ⟨none, none⟩ nodes twoPending = .ok ctx ∧
      (schedule sorter (newClusterState nodes twoPending) ctx).map List.length = some 1 ∧
      ∃ l, schedule sorter (newClusterState nodes twoPending) ctx = some l ∧
        ∀ nms', MovedSome l twoPending nms' →
          ((nodesUnderMaintenance nodes nms').card : Int) ≤ max 1 0 := by
  refine ⟨_, rfl, by decide +kernel, ?_⟩
  obtain ⟨l, hl, hlimits⟩ :=
    (scheduling_limits (Sorter.insertion compareRanked) ⟨none, none⟩).1
      [plainNode "node-1", plainNode "node-2"] twoPending _ rfl
  exact ⟨l, hl, fun nms' hmove => (hlimits nms' hmove).1 1 rfl⟩

end MaintenanceOperator.Scheduler
