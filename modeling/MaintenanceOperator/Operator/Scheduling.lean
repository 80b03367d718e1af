import MaintenanceOperator.Controller.Rounds
import MaintenanceOperator.Operator.Discipline

/-!
# The scheduler keeps to its permissions

A round decides on a snapshot. What makes its writes safe is that the snapshot shows everything the
scheduler itself has put under maintenance, and that nobody else puts anything there: so the node of
each chosen object is still free when the object is written, except for what the round itself has
written before, which is on other nodes.
-/

namespace MaintenanceOperator
open Lib Discipline Scheduler

variable {σ : Scope} {r : Reconciler} {sorter : Sorter compareRanked} {A : OperatorState → Prop}
  {α : Type} {b : NodeMaintenance} {l : List NodeMaintenance}

/-- Triples of the scheduler. -/
abbrev RoundTriple (σ : Scope) (r : Reconciler) (sorter : Sorter compareRanked) {α : Type}
    (A : OperatorState → Prop) (x : Action α) (Q : α → OperatorState → Prop) : Prop :=
  (discipline σ r sorter).TripleE .scheduler A x Q

/-- No stored object on the node is under maintenance. -/
def Free (name : String) (s : OperatorState) : Prop :=
  ∀ k o, s.world.nms.get k = some o → 2 ≤ phase o → o.spec.nodeName ≠ name

/-- What is left to write in a round: versions of objects not under maintenance, on different nodes
that are all free. -/
def Chosen (σ : Scope) (l : List NodeMaintenance) (s : OperatorState) : Prop :=
  (l.map fun b => b.spec.nodeName).Nodup ∧
    ∀ b ∈ l, b ∈ s.world.history ∧ phase b < 2 ∧ (σ.exclusive → Free b.spec.nodeName s)

lemma Free.rely {name : String} {s s' : OperatorState} (h : Free name s) (hr : RelyScheduler s s') :
    Free name s' := by
  intro k o' ho' h₂
  obtain ⟨o, ho, hname, ho₂⟩ := hr.under ho' h₂
  exact hname ▸ h k o ho ho₂

lemma stable_chosen : (discipline σ r sorter).Stable .scheduler (Chosen σ l) := by
  rintro s s' - - hr ⟨hnodup, h⟩
  refine ⟨hnodup, fun b hb => ?_⟩
  obtain ⟨hh, hp, hfree⟩ := h b hb
  exact ⟨hr.history b hh, hp, fun hex => (hfree hex).rely hr⟩

/-- A call of the scheduler that changes nothing. -/
lemma exec_read {e : Op} {s s' : OperatorState} {a : Resp e} (he : e.part = .nothing)
    (h : operatorExec .scheduler e s a s') : s' = s := by
  obtain ⟨w', written⟩ := s'
  obtain ⟨hperf, hw, -⟩ := h
  have hf := hperf.frame
  rw [he] at hf
  obtain rfl : w' = s.world := hf.eq
  simp only [newVersions, Nat.sub_self, List.take_zero, List.nil_append] at hw
  rw [hw]

/-- A write puts only its own object under maintenance. -/
lemma Free.statusUpdate {name : String} {s s' : OperatorState} {o b' : NodeMaintenance}
    (h : Free name s) (ne : o.spec.nodeName ≠ name)
    (hw : s'.world = s.world.write (s.world.mergeStatus o b')) : Free name s' := by
  intro k o' ho' h₂
  rw [hw] at ho'
  rcases World.get_write ho' with ⟨-, ho'⟩ | ⟨-, -, rfl⟩
  · exact h k o' ho' h₂
  · exact ne

/-- The write of one of the chosen objects leaves the others chosen. -/
lemma Chosen.statusUpdate {s s' : OperatorState} {b' : NodeMaintenance} {a : Resp (.statusUpdate b')}
    (hinv : Inv σ s) (h : Chosen σ (b :: l) s) (hb' : b'.resourceVersion = b.resourceVersion)
    (hexec : operatorExec .scheduler (.statusUpdate b') s a s') : Chosen σ l s' := by
  obtain ⟨hnodup, hall⟩ := h
  obtain ⟨hnew, hnodup⟩ := List.nodup_cons.mp hnodup
  refine ⟨hnodup, fun c hc => ?_⟩
  obtain ⟨hh, hp, hfree⟩ := hall c (.tail _ hc)
  refine ⟨hexec.1.history_subset c hh, hp, fun hex => ?_⟩
  rcases WriteAnswer.effect hexec.1 with hw | ⟨a', ha'⟩
  · intro k o ho h₂
    rw [hw] at ho
    exact hfree hex k o ho h₂
  · obtain ⟨o, ho, hm, rfl, hw⟩ := World.statusUpdate_eq_some ha'
    obtain rfl : o = b :=
      hinv.consistent.eq_of_version ho (hall b (.head _)).1 (hm.2.2.trans hb')
    refine (hfree hex).statusUpdate (fun e => hnew ?_) hw
    exact List.mem_map.mpr ⟨c, hc, e.symm⟩

/-- Writing one of the chosen objects. -/
lemma writeChosen_triple (b : NodeMaintenance) (l : List NodeMaintenance) (now : Nat) :
    (discipline σ r sorter).Triple .scheduler (Chosen σ (b :: l))
      (issue (.statusUpdate (withReadyReason b .scheduled "" now))) fun _ => Chosen σ l := by
  refine Triple.lift stable_chosen (fun _ => stable_chosen) ?_ ?_
  · intro s hinv ⟨_, h⟩ o ho hm
    obtain ⟨hb, hp, hfree⟩ := h b (.head _)
    obtain rfl : o = b := hinv.consistent.eq_of_version ho hb hm.2.2
    exact ⟨by simp, hp, readyStatusOk_withReadyReason o .scheduled "" now,
      fun hex _ _ ho₁ h₂ => hfree hex _ _ ho₁ h₂⟩
  · intro s a s' hinv _ hA hexec
    refine hA.statusUpdate hinv ?_ hexec
    rfl

/-- What a round decides on a snapshot is free: whatever is under maintenance on an existing node is
so in the snapshot too. -/
lemma chosen_of_decision {s : OperatorState} {nodes : List Node} {nms l : List NodeMaintenance}
    {o : Options} (hinv : Inv σ s) (hmem : ∀ x ∈ nms, x ∈ s.world.history)
    (hown : ReflectsOwnWrites s .listNodeMaintenances (.ok nms))
    (hdec : decision sorter o nodes nms = .ok (some l)) : Chosen σ l s := by
  refine ⟨(eligible_of_decision hdec).2, fun b hb => ?_⟩
  obtain ⟨hbmem, hunder⟩ := phase_lt_of_decision hdec hb
  refine ⟨hmem b hbmem, hunder b hbmem rfl, fun hex k o ho h₂ hname => ?_⟩
  obtain ⟨v, hv, hvh, hvu, hvp⟩ := hinv.written hex ho h₂
  obtain ⟨hvk, -⟩ := hinv.consistent.identity hvh (hinv.consistent.stored ho) hvu
  have ho' : s.world.nms.get v.key = some o := by
    rw [hvk, Store.key_of_get ho]
    exact ho
  -- the snapshot has this version of the object or a later one, which is no further back
  obtain ⟨x, hx, hxu, hle⟩ := hown nms rfl v hv o ho' hvu.symm
  have hxh := hmem x hx
  have hxp := hinv.monotone hvh hxh hxu.symm hle
  have hxn := (hinv.consistent.identity hxh (hinv.consistent.stored ho) (hxu.trans hvu)).2
  have := hunder x hx (hxn.trans hname)
  omega

/-- The scheduler writes what is chosen. -/
lemma round : Round (discipline σ r sorter) .scheduler sorter (Chosen σ) where
  stable _ := stable_chosen
  perm_read {_ e} he := by
    cases e with
    | statusUpdate b => cases he
    | _ => exact he
  exec_read := exec_read
  decided hinv hexec hl := chosen_of_decision hinv hexec.1.2.1 hexec.2.2 hl
  shuffled hexec := hexec.1.2
  reorder hperm h := ⟨(hperm.map _).nodup_iff.mpr h.1, fun b hb => h.2 b (hperm.mem_iff.mp hb)⟩
  tail h := ⟨(List.nodup_cons.mp h.1).2, fun b hb => h.2 b (.tail _ hb)⟩
  write := writeChosen_triple

/-- The body of the scheduler. -/
theorem scheduler_triple {o : Options} :
    RoundTriple σ r sorter (fun _ => True) (Scheduler.reconcile sorter o) fun _ _ => True :=
  round.reconcile_triple

end MaintenanceOperator
