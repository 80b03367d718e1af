import MaintenanceOperator.Controller.Parts
import MaintenanceOperator.Lib.System
import MaintenanceOperator.Operator.Phase
import MaintenanceOperator.Scheduler.Limits

/-!
# The way through a scheduler round

A round of the scheduler decides on a snapshot, and then writes what it has chosen, one object after
the other. What a proof plan has to say about a round (`Round`) is which objects are still in order to
be written; the rest is the same for every plan.
-/

namespace MaintenanceOperator
open Lib Discipline Scheduler

variable {ι S α : Type} {Y : System ι Op Resp S α} {D : Discipline Y} {i : ι}
  {sorter : Sorter compareRanked} {b : NodeMaintenance} {l : List NodeMaintenance}

/-- What is left to show for a plan: `C l` says that the objects of `l` may still be written. -/
structure Round (D : Discipline Y) (i : ι) (sorter : Sorter compareRanked)
    (C : List NodeMaintenance → S → Prop) : Prop where
  stable : ∀ l, D.Stable i (C l)
  perm_read : ∀ {s e}, e.part = .nothing → D.perm i s e
  exec_read : ∀ {e s a s'}, e.part = .nothing → Y.exec i e s a s' → s' = s
  decided : ∀ {s o nodes nms l}, D.inv s → Y.exec i .listNodeMaintenances s (.ok nms) s →
    decision sorter o nodes nms = .ok (some l) → C l s
  shuffled : ∀ {l order s s'}, Y.exec i (.shuffle l) s order s' → List.Perm order l
  reorder : ∀ {l l' s}, List.Perm l' l → C l s → C l' s
  tail : ∀ {b l s}, C (b :: l) s → C l s
  write : ∀ b l now, D.Triple i (C (b :: l))
    (issue (.statusUpdate (withReadyReason b .scheduled "" now))) fun _ => C l

/-- What a round chooses is in the snapshot, and not under maintenance there. -/
lemma phase_lt_of_decision {o : Options} {nodes : List Node} {nms : List NodeMaintenance}
    (hdec : decision sorter o nodes nms = .ok (some l)) (hb : b ∈ l) :
    b ∈ nms ∧ ∀ x ∈ nms, x.spec.nodeName = b.spec.nodeName → phase x < 2 := by
  obtain ⟨hbmem, hnode, hnot⟩ := (eligible_of_decision hdec).1 b hb
  refine ⟨hbmem, fun x hx hname => ?_⟩
  by_contra h₂
  refine hnot (mem_nodesWith.mpr ⟨hnode, x, hx, ?_, hname⟩)
  rw [isUnderMaintenance_iff]
  omega

lemma waitScheduled_touches {key : NamespacedName} (n : Nat) : Touches [] (waitScheduled key n) := by
  induction n with
  | zero => exact .pure
  | succ n ih =>
    refine .bind (.observe getNodeMaintenance_touches) fun res => ?_
    cases res with
    | error err => exact .ite .pure ih
    | ok nm => exact .ite .pure ih

namespace Round
variable {C : List NodeMaintenance → S → Prop} {A : S → Prop} {β : Type}

/-- An action of the scheduler that changes nothing. -/
lemma silent (P : Round D i sorter C) {x : Action β} (hA : D.Stable i A) (hx : Touches [] x) :
    D.TripleE i A x fun _ => A := by
  have hnothing : ∀ {e : Op}, e.part = .nothing ∨ e.part ∈ ([] : List Part) → e.part = .nothing :=
    fun h => h.resolve_right List.not_mem_nil
  refine TripleE.of_all hA (fun s e _ _ he => P.perm_read (hnothing he)) ?_ hx
  intro s e a s' _ _ hAs he hexec
  rw [P.exec_read (hnothing he) hexec]
  exact hAs

/-- Writing one of the chosen objects; an error is as good as a success. -/
lemma setReady_triple (P : Round D i sorter C) :
    D.Triple i (C (b :: l)) (setReadyConditionReason b .scheduled).run fun _ => C l := by
  have hskip : ∀ res : Except Err NodeMaintenance, D.Triple i (C (b :: l)) (.ret res) fun _ => C l :=
    fun _ => .ret (P.stable _) fun s _ h => P.tail h
  have hnow : D.Triple i (C (b :: l)) timeNow.run fun _ => C (b :: l) := by
    refine Triple.of_all (P := fun e => e = .now) (P.stable _) (fun _ _ _ _ he => ?_) ?_
      ⟨rfl, fun _ => trivial⟩
    · exact P.perm_read (he ▸ rfl)
    · rintro s _ a s' - - h rfl hexec
      rwa [P.exec_read rfl hexec]
  refine Triple.bind hnow fun res => ?_
  cases res with
  | error err => exact hskip _
  | ok now =>
    show D.Triple i _ (ExceptT.run (if _ then _ else _)) _
    split
    · exact P.write b l now
    · exact hskip _

lemma markScheduled_triple (P : Round D i sorter C) :
    D.TripleE i (C (b :: l)) (markScheduled b) fun _ => C l := by
  refine TripleE.bind (TripleE.lift P.setReady_triple) fun res => ?_
  cases res with
  | error err => exact .pure (P.stable l) fun _ _ h => h
  | ok nm => exact P.silent (P.stable l) (waitScheduled_touches _)

lemma markAll_triple (P : Round D i sorter C) (l : List NodeMaintenance) :
    D.TripleE i (C l) (List.forM l markScheduled) fun _ _ => True := by
  induction l with
  | nil => exact .pure (P.stable _) fun _ _ _ => trivial
  | cons b l ih => exact TripleE.bind P.markScheduled_triple fun _ => ih

/-- The body of the scheduler. -/
theorem reconcile_triple (P : Round D i sorter C) {o : Options} :
    D.TripleE i (fun _ => True) (Scheduler.reconcile sorter o) fun _ _ => True := by
  have hT : D.Stable i fun _ => True := Stable.const True
  refine TripleE.bind (P.silent hT ⟨.inl rfl, fun _ => trivial⟩) fun nodes => ?_
  have hlist : D.TripleE i (fun _ => True) Client.listNodeMaintenances fun nms s =>
      ∀ l, decision sorter o nodes nms = .ok (some l) → C l s := by
    refine Triple.lift hT (fun _ => Stable.ok fun _ => Stable.all fun l => (P.stable l).imp)
      (fun _ _ _ => P.perm_read rfl) ?_
    rintro s _ s' hinv - - hexec nms rfl l hl
    obtain rfl := P.exec_read rfl hexec
    exact P.decided hinv hexec hl
  refine hlist.bind fun nms => ?_
  cases hd : decision sorter o nodes nms with
  | error err => exact .throw
  | ok res =>
    cases res with
    | none => exact .throw
    | some l =>
      have hshuffle : D.TripleE i (C l) (ExceptT.lift (issue (.shuffle l)) : Action (List NodeMaintenance))
          fun order => C order := by
        refine TripleE.lift (Triple.lift (P.stable l) P.stable (fun _ _ _ => P.perm_read rfl) ?_)
        intro s order s' _ _ hCs hexec
        have hperm := P.shuffled hexec
        rw [P.exec_read rfl hexec]
        exact P.reorder hperm hCs
      refine TripleE.pre (hshuffle.bind fun order => ?_) fun s _ h => h l rfl
      exact TripleE.bind (P.markAll_triple order) fun _ => .pure hT fun _ _ h => h

end Round
end MaintenanceOperator
