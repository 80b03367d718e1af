import MaintenanceOperator.Operator.Restart

/-!
# Parallel operations

The limit on parallel operations, in every state of every run of the operator. A round of the scheduler
counts what is under maintenance in a snapshot, which may be old, and writes its choice one object after
the other while the reconcilers go on. The count is right all the same: the snapshot shows whatever the
scheduler itself has put under maintenance, and nobody else puts anything there. So what is under
maintenance, together with what the round has still to write, stays within the limit of the round.
-/

namespace MaintenanceOperator
open Lib Discipline Scheduler

/-- The nodes that are counted, the lists of nodes that rounds may see, which have them all, and the options
that rounds may have, with a limit on the operations that none of them exceeds. -/
structure Regime where
  nodes : Finset String
  limit : Nat
  lists : List Node → Prop
  options : Options → Prop
  listed : ∀ {l}, lists l → nodes ⊆ nodesAsSet l
  bounded : ∀ {o l P}, options o → lists l → o.getMaxOperations l.length = .ok P → P ≤ limit

/-- The list of nodes is one that rounds may see. -/
def Regime.Shows (G : Regime) : (e : Op) → Resp e → Prop
  | .listNodes _, r => ∀ l, r = .ok l → G.lists l
  | _, _ => True

/-- The operator under a regime. -/
def regulated (r : Reconciler) (sorter : Sorter compareRanked) (G : Regime) :
    System Worker Op Resp OperatorState (Except Err Result) where
  exec i e s a s' := operatorExec i e s a s' ∧ (i = .scheduler → G.Shows e a)
  env := (operator r sorter).env
  body
    | .reconciler key, p => p = (r.reconcile key).run
    | .scheduler, p => ∃ o, G.options o ∧ p = (Scheduler.reconcile sorter o).run

/-- The nodes with an object under maintenance. -/
def underMaintenance (nodes : Finset String) (w : World) : Finset String :=
  nodes.filter fun n => ∃ o ∈ w.nms.items, isUnderMaintenance o = true ∧ o.spec.nodeName = n

section Count
variable {nodes : Finset String} {w w' : World} {s s' : OperatorState} {n : String}

lemma mem_underMaintenance : n ∈ underMaintenance nodes w ↔ n ∈ nodes ∧
    ∃ k o, w.nms.get k = some o ∧ 2 ≤ phase o ∧ o.spec.nodeName = n := by
  rw [underMaintenance, Finset.mem_filter]
  refine and_congr_right fun _ => ⟨?_, ?_⟩
  · rintro ⟨o, ho, hu, hname⟩
    exact ⟨o.key, o, Store.mem_items.mp ho, (isUnderMaintenance_iff o).mp hu, hname⟩
  · rintro ⟨k, o, ho, hu, hname⟩
    exact ⟨o, Store.get_mem ho, (isUnderMaintenance_iff o).mpr hu, hname⟩

/-- The others put nothing under maintenance. -/
lemma RelyScheduler.underMaintenance_subset (h : RelyScheduler s s') :
    underMaintenance nodes s'.world ⊆ underMaintenance nodes s.world := by
  intro n hn
  obtain ⟨hmem, k, o', ho', h₂, hname⟩ := mem_underMaintenance.mp hn
  obtain ⟨o, ho, hsame, h₂'⟩ := h.under ho' h₂
  exact mem_underMaintenance.mpr ⟨hmem, k, o, ho, h₂', hsame.trans hname⟩

/-- A status update adds the node of its object, at most. -/
lemma underMaintenance_write {o b : NodeMaintenance} (hw : w' = w.write (w.mergeStatus o b)) :
    underMaintenance nodes w' ⊆ underMaintenance nodes w ∪ nodes ∩ {o.spec.nodeName} := by
  intro n hn
  obtain ⟨hmem, k, o', ho', h₂, hname⟩ := mem_underMaintenance.mp hn
  rw [hw] at ho'
  rcases World.get_write ho' with ⟨-, hk⟩ | ⟨-, -, rfl⟩
  · exact Finset.mem_union_left _ (mem_underMaintenance.mpr ⟨hmem, k, o', hk, h₂, hname⟩)
  · refine Finset.mem_union_right _ (Finset.mem_inter.mpr ⟨hmem, ?_⟩)
    rw [Finset.mem_singleton, ← hname]
    rfl

end Count

variable {σ : Scope} {r : Reconciler} {sorter : Sorter compareRanked} {G : Regime} {bound : Nat}
  {l : List NodeMaintenance} {b : NodeMaintenance} {s : OperatorState} {β : Type}

/-- The scheduler writes only objects whose node still fits. -/
def FitsOne (G : Regime) (bound : Nat) (s : OperatorState) : Op → Prop
  | .statusUpdate b => ∀ o, s.world.nms.get b.key = some o → Matches o b →
      (underMaintenance G.nodes s.world ∪ G.nodes ∩ {o.spec.nodeName}).card ≤ bound
  | _ => True

/-- The plan of the operator, with the bound as part of the invariant. -/
def regulation (σ : Scope) (r : Reconciler) (sorter : Sorter compareRanked) (G : Regime) (bound : Nat) :
    Discipline (regulated r sorter G) where
  inv s := Inv σ s ∧ (underMaintenance G.nodes s.world).card ≤ bound
  perm i s e := perm σ i s e ∧ (i = .scheduler → FitsOne G bound s e)
  rely := rely
  inv_call {i s e a s'} hinv hperm hexec := by
    refine ⟨hinv.1.call hperm.1 hexec.1, ?_⟩
    cases i with
    | reconciler key =>
      have hrely := Inv.rely_scheduler hperm.1 hexec.1.1
      exact (Finset.card_le_card hrely.underMaintenance_subset).trans hinv.2
    | scheduler =>
      by_cases he : e.part = .nothing
      · rw [exec_read he hexec.1]
        exact hinv.2
      · cases e with
        | statusUpdate b =>
          rcases WriteAnswer.effect hexec.1.1 with hw | ⟨_, heff⟩
          · rw [hw]
            exact hinv.2
          · obtain ⟨o, ho, hm, rfl, hw⟩ := World.statusUpdate_eq_some heff
            exact (Finset.card_le_card (underMaintenance_write hw)).trans (hperm.2 rfl o ho hm)
        | _ => exact absurd hperm.1 he
  rely_call hne hinv hperm hexec := (discipline σ r sorter).rely_call hne hinv.1 hperm.1 hexec.1
  inv_env {c s'} hinv henv := by
    refine ⟨(discipline σ r sorter).inv_env (c := c) hinv.1 henv, ?_⟩
    exact (Finset.card_le_card (henv.1.rely .scheduler).underMaintenance_subset).trans hinv.2
  rely_env {c s' j p} _ _ henv := henv.1.rely j

/-- What a reconciler keeps to in the plan of the operator, it keeps to under a regime. -/
lemma regulation_triple {key : NamespacedName} {A : OperatorState → Prop} {p : Proc β}
    {Q : β → OperatorState → Prop} (h : (discipline σ r sorter).Triple (.reconciler key) A p Q) :
    (regulation σ r sorter G bound).Triple (.reconciler key) A p Q := by
  refine Triple.transfer (D := discipline σ r sorter) ?_ ?_ ?_ ?_ h
  · exact fun s hinv => hinv.1
  · exact fun s s' hr => hr
  · exact fun s e _ hperm => ⟨hperm, fun hi => by cases hi⟩
  · exact fun e s a s' hexec => hexec.1

/-! ### The rounds of the scheduler -/

/-- What is left to write in a round still fits. -/
def Pending (σ : Scope) (G : Regime) (bound : Nat) (l : List NodeMaintenance) (s : OperatorState) : Prop :=
  Chosen σ l s ∧ (underMaintenance G.nodes s.world ∪ G.nodes ∩ targets l).card ≤ bound

lemma stable_pending : (regulation σ r sorter G bound).Stable .scheduler (Pending σ G bound l) := by
  intro s s' hinv hinv' hr h
  have hr : RelyScheduler s s' := hr
  have hchosen : (discipline σ r sorter).Stable .scheduler (Chosen σ l) := stable_chosen
  refine ⟨hchosen s s' hinv.1 hinv'.1 hr h.1, ?_⟩
  exact (Finset.card_le_card (Finset.union_subset_union_left hr.underMaintenance_subset)).trans h.2

lemma targets_mono {l' : List NodeMaintenance} (h : l' ⊆ l) : targets l' ⊆ targets l := by
  intro n hn
  obtain ⟨b, hb, hname⟩ := mem_targets.mp hn
  exact mem_targets.mpr ⟨b, h hb, hname⟩

/-- A part of what is left fits as well. -/
lemma Pending.sublist {l' : List NodeMaintenance} (h : Pending σ G bound l s) (hl : l' ⊆ l)
    (hc : Chosen σ l' s) : Pending σ G bound l' s := by
  refine ⟨hc, (Finset.card_le_card ?_).trans h.2⟩
  exact Finset.union_subset_union_right (Finset.inter_subset_inter_left (targets_mono hl))

/-- The scheduler may read. -/
lemma regulation_perm_read {e : Op} (he : e.part = .nothing) :
    (regulation σ r sorter G bound).perm .scheduler s e := by
  have hround : Round (discipline σ r sorter) .scheduler sorter (Chosen σ) := round
  refine ⟨hround.perm_read he, fun _ => ?_⟩
  cases e with
  | statusUpdate b => cases he
  | _ => trivial

/-- An action of the scheduler that changes nothing. -/
lemma regulated_silent {A : OperatorState → Prop} {x : Action β}
    (hA : (regulation σ r sorter G bound).Stable .scheduler A) (hx : Touches [] x) :
    (regulation σ r sorter G bound).TripleE .scheduler A x fun _ => A := by
  have hnothing : ∀ {e : Op}, e.part = .nothing ∨ e.part ∈ ([] : List Part) → e.part = .nothing :=
    fun h => h.resolve_right List.not_mem_nil
  refine TripleE.of_all hA (fun s e _ _ he => regulation_perm_read (hnothing he)) ?_ hx
  intro s e a s' _ _ hAs he hexec
  rw [exec_read (hnothing he) hexec.1]
  exact hAs

/-- Writing one of the chosen objects uses up the room of its node. -/
lemma writePending_triple (b : NodeMaintenance) (l : List NodeMaintenance) (now : Nat) :
    (regulation σ r sorter G bound).Triple .scheduler (Pending σ G bound (b :: l))
      (issue (.statusUpdate (withReadyReason b .scheduled "" now))) fun _ => Pending σ G bound l := by
  have hroom : ∀ w, underMaintenance G.nodes w ∪ G.nodes ∩ targets (b :: l) =
      underMaintenance G.nodes w ∪ G.nodes ∩ {b.spec.nodeName} ∪ G.nodes ∩ targets l := by
    intro w
    have hcons : targets (b :: l) = {b.spec.nodeName} ∪ targets l := by
      ext n
      simp [mem_targets, eq_comm]
    rw [hcons, Finset.inter_union_distrib_left, Finset.union_assoc]
  refine Triple.lift stable_pending (fun _ => stable_pending) ?_ ?_
  · intro s hinv hpend
    have hwrite : (discipline σ r sorter).Triple .scheduler (Chosen σ (b :: l))
        (issue (.statusUpdate (withReadyReason b .scheduled "" now))) fun _ => Chosen σ l :=
      writeChosen_triple b l now
    refine ⟨(hwrite s hinv.1 hpend.1 s .refl).1, fun _ o ho hm => ?_⟩
    obtain rfl : o = b := hinv.1.consistent.eq_of_version ho (hpend.1.2 b (.head _)).1 hm.2.2
    refine (Finset.card_le_card ?_).trans hpend.2
    rw [hroom]
    exact Finset.subset_union_left
  · intro s a s' hinv _ hpend hexec
    have hversion : (withReadyReason b .scheduled "" now).resourceVersion = b.resourceVersion := rfl
    refine ⟨hpend.1.statusUpdate hinv.1 hversion hexec.1, (Finset.card_le_card ?_).trans hpend.2⟩
    rw [hroom]
    refine Finset.union_subset_union_left ?_
    rcases WriteAnswer.effect hexec.1.1 with hw | ⟨_, heff⟩
    · rw [hw]
      exact Finset.subset_union_left
    · obtain ⟨o, ho, hm, rfl, hw⟩ := World.statusUpdate_eq_some heff
      obtain rfl : o = b := hinv.1.consistent.eq_of_version ho (hpend.1.2 b (.head _)).1 hm.2.2
      exact underMaintenance_write hw

/-- The objects that follow are left. -/
lemma Pending.tail (h : Pending σ G bound (b :: l) s) : Pending σ G bound l s := by
  refine h.sublist (List.subset_cons_self b l) ?_
  exact ⟨(List.nodup_cons.mp h.1.1).2, fun c hc => h.1.2 c (.tail _ hc)⟩

/-- Writing one of the chosen objects; an error is as good as a success. -/
lemma setPending_triple : (regulation σ r sorter G bound).Triple .scheduler (Pending σ G bound (b :: l))
    (setReadyConditionReason b .scheduled).run fun _ => Pending σ G bound l := by
  have hskip : ∀ res : Except Err NodeMaintenance, (regulation σ r sorter G bound).Triple .scheduler
      (Pending σ G bound (b :: l)) (.ret res) fun _ => Pending σ G bound l :=
    fun _ => .ret stable_pending fun s _ h => h.tail
  have hnow : (regulation σ r sorter G bound).Triple .scheduler (Pending σ G bound (b :: l)) timeNow.run
      fun _ => Pending σ G bound (b :: l) := by
    refine Triple.of_all (P := fun e => e = .now) stable_pending (fun _ _ _ _ he => ?_) ?_
      ⟨rfl, fun _ => trivial⟩
    · exact regulation_perm_read (he ▸ rfl)
    · rintro s _ a s' - - h rfl hexec
      rwa [exec_read rfl hexec.1]
  refine Triple.bind hnow fun res => ?_
  cases res with
  | error err => exact hskip _
  | ok now =>
    show Discipline.Triple _ _ _ (ExceptT.run (if _ then _ else _)) _
    split
    · exact writePending_triple b l now
    · exact hskip _

lemma markPending_triple (l : List NodeMaintenance) : (regulation σ r sorter G bound).TripleE .scheduler
    (Pending σ G bound l) (List.forM l markScheduled) fun _ _ => True := by
  induction l with
  | nil => exact .pure stable_pending fun _ _ _ => trivial
  | cons b l ih =>
    refine TripleE.bind (B := fun _ => Pending σ G bound l) ?_ fun _ => ih
    refine TripleE.bind (TripleE.lift setPending_triple) fun res => ?_
    cases res with
    | error err => exact .pure stable_pending fun _ _ h => h
    | ok nm => exact regulated_silent stable_pending (waitScheduled_touches _)

/-- The snapshot of a round shows what is under maintenance. -/
lemma underMaintenance_subset_snapshot {nodes : List Node} {nms : List NodeMaintenance} (hinv : Inv σ s)
    (hex : σ.exclusive) (hmem : ∀ x ∈ nms, x ∈ s.world.history)
    (hown : ReflectsOwnWrites s .listNodeMaintenances (.ok nms)) (hlist : G.lists nodes) :
    underMaintenance G.nodes s.world ⊆ nodesUnderMaintenance nodes nms := by
  intro n hn
  obtain ⟨hnode, k, o, ho, h₂, hname⟩ := mem_underMaintenance.mp hn
  obtain ⟨v, hv, hvh, hvu, hvp⟩ := hinv.written hex ho h₂
  obtain ⟨hvk, -⟩ := hinv.consistent.identity hvh (hinv.consistent.stored ho) hvu
  have ho' : s.world.nms.get v.key = some o := by
    rw [hvk, Store.key_of_get ho]
    exact ho
  -- the snapshot has this version of the object or a later one, which is no further back
  obtain ⟨x, hx, hxu, hle⟩ := hown nms rfl v hv o ho' hvu.symm
  have hxh := hmem x hx
  have hxp := hinv.monotone hvh hxh hxu.symm hle
  have hxn := (hinv.consistent.identity hxh (hinv.consistent.stored ho) (hxu.trans hvu)).2
  refine mem_nodesWith.mpr ⟨G.listed hlist hnode, x, hx, ?_, hxn.trans hname⟩
  exact (isUnderMaintenance_iff x).mpr (hvp.trans hxp)

/-- What a round decides fits. -/
lemma pending_of_decision {o : Options} {nodes : List Node} {nms : List NodeMaintenance}
    (hinv : (regulation σ r sorter G bound).inv s) (hex : σ.exclusive) (hlimit : G.limit ≤ bound)
    (hmem : ∀ x ∈ nms, x ∈ s.world.history) (hown : ReflectsOwnWrites s .listNodeMaintenances (.ok nms))
    (ho : G.options o) (hlist : G.lists nodes) (hdec : decision sorter o nodes nms = .ok (some l)) :
    Pending σ G bound l s := by
  refine ⟨chosen_of_decision hinv.1 hmem hown hdec, ?_⟩
  have hempty : l = [] → (underMaintenance G.nodes s.world ∪ G.nodes ∩ targets l).card ≤ bound := by
    rintro rfl
    have hnone : targets [] = ∅ := rfl
    rw [hnone, Finset.inter_empty, Finset.union_empty]
    exact hinv.2
  obtain ⟨ctx, hctx, hl | hl⟩ := decision_cases hdec
  · exact hempty hl
  · obtain ⟨_, P, _, hP, _⟩ := preSchedule_eq_ok hctx
    obtain ⟨l', hl', -, hfit, -⟩ := schedule_within_limits sorter hctx
    obtain rfl : l = l' := Option.some.inj (hl.symm.trans hl')
    rcases hfit P hP with hl | hcard
    · exact hempty hl
    · have hsub : underMaintenance G.nodes s.world ∪ G.nodes ∩ targets l ⊆
          nodesUnderMaintenance nodes nms ∪ targets l :=
        Finset.union_subset_union (underMaintenance_subset_snapshot hinv.1 hex hmem hown hlist)
          Finset.inter_subset_right
      have hle := Finset.card_le_card hsub
      have hP := G.bounded ho hlist hP
      omega

/-- The body of the scheduler. -/
lemma regulated_scheduler {o : Options} (hex : σ.exclusive) (hlimit : G.limit ≤ bound) (ho : G.options o) :
    (regulation σ r sorter G bound).TripleE .scheduler (fun _ => True) (Scheduler.reconcile sorter o)
      fun _ _ => True := by
  have hT : (regulation σ r sorter G bound).Stable .scheduler fun _ => True := Stable.const True
  have hnodes : (regulation σ r sorter G bound).TripleE .scheduler (fun _ => True)
      (Client.listNodes fun _ => true) fun nodes _ => G.lists nodes ∧ True := by
    refine Triple.lift hT (fun _ => Stable.ok fun _ => Stable.const _) (fun _ _ _ => regulation_perm_read rfl) ?_
    rintro s _ s' - - - hexec nodes rfl
    exact ⟨hexec.2 rfl nodes rfl, trivial⟩
  refine TripleE.bind hnodes fun nodes => ?_
  refine TripleE.of_pure fun hlist => ?_
  have hsnapshot : (regulation σ r sorter G bound).TripleE .scheduler (fun _ => True)
      Client.listNodeMaintenances fun nms s =>
        ∀ l, decision sorter o nodes nms = .ok (some l) → Pending σ G bound l s := by
    refine Triple.lift hT (fun _ => Stable.ok fun _ => Stable.all fun l => stable_pending.imp)
      (fun _ _ _ => regulation_perm_read rfl) ?_
    rintro s _ s' hinv - - hexec nms rfl l hl
    obtain rfl := exec_read rfl hexec.1
    exact pending_of_decision hinv hex hlimit hexec.1.1.2.1 hexec.1.2.2 ho hlist hl
  refine hsnapshot.bind fun nms => ?_
  cases hd : decision sorter o nodes nms with
  | error err => exact .throw
  | ok res =>
    cases res with
    | none => exact .throw
    | some l =>
      have hshuffle : (regulation σ r sorter G bound).TripleE .scheduler (Pending σ G bound l)
          (ExceptT.lift (issue (.shuffle l)) : Action (List NodeMaintenance))
          fun order => Pending σ G bound order := by
        refine TripleE.lift (Triple.lift stable_pending (fun _ => stable_pending)
          (fun _ _ _ => regulation_perm_read rfl) ?_)
        intro s order s' _ _ hpend hexec
        have hperm := hexec.1.1.2
        rw [exec_read rfl hexec.1]
        have hround : Round (discipline σ r sorter) .scheduler sorter (Chosen σ) := round
        exact hpend.sublist hperm.subset (hround.reorder hperm hpend.1)
      refine TripleE.pre (hshuffle.bind fun order => ?_) fun s _ h => h l rfl
      exact TripleE.bind (markPending_triple order) fun _ => .pure hT fun _ _ h => h

/-- Every body that a worker may start under a regime keeps to its permissions. -/
lemma regulated_body (hex : σ.exclusive) (hlimit : G.limit ≤ bound) (i : Worker)
    (p : Proc (Except Err Result)) (h : (regulated r sorter G).body i p) :
    (regulation σ r sorter G bound).Triple i (fun _ => True) p fun _ _ => True := by
  cases i with
  | reconciler key =>
    have hbody : (operator r sorter).body (.reconciler key) p := h
    exact regulation_triple (body_triple σ (.reconciler key) p hbody)
  | scheduler =>
    obtain ⟨o, ho, rfl⟩ := h
    exact Triple.conseq (regulated_scheduler hex hlimit ho) (fun _ _ h => h) fun _ _ _ _ => trivial

/-- The objects under maintenance on the nodes. -/
def operations (nodes : Finset String) (w : World) : List NodeMaintenance :=
  w.nms.items.filter fun o => isUnderMaintenance o && o.spec.nodeName ∈ nodes

/-- With one maintenance per node, there are as many operations as nodes under maintenance. -/
lemma OnePerNode.operations_eq {w : World} (h : OnePerNode w) (nodes : Finset String) :
    (operations nodes w).length = (underMaintenance nodes w).card := by
  have hset : ((operations nodes w).map fun o => o.spec.nodeName).toFinset = underMaintenance nodes w := by
    ext n
    simp only [operations, underMaintenance, List.mem_toFinset, List.mem_map, List.mem_filter,
      Finset.mem_filter, Bool.and_eq_true, decide_eq_true_eq]
    constructor
    · rintro ⟨o, ⟨ho, hu, hn⟩, rfl⟩
      exact ⟨hn, o, ho, hu, rfl⟩
    · rintro ⟨hn, o, ho, hu, rfl⟩
      exact ⟨o, ⟨ho, hu, hn⟩, rfl⟩
  have hnodup : ((operations nodes w).map fun o => o.spec.nodeName).Nodup := by
    refine List.Nodup.map_on ?_ ((List.Nodup.of_map _ w.nms.nodup).filter _)
    intro o ho o' ho' hname
    simp only [operations, List.mem_filter, Bool.and_eq_true, Store.mem_items] at ho ho'
    have hkey := h _ o _ o' ho.1 ho'.1 ho.2.1 ho'.2.1 hname
    exact Option.some.inj (ho.1.symm.trans (hkey ▸ ho'.1))
  rw [← hset, List.toFinset_card_of_nodup hnodup, List.length_map]

/-- The bound holds at the start of every life. -/
lemma regulated_lives {s₀ : OperatorState} (hex : σ.exclusive) (hlimit : G.limit ≤ bound)
    (hinv : Inv σ s₀) (hcard : (underMaintenance G.nodes s₀.world).card ≤ bound)
    (lives : Lives (fun b : Build => regulated b.1 b.2 G) OperatorState.restarted s₀ s) :
    Inv σ s ∧ (underMaintenance G.nodes s.world).card ≤ bound :=
  Lives.inv (I := fun s => Inv σ s ∧ (underMaintenance G.nodes s.world).card ≤ bound)
    (D := fun b : Build => regulation σ b.1 b.2 G bound) (fun _ _ => Iff.rfl)
    (fun _ => regulated_body hex hlimit) (fun _ h => ⟨h.1.restarted, h.2⟩) ⟨hinv, hcard⟩ lives

/-- Two nodes, and the default options: one operation at a time. -/
def twoNodes : Regime where
  nodes := {"node-1", "node-2"}
  limit := 1
  lists l := {"node-1", "node-2"} ⊆ nodesAsSet l
  options o := o = ⟨none, none⟩
  listed h := h
  bounded := by
    rintro _ l P rfl - hP
    cases hP
    exact le_refl _

/-- The answer does not hide one of the two nodes. -/
def showsBoth : (e : Op) → Resp e → Bool
  | .listNodes _, .ok l => decide ({"node-1", "node-2"} ⊆ nodesAsSet l)
  | _, _ => true

lemma shows_of_showsBoth {e : Op} {a : Resp e} (h : showsBoth e a = true) : twoNodes.Shows e a := by
  cases e with
  | listNodes matching =>
    rintro l rfl
    have hboth : {"node-1", "node-2"} ⊆ nodesAsSet l := of_decide_eq_true h
    exact hboth
  | _ => trivial

/-- A player for two nodes. -/
def twoNodesPlayer : Player (regulated ⟨false, strokeFormats⟩ (Sorter.insertion compareRanked) twoNodes)
    Incident where
  program := player.program
  body {i _} h := by
    cases i with
    | reconciler key => exact (Option.some.inj h).symm
    | scheduler => exact ⟨_, rfl, (Option.some.inj h).symm⟩
  answer i e s := (operatorAnswer i e s).filter fun as => showsBoth e as.1
  exec h := by
    obtain ⟨hans, hshows⟩ := Option.filter_eq_some_iff.mp h
    exact ⟨operatorExec_of_answer hans, fun _ => shows_of_showsBoth hshows⟩
  event := player.event
  env := player.env

/-- A request for a node. -/
def requestOn (nodeName : String) : NodeMaintenance :=
  newNodeMaintenance ⟨"default", nodeName⟩ nodeName ⟨"requestor.nvidia.com", [], nodeName, true, none, none⟩

end MaintenanceOperator
