import MaintenanceOperator.Cluster.Serve
import MaintenanceOperator.Controller.Changes
import MaintenanceOperator.Controller.Flow
import MaintenanceOperator.Controller.Rounds
import MaintenanceOperator.Lib.Script
import MaintenanceOperator.Operator.System

/-!
# A node is cordoned while it is maintained

All NodeMaintenances at once, on nodes whose unschedulable flag only the operator writes. The flag of a
node is written for the object under maintenance there, of which there is one at most. An object enters
phase Cordon with the finalizer, and the update that put it there has made its spec ask for cordon; it
leaves the phase only once the flag is set, or was found set. From then on only the cleanup of the same
object, when it is deleted, may clear the flag.
-/

namespace MaintenanceOperator
open Lib Discipline Reconciler Host

/-- What the others leave alone: specs, nodes and their flags. The finalizer belongs to the operator,
so no object is created with it. -/
structure LeavesCordon (w w' : World) : Prop where
  spec : ∀ {k o o'}, w.nms.get k = some o → w'.nms.get k = some o' → o'.spec = o.spec
  created : ∀ {k o'}, w.nms.get k = none → w'.nms.get k = some o' → ¬ Guarded o'
  flag : ∀ {n f}, unschedulable w n = some f → unschedulable w' n = some f

/-- What a worker sees: the reconcilers the present cluster, the scheduler a cache. -/
def Worker.reads : Worker → ReadMode
  | .scheduler => .cached
  | .reconciler _ => .current

/-- The operator at work, with at most one object per node under maintenance at any time. -/
def cordoning (r : Reconciler) (sorter : Sorter Scheduler.compareRanked) :
    System Worker Op Resp World (Except Err Result) where
  exec i e w a w' := Perform i.reads e w a w' ∧ OnePerNode w'
  env c w' := Event c.state w' ∧ KeepsMarks c.state w' ∧ LeavesCordon c.state w' ∧ OnePerNode w'
  body
    | .reconciler key, p => p = (r.reconcile key).run
    | .scheduler, p => ∃ o, p = (Scheduler.reconcile sorter o).run

/-- What an object says about its node. -/
structure Cordoned (w : World) (o : NodeMaintenance) : Prop where
  cordon : Guarded o → o.spec.cordon = true
  guarded : 3 ≤ phase o → o.deleting = false → Guarded o
  node : 3 ≤ phase o → (unschedulable w o.spec.nodeName).isSome = true
  mark : initialState o ≠ none → Guarded o ∧ 3 ≤ phase o
  value : ∀ {v}, initialState o = some v →
    v = falseString ∨ unschedulable w o.spec.nodeName = some true
  flag : o.spec.cordon = true → 4 ≤ phase o → o.deleting = false →
    unschedulable w o.spec.nodeName = some true

/-- The invariant. -/
structure CordonedInv (w : World) : Prop where
  consistent : Consistent w
  one : OnePerNode w
  stored : ∀ {k o}, w.nms.get k = some o → Cordoned w o

/-- An update keeps, drops or records the annotation, and takes the finalizer off an object without it
that is deleted or has not been cordoned. -/
structure AnnotationOk (w : World) (o b : NodeMaintenance) : Prop where
  mark : initialState b = initialState o ∨ initialState b = none ∨
    3 ≤ phase o ∧ Guarded b ∧
      ∃ f, unschedulable w o.spec.nodeName = some f ∧ initialState b = some (formatBool f)
  release : Guarded o → Guarded b ∨ initialState b = none ∧ (phase o < 3 ∨ o.deleting = true)

/-- A status update goes forward, to Cordon with the finalizer and on from there with the flag set. -/
structure PhaseOk (w : World) (o b : NodeMaintenance) : Prop where
  le : phase o ≤ phase b
  toCordon : phase o < 3 → 3 ≤ phase b →
    Guarded o ∧ (unschedulable w o.spec.nodeName).isSome = true
  toWait : phase o < 4 → 4 ≤ phase b → o.deleting = false →
    unschedulable w o.spec.nodeName = some true

/-- Permissions. -/
def cordoningPerm : Worker → World → Op → Prop
  | .scheduler, w, .statusUpdate b => ∀ k o, w.nms.get k = some o → Matches o b →
      phase o < 2 ∧ getReadyConditionReason b = .scheduled
  | .scheduler, _, e => e.part = .nothing
  | .reconciler key, w, .update b => b.key = key ∧
      ∀ o, w.nms.get key = some o → Matches o b → AnnotationOk w o b
  | .reconciler key, w, .statusUpdate b => b.key = key ∧
      ∀ o, w.nms.get key = some o → Matches o b → PhaseOk w o b
  | .reconciler key, w, .patchUnschedulable name desired =>
      ∃ o, w.nms.get key = some o ∧ o.spec.nodeName = name ∧ 3 ≤ phase o ∧
        (desired = false → o.deleting = true ∧ initialState o = some falseString)
  | .reconciler _, _, _ => True

/-- The stored object is where `m` was, up to the annotation. -/
structure Stands (m : NodeMaintenance) (v : Option String) (o : NodeMaintenance) : Prop where
  guarded : Guarded o
  nodeName : o.spec.nodeName = m.spec.nodeName
  phase : phase o = phase m
  deleting : m.deleting = true → o.deleting = true
  initial : initialState o = v

/-- What a reconciler relies on: an object under maintenance with the finalizer is its own. -/
structure KeptRely (key : NamespacedName) (w w' : World) : Prop where
  history : ∀ v ∈ w.history, v ∈ w'.history
  node : ∀ {n}, (unschedulable w n).isSome = true → (unschedulable w' n).isSome = true
  stands : ∀ {o}, w.nms.get key = some o → Guarded o → 2 ≤ phase o →
    ∃ o', w'.nms.get key = some o' ∧ Stands o (initialState o) o'
  flag : ∀ {o f}, w.nms.get key = some o → 2 ≤ phase o →
    unschedulable w o.spec.nodeName = some f → unschedulable w' o.spec.nodeName = some f

section Calls
variable {mode : ReadMode} {i : Worker} {key : NamespacedName} {w w' : World} {o o' b : NodeMaintenance}
  {e : Op} {a : Resp e}

lemma Stands.refl (hg : Guarded o) : Stands o (initialState o) o := ⟨hg, rfl, rfl, id, rfl⟩

lemma Stands.trans {m : NodeMaintenance} {v : Option String} (h : Stands m v o) (h' : Stands o (initialState o) o') :
    Stands m v o' :=
  ⟨h'.guarded, h'.nodeName.trans h.nodeName, h'.phase.trans h.phase,
    fun hdel => h'.deleting (h.deleting hdel), h'.initial.trans h.initial⟩

/-- Only the flag of its own node matters to an object. -/
lemma Cordoned.congr (h : Cordoned w o)
    (hflag : unschedulable w' o.spec.nodeName = unschedulable w o.spec.nodeName) : Cordoned w' o := by
  refine ⟨h.cordon, h.guarded, fun h₃ => ?_, h.mark, fun hv => ?_, fun hc h₄ hdel => ?_⟩
  · rw [hflag]
    exact h.node h₃
  · rw [hflag]
    exact h.value hv
  · rw [hflag]
    exact h.flag hc h₄ hdel

/-- A permitted update. The spec that it stores asks for cordon. -/
lemma Cordoned.update (h : Cordoned w o) (hok : AnnotationOk w o b)
    (hname : b.spec.nodeName = o.spec.nodeName) :
    Cordoned w (w.stamp (w.merge o b b.spec.normalize)) := by
  have hn : (w.stamp (w.merge o b b.spec.normalize)).spec.nodeName = o.spec.nodeName := hname
  refine ⟨fun _ => rfl, fun h₃ hdel => ?_, fun h₃ => ?_, fun hne => ?_, fun {v} hv => ?_,
    fun _ h₄ hdel => ?_⟩
  · refine (hok.release (h.guarded h₃ hdel)).resolve_right ?_
    rintro ⟨-, hlt | hdel'⟩
    · exact absurd h₃ (Nat.not_le.mpr hlt)
    · exact Bool.false_ne_true (hdel.symm.trans hdel')
  · rw [hn]
    exact h.node h₃
  · rcases hok.mark with e | e | ⟨h₃, hg, -⟩
    · obtain ⟨hg, h₃⟩ := h.mark fun ho => hne (e.trans ho)
      exact ⟨(hok.release hg).resolve_right fun hr => hne hr.1, h₃⟩
    · exact absurd e hne
    · exact ⟨hg, h₃⟩
  · rw [hn]
    rcases hok.mark with e | e | ⟨-, -, f, hf, e⟩
    · exact h.value (e ▸ hv)
    · exact absurd (e.symm.trans hv) nofun
    · obtain rfl := Option.some.inj (e.symm.trans hv)
      cases f with
      | false => exact .inl rfl
      | true => exact .inr hf
  · rw [hn]
    have h₃ : 3 ≤ phase o := Nat.le_of_succ_le h₄
    exact h.flag (h.cordon (h.guarded h₃ hdel)) h₄ hdel

/-- A permitted status update. -/
lemma Cordoned.status (h : Cordoned w o) (hok : PhaseOk w o b) :
    Cordoned w (w.stamp (w.mergeStatus o b)) := by
  refine ⟨h.cordon, fun h₃ hdel => ?_, fun h₃ => ?_, fun hne => ?_, h.value, fun hc h₄ hdel => ?_⟩
  · by_cases hlt : phase o < 3
    · exact (hok.toCordon hlt h₃).1
    · exact h.guarded (Nat.not_lt.mp hlt) hdel
  · by_cases hlt : phase o < 3
    · exact (hok.toCordon hlt h₃).2
    · exact h.node (Nat.not_lt.mp hlt)
  · obtain ⟨hg, h₃⟩ := h.mark hne
    exact ⟨hg, h₃.trans hok.le⟩
  · by_cases hlt : phase o < 4
    · exact hok.toWait hlt h₄ hdel
    · exact h.flag hc (Nat.not_lt.mp hlt) hdel

/-- The scheduler puts an object into a phase before Cordon. -/
lemma PhaseOk.schedule (hlt : phase o < 2) (hb : getReadyConditionReason b = .scheduled) :
    PhaseOk w o b := by
  have h₂ : phase b = 2 := phase_of_reason hb
  exact ⟨by omega, by omega, by omega⟩

/-- What a permitted call makes of a stored object. -/
lemma Cordoned.rewrite (h : Cordoned w o) (hp : cordoningPerm i w e) {k : NamespacedName}
    (ho : w.nms.get k = some o) (hrw : Rewrite w o e o') : Cordoned w o' := by
  cases hrw with
  | @update b hm hname =>
    cases i with
    | scheduler => cases hp
    | reconciler key =>
      obtain ⟨rfl, hok⟩ := hp
      refine h.update (hok o ?_ hm) hname
      rw [← hm.1, Store.key_of_get ho]
      exact ho
  | @statusUpdate b hm =>
    cases i with
    | scheduler =>
      obtain ⟨hlt, hb⟩ := hp k o ho hm
      exact h.status (.schedule hlt hb)
    | reconciler key =>
      obtain ⟨rfl, hok⟩ := hp
      refine h.status (hok o ?_ hm)
      rw [← hm.1, Store.key_of_get ho]
      exact ho

/-- Clearing a flag concerns nobody but the object that is cleaned up. -/
lemma Cordoned.patch {name : String} {desired : Bool} {k : NamespacedName} (h : CordonedInv w)
    (hp : cordoningPerm (.reconciler key) w (.patchUnschedulable name desired))
    (ho : w.nms.get k = some o) (hname : o.spec.nodeName = name)
    (hset : unschedulable w' name = some desired) : Cordoned w' o := by
  have hc := h.stored ho
  subst hname
  cases desired with
  | true => exact ⟨hc.cordon, hc.guarded, fun _ => by rw [hset]; rfl, hc.mark, fun _ => .inr hset,
      fun _ _ _ => hset⟩
  | false =>
    obtain ⟨o₁, ho₁, hname, h₃, hdes⟩ := hp
    obtain ⟨hdel₁, hmark₁⟩ := hdes rfl
    -- an object of this node in phase Cordon or later is the one that is cleaned up
    have hsame : 3 ≤ phase o → o = o₁ := by
      intro h₃'
      have hkey : k = key := h.one k o key o₁ ho ho₁ ((isUnderMaintenance_iff o).mpr (by omega))
        ((isUnderMaintenance_iff o₁).mpr (by omega)) hname.symm
      exact Option.some.inj (ho.symm.trans (hkey ▸ ho₁))
    refine ⟨hc.cordon, hc.guarded, fun _ => by rw [hset]; rfl, hc.mark, fun {v} hv => ?_,
      fun _ h₄ hdel => ?_⟩
    · obtain rfl := hsame (hc.mark fun e => Option.some_ne_none v (hv.symm.trans e)).2
      exact .inl (Option.some.inj (hv.symm.trans hmark₁))
    · obtain rfl := hsame (Nat.le_of_succ_le h₄)
      rw [hdel] at hdel₁
      cases hdel₁

/-- Patches of nodes are made by reconcilers. -/
lemma exists_key_of_patch {name : String} {desired : Bool}
    (hp : cordoningPerm i w (.patchUnschedulable name desired)) : ∃ key, i = .reconciler key := by
  cases i with
  | scheduler => cases hp
  | reconciler key => exact ⟨key, rfl⟩

/-- A permitted call keeps the invariant. -/
lemma CordonedInv.call (h : CordonedInv w) (hp : cordoningPerm i w e) (hperf : Perform mode e w a w')
    (hone : OnePerNode w') : CordonedInv w' := by
  refine ⟨hperf.consistent h.consistent, hone, fun {k o'} ho' => ?_⟩
  by_cases he : e.part = .nodes
  · cases e with
    | patchUnschedulable name desired =>
      obtain ⟨key, rfl⟩ := exists_key_of_patch hp
      rcases WriteAnswer.effect hperf with rfl | ⟨_, heff⟩
      · exact h.stored ho'
      · obtain ⟨hn, -, hset, hother⟩ := unschedulable_patch heff
        rw [hn] at ho'
        by_cases hname : o'.spec.nodeName = name
        · exact Cordoned.patch h hp ho' hname hset
        · exact (h.stored ho').congr (hother _ hname)
    | _ => cases he
  · have hflag := unschedulable_eq hperf he
    rcases hperf.stored ho' with hk | ⟨o, ho, hrw⟩
    · exact (h.stored hk).congr (hflag _)
    · exact ((h.stored ho).rewrite hp ho hrw).congr (hflag _)

/-- What the others make of an object says the same about its node. -/
lemma Cordoned.follows (h : Cordoned w o) (hfol : Follows o o') (hspec : o'.spec = o.spec)
    (hflag : ∀ {f}, unschedulable w o.spec.nodeName = some f →
      unschedulable w' o.spec.nodeName = some f) : Cordoned w' o' := by
  -- users and the scheduler move an object only between the phases before Cordon
  have hphase : 3 ≤ phase o' → phase o = phase o' := by
    rcases hfol.phase_cases with e | ⟨-, e⟩ <;> omega
  have hdeleting : o'.deleting = false → o.deleting = false := by
    intro hdel
    cases hd : o.deleting with
    | false => rfl
    | true => rw [hfol.deleting hd] at hdel; exact hdel
  have hle : phase o ≤ phase o' := by
    rcases hfol.phase_cases with e | ⟨hlt, e⟩ <;> omega
  refine ⟨fun hg => ?_, fun h₃ hdel => ?_, fun h₃ => ?_, fun hne => ?_, fun {v} hv => ?_,
    fun hc h₄ hdel => ?_⟩
  · rw [hspec]
    exact h.cordon (hfol.guarded.mp hg)
  · exact hfol.guarded.mpr (h.guarded (by rw [hphase h₃]; exact h₃) (hdeleting hdel))
  · obtain ⟨f, hf⟩ := Option.isSome_iff_exists.mp (h.node (by rw [hphase h₃]; exact h₃))
    rw [hspec, hflag hf]
    rfl
  · rw [hfol.initial] at hne
    obtain ⟨hg, h₃⟩ := h.mark hne
    exact ⟨hfol.guarded.mpr hg, h₃.trans hle⟩
  · rw [hfol.initial] at hv
    rw [hspec]
    exact (h.value hv).imp_right fun hf => hflag hf
  · rw [hspec] at hc ⊢
    have h₃ : 3 ≤ phase o' := Nat.le_of_succ_le h₄
    exact hflag (h.flag hc (by rw [hphase h₃]; exact h₄) (hdeleting hdel))

/-- Events keep the invariant. -/
lemma CordonedInv.event (h : CordonedInv w) (he : Event w w') (hm : KeepsMarks w w')
    (hl : LeavesCordon w w') (hone : OnePerNode w') : CordonedInv w' := by
  have hc : Change w w' := .event he hm
  refine ⟨hc.consistent h.consistent, hone, fun {k o'} ho' => ?_⟩
  rcases hc.stored ho' with ⟨o, ho, hfol⟩ | hfresh
  · exact (h.stored ho).follows hfol (hl.spec ho ho') hl.flag
  · -- a new object has done nothing yet
    have h₀ : phase o' = 0 := phase_of_reason hfresh.reason
    have hng := hl.created hfresh.free ho'
    refine ⟨fun hg => absurd hg hng, by omega, by omega, fun hne => absurd hfresh.initial hne,
      fun hv => ?_, by omega⟩
    rw [hfresh.initial] at hv
    cases hv

/-- The calls of the others, as a reconciler sees them. -/
lemma KeptRely.call (ne : i ≠ .reconciler key) (h : CordonedInv w) (hp : cordoningPerm i w e)
    (hperf : Perform mode e w a w') : KeptRely key w w' := by
  have hstands : ∀ {o}, w.nms.get key = some o → Guarded o → 2 ≤ phase o →
      ∃ o', w'.nms.get key = some o' ∧ Stands o (initialState o) o' := by
    intro o ho hg h₂
    rcases hperf.kept ho with hk | ⟨o', hrw, -⟩
    · exact ⟨o, hk, .refl hg⟩
    · -- another reconciler writes another object, the scheduler one that is not under maintenance
      exfalso
      have hkey := Store.key_of_get ho
      cases hrw with
      | update hm _ =>
        cases i with
        | scheduler => cases hp
        | reconciler k => exact ne (by rw [← hp.1, ← hm.1, hkey])
      | statusUpdate hm =>
        cases i with
        | scheduler => exact absurd h₂ (Nat.not_le.mpr (hp key o ho hm).1)
        | reconciler k => exact ne (by rw [← hp.1, ← hm.1, hkey])
  by_cases he : e.part = .nodes
  · cases e with
    | patchUnschedulable name desired =>
      obtain ⟨k, rfl⟩ := exists_key_of_patch hp
      obtain ⟨o₁, ho₁, hname, h₃, -⟩ := hp
      rcases WriteAnswer.effect hperf with rfl | ⟨_, heff⟩
      · exact ⟨fun _ hv => hv, id, hstands, fun _ _ hf => hf⟩
      · obtain ⟨hn, hh, hset, hother⟩ := unschedulable_patch heff
        refine ⟨fun _ hv => hh ▸ hv, fun {n} hsome => ?_, hstands, fun {o f} ho h₂ hf => ?_⟩
        · by_cases hn : n = name
          · rw [hn, hset]
            rfl
          · rw [hother n hn]
            exact hsome
        · refine (hother _ fun hname' => ne ?_).trans hf
          rw [h.one k o₁ key o ho₁ ho ((isUnderMaintenance_iff o₁).mpr (by omega))
            ((isUnderMaintenance_iff o).mpr h₂) (hname.trans hname'.symm)]
    | _ => cases he
  · have hflag := unschedulable_eq hperf he
    exact ⟨hperf.history_subset, fun {n} hsome => by rw [hflag]; exact hsome, hstands,
      fun _ _ hf => (hflag _).trans hf⟩

/-- Events, as a reconciler sees them. -/
lemma KeptRely.event (he : Event w w') (hm : KeepsMarks w w') (hl : LeavesCordon w w') :
    KeptRely key w w' := by
  have hc : Change w w' := .event he hm
  refine ⟨hc.history_subset, fun {n} hsome => ?_, fun {o} ho hg h₂ => ?_, fun _ _ hf => hl.flag hf⟩
  · obtain ⟨f, hf⟩ := Option.isSome_iff_exists.mp hsome
    rw [hl.flag hf]
    rfl
  · obtain ⟨o', ho', hfol⟩ := hc.persists ho hg
    refine ⟨o', ho', hfol.guarded.mpr hg, hfol.nodeName, ?_, hfol.deleting, hfol.initial⟩
    rcases hfol.phase_cases with e | ⟨hlt, -⟩ <;> omega

/-- A reconciler's own calls that make no difference. -/
lemma KeptRely.alike (hperf : Perform mode e w a w') (he : e = .update b ∨ e = .statusUpdate b)
    (hal : ∀ o, w.nms.get b.key = some o → Matches o b → Alike o b) : KeptRely key w w' := by
  have hpart : e.part ≠ .nodes := by rcases he with rfl | rfl <;> simp [Op.part]
  have hflag := unschedulable_eq hperf hpart
  refine ⟨hperf.history_subset, fun {n} hsome => by rw [hflag]; exact hsome, fun {o} ho hg _ => ?_,
    fun _ _ hf => (hflag _).trans hf⟩
  obtain ⟨o', ho', halike⟩ := Alike.kept hperf he hal ho hg
  refine ⟨o', ho', ?_, halike.nodeName, ?_, fun hdel => halike.deleting.trans hdel, halike.initial⟩
  · rwa [Guarded, halike.finalizers]
  · rw [phase, halike.reason, phase]

/-- Calls on neither nodes nor objects. -/
lemma KeptRely.frame (hperf : Perform mode e w a w') (hn : e.part ≠ .nodes)
    (hm : e.part ≠ .nodeMaintenances) : KeptRely key w w' := by
  have hflag := unschedulable_eq hperf hn
  refine ⟨hperf.history_subset, fun {n} hsome => by rw [hflag]; exact hsome, fun {o} ho hg _ => ?_,
    fun _ _ hf => (hflag _).trans hf⟩
  exact ⟨o, by rwa [hperf.frame.nms hm], .refl hg⟩

end Calls

section Plan
variable (r : Reconciler) (sorter : Sorter Scheduler.compareRanked)

/-- The proof plan. -/
def keeping : Discipline (cordoning r sorter) where
  inv := CordonedInv
  perm := cordoningPerm
  rely
    | .scheduler, w, w' => ∀ v ∈ w.history, v ∈ w'.history
    | .reconciler key, w, w' => KeptRely key w w'
  inv_call h hp he := h.call hp he.1 he.2
  rely_call {i j w e a w'} ne h hp he := by
    cases j with
    | scheduler => exact he.1.history_subset
    | reconciler key => exact .call ne h hp he.1
  inv_env h he := h.event he.1 he.2.1 he.2.2.1 he.2.2.2
  rely_env {c w' j p} _ _ he := by
    cases j with
    | scheduler => exact he.1.history_subset
    | reconciler key => exact .event he.1 he.2.1 he.2.2.1

/-- A reconciler, as a host. -/
def keepingHost (key : NamespacedName) : Host (keeping r sorter) (.reconciler key) key where
  world := id
  Keeps := KeptRely key
  Wrote w w' := ∀ {n}, (unschedulable w n).isSome = true → (unschedulable w' n).isSome = true
  MayUpdate := AnnotationOk
  MayStatus := PhaseOk
  consistent h := h.consistent
  perform h he := he.1.cached fun _ ho => h.consistent.stored (Store.mem_items.mp ho)
  perm_read {_ e} _ he := by
    cases e with
    | patchUnschedulable _ _ => cases he
    | update _ => cases he
    | statusUpdate _ => cases he
    | _ => trivial
  perm_update hk h := ⟨hk, h⟩
  perm_status hk h := ⟨hk, h⟩
  history h := h.history
  keeps_rely _ _ h := h
  keeps_read _ _ hexec he := .frame hexec.1 (by simp [he]) (by simp [he])
  keeps_alike _ _ hexec he hal := .alike hexec.1 he hal
  wrote_update _ _ _ hexec := fun hsome => by
    rw [unschedulable_update hexec.1]
    exact hsome
  update_alike _ _ hal := ⟨.inl hal.initial, fun hg => .inl (by rwa [Guarded, hal.finalizers])⟩
  status_alike {w o b} _ _ hal := by
    have hphase : phase b = phase o := by rw [phase, hal.reason, phase]
    exact ⟨by omega, by omega, by omega⟩

end Plan

namespace Keeping

/-- The object of `m` is under way, and its node has this flag. -/
def Underway (key : NamespacedName) (m : NodeMaintenance) (f : Bool) (v : Option String) (w : World) :
    Prop :=
  (∃ o, w.nms.get key = some o ∧ Stands m v o) ∧ unschedulable w m.spec.nodeName = some f

/-- What is known of the version in hand, and of its node as it was read. -/
structure InHand (key : NamespacedName) (node : Node) (m : NodeMaintenance) (w : World) : Prop where
  name : node.name = m.spec.nodeName
  found : (unschedulable w m.spec.nodeName).isSome = true
  cordon : Guarded m → m.spec.cordon = true
  guarded : 3 ≤ phase m → m.deleting = false → Guarded m
  mark : initialState m ≠ none → Guarded m ∧ 3 ≤ phase m
  underway : Guarded m → 2 ≤ phase m → Underway key m node.unschedulable (initialState m) w

variable {r : Reconciler} {sorter : Sorter Scheduler.compareRanked} {key : NamespacedName}
  {m a : NodeMaintenance} {node : Node} {f : Bool} {v : Option String}

/-- Triples of a reconciler. -/
abbrev KeepTriple (r : Reconciler) (sorter : Sorter Scheduler.compareRanked) (key : NamespacedName)
    {α : Type} (A : World → Prop) (x : Action α) (Q : α → World → Prop) : Prop :=
  (keeping r sorter).TripleE (.reconciler key) A x Q

lemma lasting_underway (h₂ : 2 ≤ phase m) : (keepingHost r sorter key).Lasting (Underway key m f v) := by
  rintro w w' - - hk ⟨⟨o, ho, hst⟩, hf⟩
  have h₂' : 2 ≤ phase o := by rwa [hst.phase]
  obtain ⟨o', ho', hst'⟩ := hk.stands ho hst.guarded h₂'
  refine ⟨⟨o', ho', hst.trans hst'⟩, ?_⟩
  have hflag := hk.flag ho h₂' (f := f)
  rw [hst.nodeName] at hflag
  exact hflag hf

lemma lasting_inHand : (keepingHost r sorter key).Lasting (InHand key node m) := by
  intro w w' hi hi' hk h
  refine ⟨h.name, hk.node h.found, h.cordon, h.guarded, h.mark, fun hg h₂ => ?_⟩
  have hlast : (keepingHost r sorter key).Lasting
      (Underway key m node.unschedulable (initialState m)) := lasting_underway h₂
  exact hlast w w' hi hi' hk (h.underway hg h₂)

lemma InHand.alike {w : World} (hal : Alike m a) (h : InHand key node m w) : InHand key node a w := by
  have hg : Guarded a ↔ Guarded m := by rw [Guarded, hal.finalizers, Guarded]
  have hphase : phase a = phase m := by rw [phase, hal.reason, phase]
  refine ⟨h.name.trans hal.nodeName.symm, ?_, fun hga => hal.cordon (h.cordon (hg.mp hga)),
    fun h₃ hdel => ?_, fun hne => ?_, fun hga h₂ => ?_⟩
  · rw [hal.nodeName]
    exact h.found
  · rw [hphase] at h₃
    rw [hal.deleting] at hdel
    exact hg.mpr (h.guarded h₃ hdel)
  · rw [hal.initial] at hne
    rw [hg, hphase]
    exact h.mark hne
  · rw [hphase] at h₂
    obtain ⟨⟨o, ho, hst⟩, hf⟩ := h.underway (hg.mp hga) h₂
    refine ⟨⟨o, ho, hst.guarded, hst.nodeName.trans hal.nodeName.symm, hst.phase.trans hphase.symm,
      fun hdel => hst.deleting (hal.deleting ▸ hdel), hst.initial.trans hal.initial.symm⟩, ?_⟩
    rw [hal.nodeName]
    exact hf

/-! ### Calls -/

lemma quiet_call {e : Op} (hn : e.part ≠ .nodes) (hm : e.part ≠ .nodeMaintenances) :
    (keepingHost r sorter key).Quiet e := by
  refine fun w _ => ⟨?_, fun ans w' _ hexec => .frame hexec.1 hn hm⟩
  cases e with
  | patchUnschedulable _ _ => exact absurd rfl hn
  | update _ => exact absurd rfl hm
  | statusUpdate _ => exact absurd rfl hm
  | _ => trivial

lemma quiet_parts {α : Type} {parts : List Part} {x : Action α} {F : World → Prop}
    (hF : (keepingHost r sorter key).Lasting F) (hx : Touches parts x) (hn : .nodes ∉ parts)
    (hm : .nodeMaintenances ∉ parts) : KeepTriple r sorter key F x fun _ => F := by
  refine quiet hF hx fun p hp e he => quiet_call ?_ ?_
  · rintro h
    exact hn (h ▸ he ▸ hp)
  · rintro h
    exact hm (h ▸ he ▸ hp)

/-- The finalizer comes off. -/
lemma release_triple (hnone : initialState m = none) (hm : phase m < 3 ∨ m.deleting = true) :
    KeepTriple r sorter key ((keepingHost r sorter key).Holds m)
      (removeFinalizer m maintenanceFinalizerName) fun _ _ => True := by
  refine TripleE.pre (removeFinalizer_triple (F := fun _ => True) (Lasting.const _) ?_)
    fun w _ h => ⟨h, trivial⟩
  exact fun w refs _ _ _ => ⟨.inl rfl, fun _ => .inr ⟨hnone, hm⟩⟩

/-- The flag is patched for the object that is under way. -/
lemma patch_triple {desired : Bool} (h₃ : 3 ≤ phase m) (hname : node.name = m.spec.nodeName)
    (hne : node.unschedulable ≠ desired)
    (hdes : desired = false → m.deleting = true ∧ v = some falseString) :
    KeepTriple r sorter key
      (fun w => (keepingHost r sorter key).Holds a w ∧ Underway key m f v w)
      (runCordonOrUncordon node desired)
      fun _ w => (keepingHost r sorter key).Holds a w ∧ Underway key m desired v w := by
  have h₂ : 2 ≤ phase m := Nat.le_of_succ_le h₃
  have hA : ∀ f, (keepingHost r sorter key).Lasting fun w =>
      (keepingHost r sorter key).Holds a w ∧ Underway key m f v w :=
    fun f => lasting_holds.and (lasting_underway h₂)
  unfold runCordonOrUncordon
  rw [if_neg hne]
  refine Triple.lift (hA f).stable (fun _ => Stable.ok fun _ => (hA desired).stable) ?_ ?_
  · rintro w - ⟨-, ⟨o, ho, hst⟩, -⟩
    refine ⟨o, ho, hst.nodeName.trans hname.symm, by rwa [hst.phase], fun hd => ?_⟩
    exact ⟨hst.deleting (hdes hd).1, hst.initial.trans (hdes hd).2⟩
  · rintro w _ w' - - ⟨hheld, ⟨o, ho, hst⟩, -⟩ ⟨hperf, -⟩ b rfl
    obtain ⟨hn, hh, hset, -⟩ := unschedulable_patch (WriteAnswer.ok hperf)
    obtain ⟨hkey, u, hu, e⟩ := hheld
    refine ⟨⟨hkey, u, ?_, e⟩, ⟨o, by rwa [hn], hst⟩, hname ▸ hset⟩
    exact hh ▸ hu

/-- An update that leaves the finalizer keeps the object under way. -/
lemma Underway.update {b : NodeMaintenance} {w w' : World} {ans : Resp (.update b)}
    (h : Underway key m f v w) (hg : Guarded b) (hperf : Perform .current (.update b) w ans w') :
    ∃ v', Underway key m f v' w' := by
  obtain ⟨⟨o, ho, hst⟩, hf⟩ := h
  have hflag := (unschedulable_update hperf m.spec.nodeName).trans hf
  rcases hperf.kept ho with hk | ⟨o', hrw, hk⟩
  · exact ⟨v, ⟨o, hk, hst⟩, hflag⟩
  · cases hrw with
    | update hm hname =>
      have hg' : Guarded (w.stamp (w.merge o b b.spec.normalize)) := hg
      rw [hg'.not_gone] at hk
      exact ⟨_, ⟨_, hk, hg', hname.trans hst.nodeName, hst.phase, hst.deleting, rfl⟩, hflag⟩

/-- An update of the object that is under way, which may change the annotation. -/
lemma update_triple {b : NodeMaintenance} (h₂ : 2 ≤ phase m) (hb : Matches b a) (hg : Guarded b)
    (hok : ∀ w refs, unschedulable w m.spec.nodeName = some f →
      AnnotationOk w { a with ownerReferences := refs } b) :
    KeepTriple r sorter key (fun w => (keepingHost r sorter key).Holds a w ∧ Underway key m f v w)
      (Client.update b) fun a' w => (initialState a' = initialState b ∧ a'.status = a.status ∧
        a'.key = key) ∧ (keepingHost r sorter key).Holds a' w ∧ Underway key m f (initialState b) w := by
  refine Triple.assume (fun w _ h => h.1.1) fun hkey => ?_
  have hlast : ∀ v, (keepingHost r sorter key).Lasting (Underway key m f v) :=
    fun _ => lasting_underway h₂
  refine TripleE.pre (Outcome.ok (write_triple (m := a) (b := b)
    (F := fun w => ∃ v, Underway key m f v w) ?_ (fun a' => (Stable.const _).and
    (lasting_holds.and (hlast _)).stable) hb ?_ ?_ ?_)) fun w _ h => ⟨h.1, v, h.2⟩
  · rintro w w' hi hi' hr ⟨v, h⟩
    exact ⟨v, (hlast v).stable w w' hi hi' hr h⟩
  · rintro w ans w' - - - - ⟨v, h⟩ hexec
    exact h.update hg hexec.1
  · rintro w refs - ⟨v, h⟩ -
    exact hok w refs h.2
  · rintro w w' refs - - ⟨v, ⟨o, ho, hst⟩, hf⟩ - hw
    refine ⟨⟨rfl, rfl, hkey⟩, holds_of_write hkey hw rfl, ⟨o, ho, ?_⟩, hf⟩
    -- the stored object is the one just written
    have hw' : w' = w.write (w.merge { a with ownerReferences := refs } b b.spec.normalize) := hw
    rw [hw'] at ho
    rcases World.get_write ho with ⟨ne, -⟩ | ⟨-, -, rfl⟩
    · exact absurd hkey.symm ne
    · exact ⟨hst.guarded, hst.nodeName, hst.phase, hst.deleting, rfl⟩

/-! ### Phase Cordon -/

/-- The annotation is recorded from the flag. -/
lemma recordInitialState_triple (h₃ : 3 ≤ phase m) (hg : Guarded m) :
    KeepTriple r sorter key (fun w => (keepingHost r sorter key).Holds m w ∧
        Underway key m node.unschedulable (initialState m) w) (recordInitialState m node)
      fun a w => (initialState a).isSome = true ∧ (keepingHost r sorter key).Holds a w ∧
        Underway key m node.unschedulable (initialState a) w := by
  have h₂ : 2 ≤ phase m := Nat.le_of_succ_le h₃
  unfold recordInitialState
  split
  · refine TripleE.conseq (update_triple (m := m) (a := m) h₂ ⟨rfl, rfl, rfl⟩ hg fun w refs hf => ?_)
      (fun _ _ h => h) ?_
    · exact ⟨.inr (.inr ⟨h₃, hg, _, hf, GoMap.get?_set_self _ _ _⟩), fun _ => .inl hg⟩
    · rintro a w - ⟨⟨hinit, -, -⟩, hheld, hu⟩
      rw [hinit]
      refine ⟨?_, hheld, hu⟩
      rw [initialState, GoMap.get?_set_self]
      rfl
  · rename_i hsome
    refine .pure (lasting_holds.and (lasting_underway h₂)).stable fun w _ h => ⟨?_, h⟩
    simpa [Option.isSome_iff_ne_none] using hsome

/-- `HandleCordon` ends with the flag set. -/
lemma handleCordon_triple (h₃ : 3 ≤ phase m) (hg : Guarded m) (hname : node.name = m.spec.nodeName) :
    KeepTriple r sorter key (fun w => (keepingHost r sorter key).Holds m w ∧
        Underway key m node.unschedulable (initialState m) w) (handleCordon m node)
      fun a w => (keepingHost r sorter key).Holds a w ∧ Underway key m true (initialState a) w := by
  have h₂ : 2 ≤ phase m := Nat.le_of_succ_le h₃
  refine (recordInitialState_triple h₃ hg).bind fun a => TripleE.of_pure fun hsome => ?_
  have hA : (keepingHost r sorter key).Lasting fun w => (keepingHost r sorter key).Holds a w ∧
      Underway key m node.unschedulable (initialState a) w :=
    lasting_holds.and (lasting_underway h₂)
  split
  · rename_i hc
    refine TripleE.bind (patch_triple h₃ hname (by simp [hc.2]) nofun) fun _ => ?_
    exact .pure (lasting_holds.and (lasting_underway h₂)).stable fun w _ h => h
  · rename_i hc
    refine .pure hA.stable fun w hinv h => ⟨h.1, h.2.1, ?_⟩
    cases hf : node.unschedulable with
    | true => exact hf ▸ h.2.2
    | false =>
      -- the annotation is not `false`, so the flag was set when it was recorded
      obtain ⟨⟨o, ho, hst⟩, hflag⟩ := h.2
      obtain ⟨v, hv⟩ := Option.isSome_iff_exists.mp hsome
      have hne : v ≠ falseString := fun e => hc ⟨by rw [hv, e], hf⟩
      have hset := ((hinv.stored ho).value (hst.initial.trans hv)).resolve_left hne
      rwa [hst.nodeName] at hset

/-- The way to phase WaitForPodCompletion. -/
lemma toWait_triple (hm : getReadyConditionReason m = .cordon) (hdel : m.deleting = false) :
    KeepTriple r sorter key (fun w => (keepingHost r sorter key).Holds m w ∧ InHand key node m w)
      (do let a ← (if m.spec.cordon then handleCordon m node else pure m)
          let _ ← setReadyConditionReason a .waitForPodCompletion
          return Result.zero) fun _ _ => True := by
  have h₃ : phase m = 3 := phase_of_reason hm
  refine Triple.assume (fun w _ h => And.intro (h.2.guarded h₃.ge hdel) h.2.name) fun ⟨hg, hname⟩ => ?_
  refine Triple.assume (fun w _ h => h.2.cordon hg) fun hcordon => ?_
  rw [if_pos hcordon]
  refine TripleE.pre (TripleE.bind (handleCordon_triple h₃.ge hg hname) fun a => done_triple ?_)
    fun w _ h => ⟨h.1, h.2.underway hg (by omega)⟩
  refine Triple.assume (fun w _ h => h.1.1) fun hkey => ?_
  have hA : (keepingHost r sorter key).Lasting fun w => (keepingHost r sorter key).Holds a w ∧
      Underway key m true (initialState a) w := lasting_holds.and (lasting_underway (by omega))
  refine setReady_stable (H := keepingHost r sorter key) hA.stable hkey
    (silent hA ⟨.inl rfl, fun _ => trivial⟩) ?_
  rintro w o now - ⟨-, ⟨o', ho', hst⟩, hf⟩ ho -
  obtain rfl : o' = o := Option.some.inj (ho'.symm.trans ho)
  have hphase : phase o' = 3 := hst.phase.trans h₃
  have h₄ : phase (withReadyReason a .waitForPodCompletion "" now) = 4 := by
    rw [phase, getReadyConditionReason_withReadyReason]
    rfl
  refine ⟨by omega, by omega, fun _ _ _ => ?_⟩
  rw [hst.nodeName]
  exact hf

/-! ### Cleanup -/

lemma dropInitialState_triple (hdel : m.deleting = true)
    (hmark : initialState m ≠ none → Guarded m) :
    KeepTriple r sorter key ((keepingHost r sorter key).Holds m) (dropInitialState m)
      fun a w => (initialState a = none ∧ a.deleting = true) ∧
        (keepingHost r sorter key).Holds a w := by
  refine Triple.assume (fun w _ h => h.1) fun hkey => ?_
  unfold dropInitialState
  split
  · rename_i hsome
    have hg : Guarded m := hmark (Option.isSome_iff_ne_none.mp hsome)
    refine TripleE.pre (Outcome.ok (Host.update_triple (m := m) (F := fun _ => True) (Firm.const _)
      (fun a => (Stable.const _).and lasting_holds.stable) ⟨rfl, rfl, rfl⟩ ?_ ?_))
      fun w _ h => ⟨h, trivial⟩
    · exact fun w refs _ _ _ => ⟨.inr (.inl (GoMap.get?_delete_self _ _)), fun _ => .inl hg⟩
    · intro w w' refs _ _ _ _ hw
      exact ⟨⟨GoMap.get?_delete_self _ _, hdel⟩, holds_of_write hkey hw rfl⟩
  · rename_i hnone
    refine TripleE.pure lasting_holds.stable fun w _ h => ⟨⟨?_, hdel⟩, h⟩
    simpa using hnone

/-- `HandleUnCordon` may clear the flag, for the object is being deleted. -/
lemma handleUnCordon_triple (hdel : m.deleting = true) :
    KeepTriple r sorter key (fun w => (keepingHost r sorter key).Holds m w ∧ InHand key node m w)
      (handleUnCordon m node) fun a w => (initialState a = none ∧ a.deleting = true) ∧
        (keepingHost r sorter key).Holds a w := by
  refine Triple.assume (fun w _ h => And.intro h.2.mark h.2.name) fun ⟨hmark, hname⟩ => ?_
  have hdrop : KeepTriple r sorter key ((keepingHost r sorter key).Holds m) (dropInitialState m)
      fun a w => (initialState a = none ∧ a.deleting = true) ∧
        (keepingHost r sorter key).Holds a w :=
    dropInitialState_triple hdel fun hne => (hmark hne).1
  unfold handleUnCordon
  split
  · rename_i hc
    obtain ⟨hg, h₃⟩ := hmark (by rw [hc.1]; nofun)
    refine TripleE.pre (TripleE.bind (patch_triple (a := m) (f := node.unschedulable) h₃ hname
      (by simp [hc.2]) fun _ => ⟨hdel, hc.1⟩) fun _ => TripleE.pre hdrop fun w _ h => h.1)
      fun w _ h => ⟨h.1, ?_⟩
    exact h.2.underway hg (by omega)
  · exact TripleE.pre hdrop fun w _ h => h.1

lemma cleanup_triple (hdel : m.deleting = true) :
    KeepTriple r sorter key (fun w => (keepingHost r sorter key).Holds m w ∧ InHand key node m w)
      (r.cleanup m node) fun _ _ => True := by
  have huncordon : KeepTriple r sorter key
      (fun w => (keepingHost r sorter key).Holds m w ∧ InHand key node m w)
      (if m.spec.cordon then handleUnCordon m node else pure m)
      fun a w => (initialState a = none ∧ a.deleting = true) ∧
        (keepingHost r sorter key).Holds a w := by
    split
    · exact handleUnCordon_triple hdel
    · rename_i hc
      refine .pure (lasting_holds.and lasting_inHand).stable fun w _ h => ⟨⟨?_, hdel⟩, h.1⟩
      -- an object that does not ask for cordon has no finalizer yet, and no annotation
      by_contra hne
      exact hc (h.2.cordon (h.2.mark hne).1)
  refine TripleE.bind huncordon fun a => TripleE.of_pure fun ⟨hnone, hdel'⟩ => ?_
  refine TripleE.bind (quiet_parts lasting_holds unpause_touches (by decide) (by decide)) fun _ => ?_
  exact done_triple (release_triple hnone (.inr hdel'))

/-! ### Phase Scheduled -/

/-- `AddFinalizer` puts the object under way. -/
lemma addFinalizer_triple (hm : getReadyConditionReason m = .scheduled) (hnone : initialState m = none) :
    KeepTriple r sorter key (fun w => (keepingHost r sorter key).Holds m w ∧ InHand key node m w)
      (addFinalizer m maintenanceFinalizerName) fun a w => (Guarded a ∧ initialState a = none) ∧
        (keepingHost r sorter key).Holds a w ∧ ∃ f, Underway key m f none w := by
  have h₂ : phase m = 2 := phase_of_reason hm
  have hlast : (keepingHost r sorter key).Lasting fun w => ∃ f, Underway key m f none w := by
    rintro w w' hi hi' hk ⟨f, h⟩
    have hf : (keepingHost r sorter key).Lasting (Underway key m f none) := lasting_underway h₂.ge
    exact ⟨f, hf w w' hi hi' hk h⟩
  have hF : (keepingHost r sorter key).Firm fun w =>
      (unschedulable w m.spec.nodeName).isSome = true :=
    ⟨fun _ _ _ _ hk h => hk.node h, fun _ _ _ _ hw h => hw h⟩
  refine TripleE.conseq (Host.addFinalizer_triple (m := m) (L := InHand key node m) hF lasting_inHand
    hlast.stable ?_ ?_ ?_) (fun w _ h => ⟨h.1, h.2.found, h.2⟩)
    fun a w _ h => ⟨⟨h.1.1, h.1.2.initial.trans hnone⟩, h.2.1, h.2.2.2⟩
  · exact fun w refs _ _ => ⟨.inl rfl, fun hg => .inl (List.mem_append_left _ hg)⟩
  · exact fun hg w h => ⟨_, hnone ▸ h.underway hg h₂.ge⟩
  · intro w a hfound ho hga hal
    obtain ⟨f, hf⟩ := Option.isSome_iff_exists.mp hfound
    refine ⟨f, ⟨a, ho, hga, hal.nodeName, ?_, fun hdel => hal.deleting.trans hdel, ?_⟩, hf⟩
    · rw [phase, hal.reason]
      rfl
    · exact hal.initial.trans hnone

lemma pauseMCP_triple (h₂ : 2 ≤ phase m) (hg : Guarded a) (hnone : initialState a = none) :
    KeepTriple r sorter key (fun w => (keepingHost r sorter key).Holds a w ∧ Underway key m f none w)
      (pauseMCP node a) fun a' w => a'.key = key ∧ Underway key m f none w := by
  refine Host.pauseMCP_triple (lasting_underway h₂) (fun he => ?_) fun name => ?_
  · rcases he with he | he | he <;> exact quiet_call (by simp [he]) (by simp [he])
  · refine TripleE.conseq (update_triple (m := m) (a := a) h₂ ⟨rfl, rfl, rfl⟩ hg fun w refs _ => ?_)
      (fun _ _ h => h) fun a' w _ h => ⟨h.1.2.2, ?_⟩
    · exact ⟨.inl rfl, .inl⟩
    · exact hnone ▸ h.2.2

lemma handleScheduledState_triple (hm : getReadyConditionReason m = .scheduled) :
    KeepTriple r sorter key (fun w => (keepingHost r sorter key).Holds m w ∧ InHand key node m w)
      (r.handleScheduledState m node) fun _ _ => True := by
  have h₂ : phase m = 2 := phase_of_reason hm
  refine Triple.assume (fun w _ h => h.2.mark) fun hmark => ?_
  have hnone : initialState m = none := by
    by_contra hne
    have := (hmark hne).2
    omega
  -- the stored object is in phase Scheduled with the finalizer, whichever version is written
  have hstep : ∀ a f, KeepTriple r sorter key (fun w => a.key = key ∧ Underway key m f none w)
      (setReadyConditionReason a .cordon) fun _ _ => True := by
    refine fun a f => TripleE.of_pure fun ha => ?_
    have hA : (keepingHost r sorter key).Lasting (Underway key m f none) := lasting_underway h₂.ge
    refine setReady_stable (H := keepingHost r sorter key) hA.stable ha
      (silent hA ⟨.inl rfl, fun _ => trivial⟩) ?_
    rintro w o now - ⟨⟨o', ho', hst⟩, hf⟩ ho -
    obtain rfl : o' = o := Option.some.inj (ho'.symm.trans ho)
    have hphase : phase o' = 2 := hst.phase.trans h₂
    have h₃ : phase (withReadyReason a .cordon "" now) = 3 := by
      rw [phase, getReadyConditionReason_withReadyReason]
      rfl
    refine ⟨by omega, fun _ _ => ⟨hst.guarded, ?_⟩, by omega⟩
    rw [hst.nodeName, hf]
    rfl
  refine scheduledState_triple (R := (keepingHost r sorter key).Holds m) ?_
    (fun _ => done_triple (release_triple hnone (.inl (by omega)))) (addFinalizer_triple hm hnone)
    (C := fun a w => ∃ f, a.key = key ∧ Underway key m f none w) (fun a => TripleE.of_pure fun ha => ?_)
    (fun _ a => ?_) fun a => .of_exists (hstep a)
  · exact TripleE.pre (quiet_parts lasting_holds unpause_touches (by decide) (by decide)) fun w _ h => h.1
  · refine TripleE.pre (.of_exists fun f => TripleE.conseq (pauseMCP_triple (f := f) h₂.ge ha.1 ha.2)
      (fun _ _ h => h)
      fun a' w _ h => ⟨f, h⟩) ?_
    rintro w - ⟨hheld, f, hu⟩
    exact ⟨f, hheld, hu⟩
  · refine TripleE.pre (.of_exists (hstep a)) ?_
    rintro w - ⟨-, hheld, f, hu⟩
    exact ⟨f, hheld.1, hu⟩

/-- Nothing else is left to show. -/
lemma plan : Plan (keepingHost r sorter key) r node (InHand key node) where
  lasting _ := lasting_inHand
  alike hal h := h.alike hal
  drain he := quiet_call (by simp [he]) (by simp [he])
  podCompletion _ _ _ := quiet_call nofun nofun
  advance {w o b} _ _ adv hs hc hw := by
    have hcases : phase o ≤ phase b ∧ (phase b < 3 ∨ 4 ≤ phase o) := by
      unfold phase
      generalize getReadyConditionReason o = ro at adv
      generalize getReadyConditionReason b = rb at adv hs hc hw
      cases adv <;> simp_all [Reason.order]
    exact ⟨hcases.1, by omega, by omega⟩
  cleanup hdel _ _ := cleanup_triple hdel
  scheduled hm := handleScheduledState_triple hm
  cordon hm hdel := toWait_triple hm hdel

/-! ### The bodies -/

/-- What reading an object tells. -/
structure Seen (key : NamespacedName) (m : NodeMaintenance) (w : World) : Prop where
  cordon : Guarded m → m.spec.cordon = true
  guarded : 3 ≤ phase m → m.deleting = false → Guarded m
  mark : initialState m ≠ none → Guarded m ∧ 3 ≤ phase m
  found : 3 ≤ phase m → (unschedulable w m.spec.nodeName).isSome = true
  stands : Guarded m → 2 ≤ phase m → ∃ o, w.nms.get key = some o ∧ Stands m (initialState m) o

lemma lasting_seen : (keepingHost r sorter key).Lasting (Seen key m) := by
  intro w w' _ _ hk h
  refine ⟨h.cordon, h.guarded, h.mark, fun h₃ => hk.node (h.found h₃), fun hg h₂ => ?_⟩
  obtain ⟨o, ho, hst⟩ := h.stands hg h₂
  obtain ⟨o', ho', hst'⟩ := hk.stands ho hst.guarded (by rwa [hst.phase])
  exact ⟨o', ho', hst.trans hst'⟩

lemma getNodeMaintenance_triple :
    KeepTriple r sorter key (fun _ => True) (observe (Client.getNodeMaintenance key))
      fun res w => ∀ m, res = .ok m → (keepingHost r sorter key).Holds m w ∧ Seen key m w := by
  refine Host.getNodeMaintenance_triple (fun m => lasting_holds.and lasting_seen) ?_
  rintro w m w' hinv - ⟨⟨rfl, hread⟩, -⟩
  have ho : w'.nms.get key = some m := hread
  have hc := hinv.stored ho
  exact ⟨⟨Store.key_of_get ho, m, hinv.consistent.stored ho, rfl⟩, hc.cordon, hc.guarded, hc.mark, hc.node,
    fun hg _ => ⟨m, ho, .refl hg⟩⟩

/-- The node is read while the object stands; it is missing only before phase Cordon. -/
lemma getNode_triple :
    KeepTriple r sorter key (fun w => (keepingHost r sorter key).Holds m w ∧ Seen key m w)
      (observe (Client.getNode m.spec.nodeName)) fun res w =>
        (res = .error .notFound → (keepingHost r sorter key).Holds m w ∧
          phase m < 3 ∧ initialState m = none) ∧
        ∀ node, res = .ok node → (keepingHost r sorter key).Holds m w ∧ InHand key node m w := by
  refine Host.getNode_triple (lasting_holds.and lasting_seen) (lasting_holds.and (Lasting.const _))
    (fun node => lasting_holds.and lasting_inHand) ?_ ?_
  · rintro w w' - - ⟨hheld, hseen⟩ ⟨⟨rfl, hread⟩, -⟩
    have hnone : w'.nodes.get m.spec.nodeName = none := hread.2 rfl
    have hlt : phase m < 3 := by
      by_contra h₃
      have hsome := hseen.found (Nat.not_lt.mp h₃)
      simp [unschedulable, hnone] at hsome
    refine ⟨hheld, hlt, ?_⟩
    by_contra hne
    exact absurd (hseen.mark hne).2 (Nat.not_le.mpr hlt)
  · rintro w node w' - - ⟨hheld, hseen⟩ ⟨⟨rfl, hread⟩, -⟩
    have hn : w'.nodes.get m.spec.nodeName = some node := hread
    have hflag : unschedulable w' m.spec.nodeName = some node.unschedulable := by
      rw [unschedulable, hn]
      rfl
    refine ⟨hheld, Store.key_of_get hn, by rw [hflag]; rfl, hseen.cordon, hseen.guarded, hseen.mark, ?_⟩
    exact fun hg h₂ => ⟨hseen.stands hg h₂, hflag⟩

/-- The body of a reconciler. -/
theorem reconcile_triple :
    KeepTriple r sorter key (fun _ => True) (r.reconcile key) fun _ _ => True := by
  refine reconcileBody_triple getNodeMaintenance_triple (fun m => getNode_triple) (fun m => ?_)
    fun m node => plan.dispatch_triple
  refine Triple.assume (fun w _ h => h.2) fun ⟨hlt, hnone⟩ => ?_
  refine TripleE.pre ?_ fun w _ h => h.1
  exact nodeNotFound_triple lasting_holds (quiet_call nofun nofun) (release_triple hnone (.inl hlt))

/-- What a round of the scheduler still has to write. -/
def Chosen (l : List NodeMaintenance) (w : World) : Prop := ∀ b ∈ l, b ∈ w.history ∧ phase b < 2

lemma stable_chosen {l : List NodeMaintenance} : (keeping r sorter).Stable .scheduler (Chosen l) :=
  fun _ _ _ _ hr h b hb => ⟨hr b (h b hb).1, (h b hb).2⟩

lemma writeChosen_triple (b : NodeMaintenance) (l : List NodeMaintenance) (now : Nat) :
    (keeping r sorter).Triple .scheduler (Chosen (b :: l))
      (issue (.statusUpdate (withReadyReason b .scheduled "" now))) fun _ => Chosen l := by
  refine Triple.lift stable_chosen (fun _ => stable_chosen) ?_ ?_
  · intro w hinv h k o ho hm
    obtain ⟨hb, hlt⟩ := h b (.head _)
    obtain rfl : o = b := hinv.consistent.eq_of_version ho hb hm.2.2
    exact ⟨hlt, by simp⟩
  · intro w _ w' _ _ h hexec c hc
    exact ⟨hexec.1.history_subset c (h c (.tail _ hc)).1, (h c (.tail _ hc)).2⟩

/-- The body of the scheduler. -/
lemma round : Round (keeping r sorter) .scheduler sorter Chosen where
  stable _ := stable_chosen
  perm_read {_ e} he := by
    cases e with
    | statusUpdate b => cases he
    | _ => exact he
  exec_read {e w a w'} he hexec := by
    have hf := hexec.1.frame
    rw [he] at hf
    exact hf.eq
  decided {w o nodes nms l} hinv hexec hl b hb := by
    obtain ⟨hmem, hunder⟩ := phase_lt_of_decision hl hb
    have hread : ∀ x ∈ nms, x ∈ w.history := hexec.1.2.1
    exact ⟨hread b hmem, hunder b hmem rfl⟩
  shuffled hexec := hexec.1.2
  reorder hperm h b hb := h b (hperm.mem_iff.mp hb)
  tail h b hb := h b (.tail _ hb)
  write := writeChosen_triple

end Keeping

/-! ### Runs -/

/-- A cluster on which the operator has not worked yet. -/
structure Unworked (w : World) : Prop where
  consistent : Consistent w
  one : OnePerNode w
  early : ∀ {k o}, w.nms.get k = some o → phase o < 3
  unguarded : ∀ {k o}, w.nms.get k = some o → ¬ Guarded o
  unmarked : ∀ {k o}, w.nms.get k = some o → initialState o = none

/-- The phases in which a node is maintained. -/
def maintainedReasons : List Reason := [.waitForPodCompletion, .draining, .ready, .requestorFailed]

section Runs
variable {r : Reconciler} {sorter : Sorter Scheduler.compareRanked} {w₀ : World}
  {c : Config Worker Op Resp World (Except Err Result)}

/-- The invariant along a run. -/
lemma Unworked.ok (h : Unworked w₀) (run : (cordoning r sorter).Run ⟨w₀, fun _ => none⟩ c) :
    (keeping r sorter).Ok c := by
  refine sound ?_ (c := ⟨w₀, fun _ => none⟩) ⟨⟨h.consistent, h.one, fun {k o} ho => ?_⟩, nofun⟩ run
  · intro i p hp
    cases i with
    | scheduler =>
      obtain ⟨o, rfl⟩ := hp
      exact Triple.conseq Keeping.round.reconcile_triple (fun _ _ h => h) fun _ _ _ _ => trivial
    | reconciler key =>
      obtain rfl := hp
      exact Triple.conseq Keeping.reconcile_triple (fun _ _ h => h) fun _ _ _ _ => trivial
  · have hlt := h.early ho
    refine ⟨fun hg => absurd hg (h.unguarded ho), by omega, by omega,
      fun hne => absurd (h.unmarked ho) hne, fun hv => ?_, by omega⟩
    rw [h.unmarked ho] at hv
    cases hv

/-- While a NodeMaintenance that asks for cordon is in phase WaitForPodCompletion, Draining, Ready or
RequestorFailed and not being deleted, its node is unschedulable. -/
theorem cordoned_through_maintenance (h : Unworked w₀)
    (run : (cordoning r sorter).Run ⟨w₀, fun _ => none⟩ c) {k : NamespacedName} {o : NodeMaintenance}
    (ho : c.state.nms.get k = some o) (hcordon : o.spec.cordon = true) (hdel : o.deleting = false)
    (hreason : getReadyConditionReason o ∈ maintainedReasons) :
    unschedulable c.state o.spec.nodeName = some true := by
  have hinv : CordonedInv c.state := (h.ok run).1
  refine (hinv.stored ho).flag hcordon ?_ hdel
  have hall : ∀ reason ∈ maintainedReasons, 4 ≤ reason.order := by decide
  exact hall _ hreason

end Runs

/-! ### A computed run -/

/-- A call answered from the present cluster. -/
def cordoningAnswer (e : Op) (w : World) : Option (Resp e × World) :=
  if ∀ o ∈ w.nms.items, o ∈ w.history then
    (w.serve e).filter fun aw => OnePerNode aw.2
  else none

lemma exec_of_cordoningAnswer {i : Worker} {e : Op} {w w' : World} {a : Resp e}
    (h : cordoningAnswer e w = some (a, w')) : Perform i.reads e w a w' ∧ OnePerNode w' := by
  unfold cordoningAnswer at h
  split at h
  · rename_i hup
    obtain ⟨hserve, hone⟩ := Option.filter_eq_some_iff.mp h
    have hperf := World.perform_of_serve hserve
    refine ⟨?_, by simpa using hone⟩
    cases i with
    | scheduler => exact hperf.cached hup
    | reconciler key => exact hperf
  · cases h

/-- The programs of the workers, without a pool manager and with the default options. -/
def cordoningProgram : Worker → Proc (Except Err Result)
  | .reconciler key => (Reconciler.reconcile ⟨false, strokeFormats⟩ key).run
  | .scheduler => (Scheduler.reconcile (Sorter.insertion Scheduler.compareRanked) ⟨none, none⟩).run

lemma body_cordoningProgram (i : Worker) :
    (cordoning ⟨false, strokeFormats⟩ (Sorter.insertion Scheduler.compareRanked)).body i
      (cordoningProgram i) := by
  cases i with
  | reconciler key => rfl
  | scheduler => exact ⟨_, rfl⟩

/-- A player with nobody else around. -/
def cordoningPlayer :
    Player (cordoning ⟨false, strokeFormats⟩ (Sorter.insertion Scheduler.compareRanked)) Empty where
  program i := some (cordoningProgram i)
  body {i _} h := Option.some.inj h ▸ body_cordoningProgram i
  answer _ := cordoningAnswer
  exec := exec_of_cordoningAnswer
  event v := nomatch v
  env {v} := nomatch v

/-- Two objects of different requestors, just created on the first node. -/
def queuedMaintenances : World :=
  ({ World.empty with nodes := .ofList [firstNode] }.write (drainedMaintenance "nm")).write
    (drainedMaintenance "nm2")

lemma unworked_queued : Unworked queuedMaintenances := by
  have hall : ∀ o ∈ queuedMaintenances.nms.items,
      phase o < 3 ∧ ¬ Guarded o ∧ initialState o = none := by decide
  have hstored : ∀ {k o}, queuedMaintenances.nms.get k = some o →
      phase o < 3 ∧ ¬ Guarded o ∧ initialState o = none := fun ho => hall _ (Store.get_mem ho)
  refine ⟨?_, by decide, fun ho => (hstored ho).1, fun ho => (hstored ho).2.1, fun ho => (hstored ho).2.2⟩
  refine Consistent.write (Consistent.write (w := { World.empty with nodes := .ofList [firstNode] })
    (Consistent.empty.of_eq rfl rfl rfl) fun v hv => nomatch hv) fun v hv e => ?_
  obtain rfl := List.mem_singleton.mp hv
  exact absurd e (by decide)

/-- A whole reconcile of a worker. -/
def wholeRound (i : Worker) : List (Move Worker Empty) := [.start i, .finish i 60]

/-- The first object is maintained on its cordoned node while the second one is waiting. -/
theorem cordoned_through_maintenance_of_queue :
    ∃ c o o', (cordoning ⟨false, strokeFormats⟩ (Sorter.insertion Scheduler.compareRanked)).Run
        ⟨queuedMaintenances, fun _ => none⟩ c ∧
      c.state.nms.get ⟨"default", "nm"⟩ = some o ∧ c.state.nms.get ⟨"default", "nm2"⟩ = some o' ∧
      getReadyConditionReason o = .waitForPodCompletion ∧ getReadyConditionReason o' = .pending ∧
      unschedulable c.state o.spec.nodeName = some true := by
  obtain ⟨c, run, hc⟩ := Player.exists_run_of_play cordoningPlayer
    (wholeRound (.reconciler ⟨"default", "nm"⟩) ++ wholeRound (.reconciler ⟨"default", "nm2"⟩) ++
      wholeRound .scheduler ++ wholeRound (.reconciler ⟨"default", "nm"⟩) ++
      wholeRound (.reconciler ⟨"default", "nm"⟩) ++ wholeRound .scheduler)
    ⟨queuedMaintenances, fun _ => none⟩
    (fun c => (c.state.nms.get ⟨"default", "nm"⟩).any (fun o => o.spec.cordon && !o.deleting &&
        decide (getReadyConditionReason o = .waitForPodCompletion)) &&
      (c.state.nms.get ⟨"default", "nm2"⟩).any fun o => getReadyConditionReason o = .pending)
    (by decide +kernel)
  obtain ⟨hfirst, hsecond⟩ := Bool.and_eq_true_iff.mp hc
  obtain ⟨o, ho, hprops⟩ := (Option.any_eq_true _ _).mp hfirst
  obtain ⟨o', ho', hpending⟩ := (Option.any_eq_true _ _).mp hsecond
  simp only [Bool.and_eq_true, Bool.not_eq_true', decide_eq_true_eq] at hprops hpending
  obtain ⟨⟨hcordon, hdel⟩, hreason⟩ := hprops
  refine ⟨c, o, o', run, ho, ho', hreason, hpending, ?_⟩
  refine cordoned_through_maintenance unworked_queued run ho hcordon hdel ?_
  rw [hreason]
  decide

end MaintenanceOperator
