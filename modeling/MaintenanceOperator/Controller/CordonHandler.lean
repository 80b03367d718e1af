import MaintenanceOperator.Controller.Changes
import MaintenanceOperator.Controller.Host

/-!
# The cordon handler, in any system

`HandleCordon` records the unschedulable flag of the node in an annotation before it cordons the node,
and `HandleUnCordon` drops the annotation after it has uncordoned it. So at any time the flag is what it
was at first, or the annotation says that it was `false` (`Reversible`). The triples of the handler need
little of the system that it runs in: that nobody else touches the flag and the annotation, and that the
plan allows these two writes (`CordonRules`).
-/

namespace MaintenanceOperator
open Lib Discipline Host

lemma formatBool_injective {x y : Bool} (h : formatBool x = formatBool y) : x = y := by
  cases x <;> cases y <;> simp_all [formatBool]

/-- What an object says about a node whose flag was `init` at first. -/
structure Reversible (n : String) (init : Bool) (w : World) (o : NodeMaintenance) : Prop where
  value : ∀ {v}, initialState o = some v → v = formatBool init
  flag : unschedulable w n = some init ∨ initialState o = some falseString

/-- The annotation of `b` is that of `o`, or records the flag, or is gone with the flag restored. -/
def MarkStep (n : String) (init : Bool) (w : World) (o b : NodeMaintenance) : Prop :=
  initialState b = initialState o ∨
    initialState o = none ∧ initialState b = some (formatBool init) ∨
    initialState b = none ∧ unschedulable w n = some init

section Reversible
variable {n : String} {init : Bool} {w w' : World} {o b : NodeMaintenance}

/-- The annotation `false` was recorded from a schedulable node. -/
lemma Reversible.init_eq (h : Reversible n init w o) (hm : initialState o = some falseString) :
    init = false :=
  formatBool_injective (h.value hm).symm

/-- Objects with the same annotation say the same, while the flag is the same. -/
lemma Reversible.congr (h : Reversible n init w o) (hmark : initialState b = initialState o)
    (hflag : unschedulable w' n = unschedulable w n) : Reversible n init w' b :=
  ⟨fun hv => h.value (hmark ▸ hv), by rw [hflag, hmark]; exact h.flag⟩

/-- So does an object with the annotation of a permitted update. -/
lemma Reversible.step (h : Reversible n init w o) (hstep : MarkStep n init w o b)
    (hflag : unschedulable w' n = unschedulable w n) : Reversible n init w' b := by
  rcases hstep with hsame | ⟨hnone, hrec⟩ | ⟨hdrop, hinit⟩
  · exact h.congr hsame hflag
  · refine ⟨fun hv => Option.some.inj (hv.symm.trans hrec), .inl ?_⟩
    rw [hflag]
    exact h.flag.resolve_right fun hf => by rw [hnone] at hf; cases hf
  · refine ⟨fun hv => ?_, .inl (hflag.trans hinit)⟩
    rw [hdrop] at hv
    cases hv

end Reversible

/-- What the handler relies on: nobody else touches the flag or the annotation. -/
structure CordonRely (key : NamespacedName) (n : String) (w w' : World) : Prop where
  history : ∀ v ∈ w.history, v ∈ w'.history
  flag : unschedulable w' n = unschedulable w n
  mark : ∀ {o'}, w'.nms.get key = some o' →
    ∃ o, w.nms.get key = some o ∧ initialState o' = initialState o

section Calls
variable {key : NamespacedName} {n : String} {init : Bool} {w w' : World} {o : NodeMaintenance}
  {mode : ReadMode} {e : Op} {a : Resp e}

/-- So it is while the others move. -/
lemma CordonRely.change (hc : Change w w') (hflag : unschedulable w' n = unschedulable w n)
    (hgone : w.nms.get key = none → w'.nms.get key = none) : CordonRely key n w w' := by
  refine ⟨hc.history_subset, hflag, fun {o'} ho' => ?_⟩
  rcases hc.stored ho' with ⟨o, ho, hfol⟩ | hfresh
  · exact ⟨o, ho, hfol.initial⟩
  · rw [hgone hfresh.free] at ho'
    cases ho'

/-- So it is while a call changes nothing. -/
lemma CordonRely.read (h : Perform mode e w a w') (he : e.part = .nothing) : CordonRely key n w w' := by
  have hf := h.frame
  rw [he] at hf
  obtain rfl := hf.eq
  exact ⟨fun _ hv => hv, rfl, fun ho => ⟨_, ho, rfl⟩⟩

/-- So it is while a write leaves the object like it was. -/
lemma CordonRely.alike {b : NodeMaintenance} (h : Perform mode e w a w')
    (he : e = .update b ∨ e = .statusUpdate b)
    (hal : ∀ o, w.nms.get b.key = some o → Matches o b → Alike o b) : CordonRely key n w w' := by
  refine ⟨h.history_subset, unschedulable_eq h ?_ n, fun ho' => ?_⟩
  · rcases he with rfl | rfl <;> simp [Op.part]
  · obtain ⟨o, ho, hal'⟩ := Alike.stored h he hal ho'
    exact ⟨o, ho, hal'.initial⟩

/-- A node outlives every call. -/
lemma Perform.isSome_unschedulable (h : Perform mode e w a w') (hn : (unschedulable w n).isSome = true) :
    (unschedulable w' n).isSome = true := by
  by_cases he : e.part = .nodes
  · cases e with
    | patchUnschedulable name desired =>
      rcases WriteAnswer.effect h with rfl | ⟨_, heff⟩
      · exact hn
      · obtain ⟨-, -, hset, hother⟩ := unschedulable_patch heff
        by_cases hname : n = name
        · rw [hname, hset]
          rfl
        · rwa [hother n hname]
    | _ => cases he
  · rwa [unschedulable_eq h he]

/-- A write keeps the node name. -/
lemma Rewrite.nodeName {b : NodeMaintenance} (h : Rewrite w o e b) :
    b.spec.nodeName = o.spec.nodeName := by
  cases h with
  | update _ hname => exact hname
  | statusUpdate _ => rfl

/-- A call whose update and whose patch are in order leaves an object that says the right thing. -/
lemma Reversible.call (h : ∀ {o}, w.nms.get key = some o → Reversible n init w o)
    (hperf : Perform mode e w a w')
    (hupdate : ∀ b, e = .update b → ∀ o, w.nms.get key = some o → Matches o b → MarkStep n init w o b)
    (hpatch : ∀ desired, e = .patchUnschedulable n desired → ∀ o, w.nms.get key = some o →
      desired = init ∨ initialState o = some falseString)
    (ho : w'.nms.get key = some o) : Reversible n init w' o := by
  by_cases he : e.part = .nodes
  · cases e with
    | patchUnschedulable name desired =>
      rcases WriteAnswer.effect hperf with rfl | ⟨_, heff⟩
      · exact h ho
      · obtain ⟨hnms, -, hset, hother⟩ := unschedulable_patch heff
        rw [hnms] at ho
        by_cases hname : n = name
        · subst hname
          exact ⟨(h ho).value, (hpatch desired rfl o ho).imp_left fun e => by rw [hset, e]⟩
        · exact (h ho).congr rfl (hother n hname)
    | _ => cases he
  · have hflag := unschedulable_eq hperf he n
    rcases hperf.stored ho with hk | ⟨o₁, ho₁, hrw⟩
    · exact (h hk).congr rfl hflag
    · cases hrw with
      | @update b hm hname => exact (h ho₁).step (hupdate b rfl o₁ ho₁ hm) hflag
      | statusUpdate hm => exact (h ho₁).congr rfl hflag

end Calls

variable {ι S α : Type} {Y : System ι Op Resp S α} {D : Discipline Y} {i : ι} {key : NamespacedName}

/-- Nobody else touches the flag and the annotation, and the plan allows the writes of the handler: it
may record the annotation on an object whose reason passes the test, and drop it from any. -/
structure CordonRules (H : Host D i key) (n : String) (init : Bool) (records : Reason → Prop) : Prop where
  reversible : ∀ {s o}, D.inv s → (H.world s).nms.get key = some o → Reversible n init (H.world s) o
  keeps_flag : ∀ {s s'}, H.Keeps s s' → unschedulable (H.world s') n = unschedulable (H.world s) n
  keeps_mark : ∀ {s s' o'}, H.Keeps s s' → (H.world s').nms.get key = some o' →
    ∃ o, (H.world s).nms.get key = some o ∧ initialState o' = initialState o
  wrote_flag : ∀ {s s'}, H.Wrote s s' → unschedulable (H.world s') n = unschedulable (H.world s) n
  record : ∀ {s o b}, D.inv s → (H.world s).nms.get key = some o → b.finalizers = o.finalizers →
    records (getReadyConditionReason o) → initialState o = none →
    initialState b = some (formatBool init) → H.MayUpdate s o b
  drop : ∀ {s o b}, D.inv s → (H.world s).nms.get key = some o → b.finalizers = o.finalizers →
    initialState b = none → unschedulable (H.world s) n = some init → H.MayUpdate s o b
  patch : ∀ {s desired}, D.inv s →
    (∀ o, (H.world s).nms.get key = some o → desired = init ∨ initialState o = some falseString) →
    D.perm i s (.patchUnschedulable n desired)

namespace CordonRules
variable {H : Host D i key} {n : String} {init : Bool} {records : Reason → Prop}
  {m : NodeMaintenance} {node : Node}

/-- The stored object has this annotation. -/
def Mark (H : Host D i key) (v : Option String) (s : S) : Prop :=
  ∀ o, (H.world s).nms.get key = some o → initialState o = v

lemma firm_flag (R : CordonRules H n init records) {f : Bool} :
    H.Firm fun s => unschedulable (H.world s) n = some f :=
  ⟨fun _ _ _ _ hk h => (R.keeps_flag hk).trans h, fun _ _ _ _ hw h => (R.wrote_flag hw).trans h⟩

lemma lasting_mark (R : CordonRules H n init records) {v : Option String} : H.Lasting (Mark H v) := by
  intro s s' _ _ hk h o' ho'
  obtain ⟨o, ho, hmark⟩ := R.keeps_mark hk ho'
  exact hmark.trans (h o ho)

/-- After a write of the object, what is stored has the annotation that was written. -/
lemma mark_of_write {s s' : S} {o : NodeMaintenance} (hw : H.world s' = (H.world s).write o)
    (hkey : o.key = key) : Mark H (initialState o) s' := by
  intro o' ho'
  rw [hw] at ho'
  rcases World.get_write ho' with ⟨ne, -⟩ | ⟨-, -, rfl⟩
  · exact absurd hkey.symm ne
  · rfl

/-- The patch of the node; the version in hand and the annotation outlive it. -/
lemma patch_triple (R : CordonRules H n init records) {v : Option String} {desired : Bool}
    (hname : node.name = n) (hne : node.unschedulable ≠ desired)
    (hp : ∀ s, D.inv s → ∀ o, (H.world s).nms.get key = some o → initialState o = v →
      desired = init ∨ initialState o = some falseString) :
    D.TripleE i (fun s => H.Holds m s ∧ Mark H v s) (runCordonOrUncordon node desired)
      fun _ s => H.Holds m s ∧ Mark H v s ∧ unschedulable (H.world s) n = some desired := by
  unfold runCordonOrUncordon
  rw [if_neg hne, hname]
  have hQ : H.Lasting fun s => H.Holds m s ∧ Mark H v s ∧ unschedulable (H.world s) n = some desired :=
    lasting_holds.and (R.lasting_mark.and R.firm_flag.1)
  refine Triple.lift (lasting_holds.and R.lasting_mark).stable (fun _ => Stable.ok fun _ => hQ.stable)
    ?_ ?_
  · exact fun s hinv h => R.patch hinv fun o ho => hp s hinv o ho (h.2 o ho)
  · rintro s _ s' hinv - ⟨hheld, hmark⟩ hexec b rfl
    obtain ⟨hnms, -, hset, -⟩ := unschedulable_patch (WriteAnswer.ok (H.perform hinv hexec))
    exact ⟨hheld.call hinv hexec, fun o ho => hmark o (hnms ▸ ho), hset⟩

/-- What the annotation step of `HandleCordon` leaves: the annotation as it was, or the flag as it was
read. -/
def Recorded (m a : NodeMaintenance) (node : Node) : Prop :=
  getReadyConditionReason a = getReadyConditionReason m ∧
    (initialState m ≠ none ∧ initialState a = initialState m ∨
      initialState a = some (formatBool node.unschedulable))

/-- The annotation is recorded from the flag as it was at first. -/
lemma recordInitialState_triple (R : CordonRules H n init records)
    (hm : records (getReadyConditionReason m)) :
    D.TripleE i (fun s => H.Holds m s ∧ unschedulable (H.world s) n = some node.unschedulable ∧
        Mark H (initialState m) s) (recordInitialState m node) fun a s => Recorded m a node ∧
      H.Holds a s ∧ unschedulable (H.world s) n = some node.unschedulable ∧
        Mark H (initialState a) s := by
  refine Triple.assume (fun s _ h => h.1.1) fun hkey => ?_
  unfold recordInitialState
  split
  · rename_i hnone
    have hnone : initialState m = none := by simpa using hnone
    refine TripleE.pre (Outcome.ok (update_triple (H := H) (m := m)
      (F := fun s => unschedulable (H.world s) n = some node.unschedulable) R.firm_flag
      (fun a => (Stable.const _).and (lasting_holds.and (R.firm_flag.1.and R.lasting_mark)).stable)
      ⟨rfl, rfl, rfl⟩ ?_ ?_)) fun s _ h => ⟨h.1, h.2.1⟩
    · intro s refs hinv hflag ho
      -- without a mark the flag has not been touched, so what is recorded is the initial state
      have hinit : unschedulable (H.world s) n = some init :=
        (R.reversible hinv ho).flag.resolve_right fun e => Option.some_ne_none _ (e.symm.trans hnone)
      obtain rfl : node.unschedulable = init := Option.some.inj (hflag.symm.trans hinit)
      exact R.record hinv ho rfl hm hnone (GoMap.get?_set_self _ _ _)
    · intro s s' refs _ _ hflag _ hw
      exact ⟨⟨rfl, .inr (GoMap.get?_set_self _ _ _)⟩, holds_of_write hkey hw rfl, hflag,
        mark_of_write hw hkey⟩
  · rename_i hsome
    refine TripleE.pure (lasting_holds.and (R.firm_flag.1.and R.lasting_mark)).stable fun s _ h => ?_
    exact ⟨⟨rfl, .inl ⟨by simpa using hsome, rfl⟩⟩, h⟩

/-- Unless the annotation in hand says that the node was cordoned at first and the node was read
schedulable, the node is cordoned in the end. -/
lemma handleCordon_triple (R : CordonRules H n init records) (hname : node.name = n)
    (hm : records (getReadyConditionReason m)) :
    D.TripleE i (fun s => H.Holds m s ∧ unschedulable (H.world s) n = some node.unschedulable ∧
        Mark H (initialState m) s) (handleCordon m node) fun a s =>
      getReadyConditionReason a = getReadyConditionReason m ∧ H.Holds a s ∧
        (node.unschedulable = true ∨ initialState m = none ∨ initialState m = some falseString →
          unschedulable (H.world s) n = some true) := by
  refine (R.recordInitialState_triple hm).bind fun a => TripleE.of_pure fun hrec => ?_
  split
  · rename_i hc
    refine TripleE.bind (TripleE.pre (R.patch_triple (m := a) hname (by simp [hc.2])
      fun s _ o _ hmark => .inr (hmark.trans hc.1)) fun s _ h => ⟨h.1, h.2.2⟩) fun _ => ?_
    refine .pure (lasting_holds.and (R.lasting_mark.and R.firm_flag.1)).stable fun s _ h => ?_
    exact ⟨hrec.1, h.1, fun _ => h.2.2⟩
  · rename_i hc
    refine .pure (lasting_holds.and (R.firm_flag.1.and R.lasting_mark)).stable fun s _ h => ?_
    refine ⟨hrec.1, h.1, fun hread => h.2.1.trans ?_⟩
    cases hu : node.unschedulable with
    | true => rfl
    | false =>
      -- the annotation would be `false`, and the node would have been cordoned
      refine absurd ⟨?_, hu⟩ hc
      rcases hrec.2 with ⟨hsome, hsame⟩ | hnew
      · rcases hread with ht | hnone | hfalse
        · rw [hu] at ht
          cases ht
        · exact absurd hnone hsome
        · exact hsame.trans hfalse
      · rw [hnew, hu]
        rfl

/-- The annotation is dropped once the flag is back. -/
lemma dropInitialState_triple (R : CordonRules H n init records) {f : Bool}
    (hf : initialState m = some falseString → f = false) :
    D.TripleE i (fun s => H.Holds m s ∧ unschedulable (H.world s) n = some f ∧
        Mark H (initialState m) s) (dropInitialState m) fun a s =>
      initialState a = none ∧ H.Holds a s ∧ unschedulable (H.world s) n = some f ∧ Mark H none s := by
  refine Triple.assume (fun s _ h => h.1.1) fun hkey => ?_
  unfold dropInitialState
  split
  · refine TripleE.pre (Outcome.ok (update_triple (H := H) (m := m)
      (F := fun s => unschedulable (H.world s) n = some f) R.firm_flag
      (fun a => (Stable.const _).and (lasting_holds.and (R.firm_flag.1.and R.lasting_mark)).stable)
      ⟨rfl, rfl, rfl⟩ ?_ ?_)) fun s _ h => ⟨h.1, h.2.1⟩
    · intro s refs hinv hflag ho
      have hrev := R.reversible hinv ho
      refine R.drop hinv ho rfl (GoMap.get?_delete_self _ _) ?_
      rcases hrev.flag with e | e
      · exact e
      · rw [hflag, hf e, hrev.init_eq e]
    · intro s s' refs _ _ hflag _ hw
      refine ⟨GoMap.get?_delete_self _ _, holds_of_write hkey hw rfl, hflag, fun o ho => ?_⟩
      exact (mark_of_write hw hkey o ho).trans (GoMap.get?_delete_self _ _)
  · rename_i hnone
    have hnone : initialState m = none := by simpa using hnone
    rw [hnone]
    refine TripleE.pure (lasting_holds.and (R.firm_flag.1.and R.lasting_mark)).stable fun s _ h => ?_
    exact ⟨hnone, h⟩

/-- In the end the annotation is gone, and the flag is what the annotation or else the node said. -/
lemma handleUnCordon_triple (R : CordonRules H n init records) (hname : node.name = n) :
    D.TripleE i (fun s => H.Holds m s ∧ unschedulable (H.world s) n = some node.unschedulable ∧
        Mark H (initialState m) s) (handleUnCordon m node) fun a s =>
      initialState a = none ∧ H.Holds a s ∧ unschedulable (H.world s) n =
        some (if initialState m = some falseString then false else node.unschedulable) ∧
        Mark H none s := by
  unfold handleUnCordon
  split
  · rename_i hc
    refine TripleE.bind (TripleE.pre (R.patch_triple (m := m) (v := initialState m) hname
      (by simp [hc.2]) ?_) fun s _ h => ⟨h.1, h.2.2⟩) fun _ => ?_
    · exact fun s hinv o ho hmark => .inl ((R.reversible hinv ho).init_eq (hmark.trans hc.1)).symm
    · rw [if_pos hc.1]
      exact (R.dropInitialState_triple (f := false) fun _ => rfl).pre fun s _ h => ⟨h.1, h.2.2, h.2.1⟩
  · rename_i hc
    have hflag : (if initialState m = some falseString then false else node.unschedulable) =
        node.unschedulable := by
      split
      · rename_i hfalse
        cases hu : node.unschedulable with
        | true => exact absurd ⟨hfalse, hu⟩ hc
        | false => rfl
      · rfl
    rw [hflag]
    refine R.dropInitialState_triple fun hfalse => ?_
    simpa [hfalse] using hc

end CordonRules
end MaintenanceOperator
