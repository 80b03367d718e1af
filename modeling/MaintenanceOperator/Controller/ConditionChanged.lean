import MaintenanceOperator.K8sUtils
import MaintenanceOperator.Lib.Sorting

/-!
# The event filter of the NodeMaintenance controller

`ConditionChangedPredicate.Update` sorts the conditions of the old and of the new object by type and
compares the lists. The sort need not be stable and it works in place, on objects that the informer
shares with everybody else. Where each list has one condition of a type, the comparison is the one of
two maps from types to conditions, and the sorted objects are as good as the ones before
(`conditionChanged_iff`). A nil list and an empty one are the same here, which `DeepEqual` would tell
apart; the results are about lists that are not empty.
-/

namespace MaintenanceOperator
open Lib

/-- The order of `ConditionChangedPredicate.Update` on conditions (Go `cmpByType`). -/
def cmpByType (a b : Condition) : Ordering := compare a.type b.type

instance : Std.TransCmp cmpByType := inferInstanceAs (Std.TransCmp (compareOn Condition.type))

/-- Go `event.UpdateEvent`. -/
structure UpdateEvent where
  objectOld : Option NodeMaintenance
  objectNew : Option NodeMaintenance

/-- Go `ConditionChangedPredicate.Update`; any sorting function may be behind `slices.SortFunc`. -/
def ConditionChangedPredicate.update (sorter : Sorter cmpByType) (e : UpdateEvent) : Bool :=
  match e.objectOld, e.objectNew with
  | none, _ => false
  | some _, none => false
  | some oldO, some newO =>
    let condChanged :=
      sorter.sort oldO.status.conditions ≠ sorter.sort newO.status.conditions
    condChanged || newO.deleting

/-! ### Updates that set a condition -/

section Conditions
variable {new : Condition} {now : Nat} {cs : List Condition}

/-- The condition is not there with this reason. -/
def Lacks (new : Condition) (cs : List Condition) : Prop :=
  ∀ c, findStatusCondition cs new.type = some c → c.reason ≠ new.reason

lemma Lacks.of_cons {c : Condition} (h : Lacks new (c :: cs)) (hc : c.type ≠ new.type) :
    Lacks new cs := by
  intro c' hc'
  apply h
  simpa [findStatusCondition, hc] using hc'

lemma Lacks.head {c : Condition} (h : Lacks new (c :: cs)) (hc : c.type = new.type) :
    c.reason ≠ new.reason :=
  h c (by simp [findStatusCondition, hc])

/-- A condition set with another reason counts as changed. -/
lemma Lacks.changed (h : Lacks new cs) : (setStatusCondition new now cs).2 = true := by
  induction cs with
  | nil => rfl
  | cons c cs ih =>
    rw [setStatusCondition]
    split
    · rename_i hc
      simp [h.head hc]
    · rename_i hc
      exact ih (h.of_cons hc)

/-- There is then one condition more of this type and reason. -/
lemma Lacks.countP_set (h : Lacks new cs) :
    (setStatusCondition new now cs).1.countP (fun c => c.type = new.type ∧ c.reason = new.reason) =
      cs.countP (fun c => c.type = new.type ∧ c.reason = new.reason) + 1 := by
  induction cs with
  | nil => simp [setStatusCondition]
  | cons c cs ih =>
    rw [setStatusCondition]
    split
    · rename_i hc
      simp [Condition.overwrite, hc, h.head hc]
    · rename_i hc
      have hcount := ih (h.of_cons hc)
      simp only [List.countP_cons, hc, false_and, decide_false] at hcount ⊢
      simpa using hcount

/-- So the event filter lets the update through, in whatever order the conditions are sorted. -/
lemma Lacks.accepted (sorter : Sorter cmpByType) {o a : NodeMaintenance}
    (h : Lacks new o.status.conditions)
    (ha : a.status.conditions = (setStatusCondition new now o.status.conditions).1) :
    ConditionChangedPredicate.update sorter ⟨some o, some a⟩ = true := by
  have hne : sorter.sort o.status.conditions ≠ sorter.sort a.status.conditions := by
    intro e
    have hperm : o.status.conditions.Perm a.status.conditions :=
      (sorter.perm _).symm.trans (e ▸ sorter.perm _)
    have hcount := hperm.countP_eq fun c => c.type = new.type ∧ c.reason = new.reason
    rw [ha, h.countP_set] at hcount
    omega
  simp [ConditionChangedPredicate.update, hne]

/-- Objects whose Ready condition has another reason. -/
lemma lacks_readyCondition {m : NodeMaintenance} {reason : Reason} {msg : String}
    (h : getReadyConditionReason m ≠ reason) :
    Lacks (readyCondition m reason msg) m.status.conditions := by
  intro c hc
  have hc : findStatusCondition m.status.conditions conditionTypeReady = some c := hc
  rw [getReadyConditionReason, hc] at h
  exact h

end Conditions

/-! ### Conditions as a map -/

/-- Conditions with one of a type, as the API server keeps them, and at least one. -/
structure Listed (cs : List Condition) : Prop where
  nonempty : cs ≠ []
  nodup : (cs.map Condition.type).Nodup

section Listed
variable {cs cs' : List Condition} {c : Condition} {t : String}

lemma Listed.perm (h : Listed cs) (hp : cs'.Perm cs) : Listed cs' :=
  ⟨fun e => h.nonempty (by simpa [e] using hp), (hp.map _).nodup_iff.mpr h.nodup⟩

/-- Only equal conditions of a list compare equal. -/
lemma Listed.eq_of_cmpByType (h : Listed cs) :
    ∀ a ∈ cs, ∀ b ∈ cs, cmpByType a b = .eq → a = b := by
  intro a ha b hb hcmp
  have hcmp : compare a.type b.type = .eq := hcmp
  have htype : a.type = b.type := Std.LawfulEqCmp.eq_of_compare hcmp
  exact List.inj_on_of_nodup_map h.nodup ha hb htype

/-- Looking up a type finds the condition of that type. -/
lemma Listed.find_eq_some (h : Listed cs) :
    findStatusCondition cs t = some c ↔ c ∈ cs ∧ c.type = t := by
  constructor
  · intro hc
    exact ⟨List.mem_of_find?_eq_some hc, by simpa using List.find?_some hc⟩
  · rintro ⟨hc, rfl⟩
    cases hfind : findStatusCondition cs c.type with
    | none => simpa using List.find?_eq_none.mp hfind c hc
    | some c' =>
      have hmem := List.mem_of_find?_eq_some hfind
      have htype : c'.type = c.type := by simpa using List.find?_some hfind
      rw [List.inj_on_of_nodup_map h.nodup hmem hc htype]

/-- The map does not depend on the order. -/
lemma Listed.find_perm (h : Listed cs) (hp : cs'.Perm cs) (t : String) :
    findStatusCondition cs' t = findStatusCondition cs t := by
  ext c
  rw [(h.perm hp).find_eq_some, h.find_eq_some, hp.mem_iff]

/-- Lists with the same map have the same conditions. -/
lemma Listed.perm_of_find (h : Listed cs) (h' : Listed cs')
    (hfind : ∀ t, findStatusCondition cs t = findStatusCondition cs' t) : cs.Perm cs' := by
  refine (List.perm_ext_iff_of_nodup (.of_map _ h.nodup) (.of_map _ h'.nodup)).mpr fun c => ?_
  have hc := h.find_eq_some (c := c) (t := c.type)
  have hc' := h'.find_eq_some (c := c) (t := c.type)
  rw [hfind] at hc
  simpa using hc.symm.trans hc'

/-- Sorted lists are equal exactly if the maps are. -/
lemma Listed.sort_eq_iff (sorter : Sorter cmpByType) (h : Listed cs) (h' : Listed cs') :
    sorter.sort cs = sorter.sort cs' ↔
      ∀ t, findStatusCondition cs t = findStatusCondition cs' t := by
  constructor
  · intro e t
    rw [← h.find_perm (sorter.perm cs), e, h'.find_perm (sorter.perm cs')]
  · intro hfind
    exact sorter.sort_eq_sort sorter (h.perm_of_find h' hfind) h.eq_of_cmpByType

end Listed

/-! ### Sorting in place -/

/-- The object with its conditions in another order. -/
def NodeMaintenance.withConditions (nm : NodeMaintenance) (cs : List Condition) : NodeMaintenance :=
  { nm with status := { nm.status with conditions := cs } }

/-- `o'` is `o` with its conditions in another order. -/
def Reordered (o o' : NodeMaintenance) : Prop :=
  ∃ cs, cs.Perm o.status.conditions ∧ o' = o.withConditions cs

/-- Go `event.UpdateEvent` as the informer passes it on: pointers to objects that others have, too. -/
structure SharedEvent (Ref : Type) where
  objectOld : Option Ref
  objectNew : Option Ref

section Shared
variable {Ref : Type}

/-- The objects that the event points to. -/
def SharedEvent.load (e : SharedEvent Ref) (heap : Ref → NodeMaintenance) : UpdateEvent :=
  ⟨e.objectOld.map heap, e.objectNew.map heap⟩

variable [DecidableEq Ref]

/-- `slices.SortFunc(nm.Status.Conditions, cmpByType)` through a pointer. -/
def sortAt (sorter : Sorter cmpByType) (p : Ref) (heap : Ref → NodeMaintenance) :
    Ref → NodeMaintenance :=
  Function.update heap p ((heap p).withConditions (sorter.sort (heap p).status.conditions))

/-- Go `ConditionChangedPredicate.Update`, with what it does to the objects. -/
def ConditionChangedPredicate.updateShared (sorter : Sorter cmpByType) (e : SharedEvent Ref)
    (heap : Ref → NodeMaintenance) : Bool × (Ref → NodeMaintenance) :=
  match e.objectOld, e.objectNew with
  | none, _ => (false, heap)
  | some _, none => (false, heap)
  | some oldO, some newO =>
    let heap := sortAt sorter newO (sortAt sorter oldO heap)
    let condChanged := (heap oldO).status.conditions ≠ (heap newO).status.conditions
    (condChanged || (heap newO).deleting, heap)

/-- One call of the filter after another. -/
def ConditionChangedPredicate.updates (sorter : Sorter cmpByType) :
    List (SharedEvent Ref) → (Ref → NodeMaintenance) → List Bool × (Ref → NodeMaintenance)
  | [], heap => ([], heap)
  | e :: es, heap =>
    let (enqueue, heap) := updateShared sorter e heap
    let (rest, heap) := updates sorter es heap
    (enqueue :: rest, heap)

end Shared

section Reordered
variable {o o' o'' old new old' new' : NodeMaintenance} (sorter : Sorter cmpByType)

lemma Reordered.refl (o : NodeMaintenance) : Reordered o o := ⟨_, .refl _, rfl⟩

lemma Reordered.trans (h : Reordered o o') (h' : Reordered o' o'') : Reordered o o'' := by
  obtain ⟨cs, hp, rfl⟩ := h
  obtain ⟨cs', hp', rfl⟩ := h'
  exact ⟨cs', hp'.trans hp, rfl⟩

lemma Reordered.conditions (h : Reordered o o') : o'.status.conditions.Perm o.status.conditions := by
  obtain ⟨cs, hp, rfl⟩ := h
  exact hp

lemma Reordered.deleting (h : Reordered o o') : o'.deleting = o.deleting := by
  obtain ⟨cs, -, rfl⟩ := h
  rfl

/-- Whoever reads the Ready reason does not notice. -/
lemma Reordered.reason (h : Reordered o o') (ho : Listed o.status.conditions) :
    getReadyConditionReason o' = getReadyConditionReason o := by
  rw [getReadyConditionReason, ho.find_perm h.conditions, getReadyConditionReason]

/-- Neither does the filter. -/
lemma update_reordered (hold : Listed old.status.conditions) (hnew : Listed new.status.conditions)
    (ho : Reordered old old') (hn : Reordered new new') :
    ConditionChangedPredicate.update sorter ⟨some old', some new'⟩ =
      ConditionChangedPredicate.update sorter ⟨some old, some new⟩ := by
  have hsort : ∀ {o o' : NodeMaintenance}, Listed o.status.conditions → Reordered o o' →
      sorter.sort o'.status.conditions = sorter.sort o.status.conditions := fun hl h =>
    sorter.sort_eq_sort sorter h.conditions (hl.perm h.conditions).eq_of_cmpByType
  simp only [ConditionChangedPredicate.update, hsort hold ho, hsort hnew hn, hn.deleting]

/-- What the filter tells, in terms of the maps. -/
lemma update_eq_true_iff (hold : Listed old.status.conditions) (hnew : Listed new.status.conditions) :
    ConditionChangedPredicate.update sorter ⟨some old, some new⟩ = true ↔ new.deleting = true ∨
      ∃ t, findStatusCondition old.status.conditions t ≠
        findStatusCondition new.status.conditions t := by
  have hsort := hold.sort_eq_iff sorter hnew
  simp only [ConditionChangedPredicate.update, ne_eq, Bool.or_eq_true, decide_eq_true_eq, hsort,
    not_forall]
  exact or_comm

variable {Ref : Type} {heap heap₀ : Ref → NodeMaintenance}

/-- On objects in some order, an event is what it is on the objects as they were. -/
lemma update_load (hl : ∀ p, Listed (heap₀ p).status.conditions)
    (h : ∀ p, Reordered (heap₀ p) (heap p)) (e : SharedEvent Ref) :
    ConditionChangedPredicate.update sorter (e.load heap) =
      ConditionChangedPredicate.update sorter (e.load heap₀) := by
  obtain ⟨old, new⟩ := e
  cases old with
  | none => rfl
  | some old =>
    cases new with
    | none => rfl
    | some new => exact update_reordered sorter (hl old) (hl new) (h old) (h new)

variable [DecidableEq Ref]

lemma reordered_sortAt (p q : Ref) : Reordered (heap q) (sortAt sorter p heap q) := by
  by_cases e : q = p
  · subst e
    exact ⟨_, sorter.perm _, by simp [sortAt]⟩
  · simpa [sortAt, e] using Reordered.refl (heap q)

/-- The call that sorts in place answers as the one that sorts copies, also if both pointers are the
same. -/
lemma updateShared_fst (e : SharedEvent Ref) :
    (ConditionChangedPredicate.updateShared sorter e heap).1 =
      ConditionChangedPredicate.update sorter (e.load heap) := by
  obtain ⟨old, new⟩ := e
  cases old with
  | none => rfl
  | some old =>
    cases new with
    | none => rfl
    | some new =>
      by_cases e : old = new
      · subst e
        simp [ConditionChangedPredicate.updateShared, ConditionChangedPredicate.update,
          SharedEvent.load, sortAt, NodeMaintenance.withConditions, NodeMaintenance.deleting]
      · have e' : new ≠ old := fun h => e h.symm
        simp [ConditionChangedPredicate.updateShared, ConditionChangedPredicate.update,
          SharedEvent.load, sortAt, NodeMaintenance.withConditions, NodeMaintenance.deleting, e, e']

/-- The call leaves every object with its conditions in some order. -/
lemma updateShared_snd (e : SharedEvent Ref) (p : Ref) :
    Reordered (heap p) ((ConditionChangedPredicate.updateShared sorter e heap).2 p) := by
  obtain ⟨old, new⟩ := e
  cases old with
  | none => exact .refl _
  | some old =>
    cases new with
    | none => exact .refl _
    | some new => exact (reordered_sortAt sorter old p).trans (reordered_sortAt sorter new p)

/-- Along any number of calls. -/
lemma updates_spec (hl : ∀ p, Listed (heap₀ p).status.conditions) (es : List (SharedEvent Ref))
    (h : ∀ p, Reordered (heap₀ p) (heap p)) :
    (ConditionChangedPredicate.updates sorter es heap).1 =
        es.map (fun e => ConditionChangedPredicate.update sorter (e.load heap₀)) ∧
      ∀ p, Reordered (heap₀ p) ((ConditionChangedPredicate.updates sorter es heap).2 p) := by
  induction es generalizing heap with
  | nil => exact ⟨rfl, h⟩
  | cons e es ih =>
    have hstep := fun p => (h p).trans (updateShared_snd sorter e p)
    obtain ⟨hres, hheap⟩ := ih hstep
    refine ⟨?_, hheap⟩
    rw [List.map_cons, ← update_load sorter hl h, ← updateShared_fst, ← hres]
    rfl

end Reordered

/-- The event filter lets an update through exactly if the new object is being deleted or some type has
another condition than before. The order of the conditions makes no difference, and neither does the
sorting in place: whatever calls came before, the Ready reasons are the same and each call answers as on
the objects as they were. -/
theorem conditionChanged_iff (sorter : Sorter cmpByType) :
    (∀ old new : NodeMaintenance, Listed old.status.conditions → Listed new.status.conditions →
      (ConditionChangedPredicate.update sorter ⟨some old, some new⟩ = true ↔ new.deleting = true ∨
        ∃ t, findStatusCondition old.status.conditions t ≠
          findStatusCondition new.status.conditions t) ∧
      ∀ old' new', Reordered old old' → Reordered new new' →
        ConditionChangedPredicate.update sorter ⟨some old', some new'⟩ =
          ConditionChangedPredicate.update sorter ⟨some old, some new⟩) ∧
    ∀ (Ref : Type) [DecidableEq Ref] (heap : Ref → NodeMaintenance),
      (∀ p, Listed (heap p).status.conditions) → ∀ es : List (SharedEvent Ref),
        (ConditionChangedPredicate.updates sorter es heap).1 =
          es.map (fun e => ConditionChangedPredicate.update sorter (e.load heap)) ∧
        ∀ p, getReadyConditionReason ((ConditionChangedPredicate.updates sorter es heap).2 p) =
          getReadyConditionReason (heap p) := by
  refine ⟨fun old new hold hnew => ⟨update_eq_true_iff sorter hold hnew, ?_⟩, ?_⟩
  · exact fun old' new' ho hn => update_reordered sorter hold hnew ho hn
  · intro Ref _ heap hl es
    -- the events share their objects: each update sorts them in place for the next
    obtain ⟨hres, hheap⟩ := updates_spec sorter hl es fun p => .refl (heap p)
    exact ⟨hres, fun p => (hheap p).reason (hl p)⟩

/-- An object that the requestor reported to have failed: the Ready condition comes last. -/
def failedMaintenance (reason : Reason) : NodeMaintenance :=
  let nm := newNodeMaintenance ⟨"default", "nm"⟩ "nm"
    ⟨"requestor.nvidia.com", [], "node-1", true, none, none⟩
  nm.withConditions
    [⟨conditionTypeRequestorFailed, .true, 1, 5, .other "FailedMaintenance", ""⟩,
      ⟨conditionTypeReady, .false, 1, 5, reason, ""⟩]

lemma listed_failedMaintenance (reason : Reason) :
    Listed (failedMaintenance reason).status.conditions :=
  ⟨nofun, by simp [failedMaintenance, NodeMaintenance.withConditions, conditionTypeReady,
    conditionTypeRequestorFailed]⟩

/-- Two updates of the same objects, there and back: both are let through, and both objects, whose
conditions are now sorted, have their Ready reasons. -/
theorem conditionChanged_there_and_back :
    ∃ heap, ConditionChangedPredicate.updates (.insertion cmpByType)
        [⟨some false, some true⟩, ⟨some true, some false⟩]
        (fun failed => failedMaintenance (if failed then .requestorFailed else .ready)) =
          ([true, true], heap) ∧
      (heap true).status.conditions.map Condition.type = ["Ready", "RequestorFailed"] ∧
      getReadyConditionReason (heap true) = .requestorFailed ∧
      getReadyConditionReason (heap false) = .ready := by
  obtain ⟨hres, hready⟩ := (conditionChanged_iff (.insertion cmpByType)).2 Bool
    (fun failed => failedMaintenance (if failed then .requestorFailed else .ready))
    (fun _ => listed_failedMaintenance _) [⟨some false, some true⟩, ⟨some true, some false⟩]
  refine ⟨_, Prod.ext (hres.trans ?_) rfl, ?_, (hready true).trans ?_, (hready false).trans ?_⟩
  all_goals decide

end MaintenanceOperator
