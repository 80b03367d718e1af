import MaintenanceOperator.Controller.NodeMaintenance

/-!
# The garbage collector

Port of `internal/controller/garbage_collector_controller.go`. A reconcile of the garbage collector goes
through all NodeMaintenances once and deletes those whose time is up; whether a deletion fails makes no
difference to it. Times are nanoseconds, and may be before the epoch. The documentation of
`ConditionReasonRequestorFailed` promises that objects with this reason are left alone, but the loop does
not look at the reason (`garbageCollected_iff`).
-/

namespace MaintenanceOperator
open Lib

/-- Go `time.Parse(time.RFC3339, ·)`; the empty string is no time. -/
structure TimeParser where
  parse : String → Option Int
  parse_empty : parse "" = none

/-- Go `GarbageCollectIgnoreAnnotation`. -/
def garbageCollectIgnoreAnnotation : String := "maintenance.nvidia.com/garbage-collector.ignore"

/-- Go `GarbageCollectorOptions`. -/
structure GarbageCollectorOptions where
  pendingMaxNodeMaintenanceTime : Int
  maxNodeMaintenanceTime : Int
  deriving DecidableEq, Repr

namespace GarbageCollectorOptions

/-- Go `NewGarbageCollectorOptions`. -/
def new : GarbageCollectorOptions := ⟨3600 * second, 3600 * second⟩

/-- Go `Store`. -/
def store (gco : GarbageCollectorOptions) (maxNodeMaintenanceTime : Int) : GarbageCollectorOptions :=
  { gco with pendingMaxNodeMaintenanceTime := maxNodeMaintenanceTime }

/-- Go `Load`. -/
def load (gco : GarbageCollectorOptions) : GarbageCollectorOptions :=
  { gco with maxNodeMaintenanceTime := gco.pendingMaxNodeMaintenanceTime }

end GarbageCollectorOptions

namespace GarbageCollector

/-- Calls of the garbage collector. -/
inductive Op where
  | listNodeMaintenances
  | now
  | delete (nm : NodeMaintenance)
  deriving DecidableEq

/-- Response types. -/
def Resp : Op → Type
  | .listNodeMaintenances => Except Err (List NodeMaintenance)
  | .now => Int
  | .delete _ => Option Err

/-- `r.List`. -/
def list : Prog Op Resp (Except Err (List NodeMaintenance)) := Prog.lift Op.listNodeMaintenances

/-- `time.Now`. -/
def timeNow : Prog Op Resp Int := Prog.lift Op.now

/-- `r.Delete`. -/
def delete (nm : NodeMaintenance) : Prog Op Resp (Option Err) := Prog.lift (Op.delete nm)

/-- The body of the loop of `Reconcile`; an error is only logged. -/
def collect (T : TimeParser) (options : GarbageCollectorOptions) (timeNow : Int)
    (nm : NodeMaintenance) : Prog Op Resp Unit := do
  if (nm.annotations.get? garbageCollectIgnoreAnnotation).getD "" = "true" then
    return ()
  else if (nm.annotations.get? readyTimeAnnotation).getD "" ≠ "" then
    match T.parse ((nm.annotations.get? readyTimeAnnotation).getD "") with
    | none => return ()
    | some readyTime =>
      if timeNow > readyTime + options.maxNodeMaintenanceTime then
        if nm.deleting then
          return ()
        else
          let _ ← delete nm
          return ()
      else
        return ()
  else
    return ()

/-- Go `NodeMaintenanceGarbageCollector.Reconcile`, with the options as it leaves them. -/
def reconcile (T : TimeParser) (options : GarbageCollectorOptions) :
    Prog Op Resp (Except Err Unit × GarbageCollectorOptions) := do
  let options := options.load
  match ← list with
  | .error err => return (.error (.wrap "failed to list NodeMaintenance" err), options)
  | .ok items =>
    let timeNow ← timeNow
    forM items (collect T options timeNow)
    return (.ok (), options)

/-- The object that a call is to delete. -/
def Op.deleted? : Op → Option NodeMaintenance
  | .delete nm => some nm
  | _ => none

/-- The objects for which one reconcile issues a deletion. -/
def deletions (T : TimeParser) (options : GarbageCollectorOptions) (answer : List Op → (e : Op) → Resp e) :
    List NodeMaintenance :=
  ((reconcile T options).answered answer []).1.filterMap Op.deleted?

/-- The ready time on record, if it is one. -/
def readyTime? (T : TimeParser) (nm : NodeMaintenance) : Option Int :=
  (nm.annotations.get? readyTimeAnnotation).bind T.parse

/-- The object is not to be ignored, its time is up, and nobody has deleted it yet. -/
structure Stale (T : TimeParser) (maxTime now : Int) (nm : NodeMaintenance) : Prop where
  notIgnored : nm.annotations.get? garbageCollectIgnoreAnnotation ≠ some "true"
  expired : ∃ t, readyTime? T nm = some t ∧ now > t + maxTime
  notDeleting : nm.deleting = false

section Stale
variable {T : TimeParser} {options : GarbageCollectorOptions} {maxTime now : Int} {nm : NodeMaintenance}
  {items : List NodeMaintenance} {answer : List Op → (e : Op) → Resp e} {calls : List Op}

@[simp] lemma answered_list :
    list.answered answer calls = (calls ++ [.listNodeMaintenances], answer calls .listNodeMaintenances) :=
  rfl

@[simp] lemma answered_timeNow : timeNow.answered answer calls = (calls ++ [.now], answer calls .now) :=
  rfl

@[simp] lemma answered_delete :
    (delete nm).answered answer calls = (calls ++ [.delete nm], answer calls (.delete nm)) := rfl

lemma stale_iff : Stale T maxTime now nm ↔
    nm.annotations.get? garbageCollectIgnoreAnnotation ≠ some "true" ∧
      (readyTime? T nm).any (fun t => now > t + maxTime) = true ∧ nm.deleting = false := by
  constructor
  · rintro ⟨hign, ⟨t, ht, hlt⟩, hdel⟩
    exact ⟨hign, by simpa [ht] using hlt, hdel⟩
  · rintro ⟨hign, hany, hdel⟩
    cases ht : readyTime? T nm with
    | none => simp [ht] at hany
    | some t => exact ⟨hign, ⟨t, ht, by simpa [ht] using hany⟩, hdel⟩

instance : Decidable (Stale T maxTime now nm) := decidable_of_iff' _ stale_iff

/-- An absent annotation and an empty one are both no time. -/
lemma parse_getD : T.parse ((nm.annotations.get? readyTimeAnnotation).getD "") = readyTime? T nm := by
  unfold readyTime?
  cases nm.annotations.get? readyTimeAnnotation with
  | none => exact T.parse_empty
  | some s => rfl

/-- The loop body deletes the object if it is stale, and does nothing otherwise. -/
lemma collect_calls : ((collect T options now nm).answered answer calls).1 =
    calls ++ if Stale T options.maxNodeMaintenanceTime now nm then [.delete nm] else [] := by
  have hign : (nm.annotations.get? garbageCollectIgnoreAnnotation).getD "" = "true" ↔
      nm.annotations.get? garbageCollectIgnoreAnnotation = some "true" := by
    cases nm.annotations.get? garbageCollectIgnoreAnnotation <;> simp
  unfold collect
  rw [parse_getD]
  split
  · rename_i h
    have hno : ¬ Stale T options.maxNodeMaintenanceTime now nm := fun hs => hs.notIgnored (hign.mp h)
    simp [hno]
  · rename_i h
    split
    · cases ht : readyTime? T nm with
      -- a time that does not parse is logged, and the object skipped
      | none =>
        have hno : ¬ Stale T options.maxNodeMaintenanceTime now nm := by
          rintro ⟨-, ⟨t, ht', -⟩, -⟩
          rw [ht] at ht'
          cases ht'
        simp [hno]
      | some t =>
        have hs : Stale T options.maxNodeMaintenanceTime now nm ↔
            now > t + options.maxNodeMaintenanceTime ∧ nm.deleting = false := by
          simp [stale_iff, hign.not.mp h, ht]
        cases hdel : nm.deleting <;> by_cases hlt : now > t + options.maxNodeMaintenanceTime <;>
          simp [hs, hdel, hlt]
    -- no ready time yet: never stale
    · rename_i hempty
      have hno : ¬ Stale T options.maxNodeMaintenanceTime now nm := by
        rintro ⟨-, ⟨t, ht, -⟩, -⟩
        rw [← parse_getD, not_ne_iff.mp hempty, T.parse_empty] at ht
        cases ht
      simp [hno]

/-- The loop deletes the stale objects, in their order, however the deletions turn out. -/
lemma forM_collect_calls : ((forM items (collect T options now)).answered answer calls).1 =
    calls ++ (items.filter (Stale T options.maxNodeMaintenanceTime now ·)).map .delete := by
  induction items generalizing calls with
  | nil => simp
  | cons nm items ih =>
    rw [List.forM_cons, Prog.answered_bind, ih, collect_calls, List.filter_cons]
    split <;> simp_all

/-- The calls of one reconcile, once it has its list. -/
lemma reconcile_calls (hlist : answer [] .listNodeMaintenances = .ok items)
    (hnow : answer [.listNodeMaintenances] .now = now) :
    ((reconcile T options).answered answer []).1 =
      [.listNodeMaintenances, .now] ++
        (items.filter (Stale T options.pendingMaxNodeMaintenanceTime now ·)).map .delete := by
  simp only [reconcile, Prog.answered_bind, answered_list, List.nil_append, hlist]
  simp [forM_collect_calls, GarbageCollectorOptions.load, hnow]

lemma deletions_eq (T : TimeParser) (options : GarbageCollectorOptions)
    (hlist : answer [] .listNodeMaintenances = .ok items)
    (hnow : answer [.listNodeMaintenances] .now = now) :
    deletions T options answer = items.filter (Stale T options.pendingMaxNodeMaintenanceTime now ·) := by
  have hdelete : Op.deleted? ∘ Op.delete = some := rfl
  rw [deletions, reconcile_calls hlist hnow, List.filterMap_append, List.filterMap_map, hdelete,
    List.filterMap_some]
  rfl

end Stale

/-- One reconcile issues a deletion for each stale object, in the order of the list, whatever the other
objects are and however the deletions turn out. These are the stale objects whose requestors have not
failed exactly if there is no other stale object. -/
theorem garbageCollected_iff (T : TimeParser) (options : GarbageCollectorOptions)
    (answer : List Op → (e : Op) → Resp e) {items : List NodeMaintenance} {now : Int}
    (hlist : answer [] .listNodeMaintenances = .ok items)
    (hnow : answer [.listNodeMaintenances] .now = now) :
    deletions T options answer = items.filter (Stale T options.pendingMaxNodeMaintenanceTime now ·) ∧
    (deletions T options answer = items.filter (fun nm =>
        Stale T options.pendingMaxNodeMaintenanceTime now nm ∧
          getReadyConditionReason nm ≠ .requestorFailed) ↔
      ∀ nm ∈ items, Stale T options.pendingMaxNodeMaintenanceTime now nm →
        getReadyConditionReason nm ≠ .requestorFailed) := by
  have heq := deletions_eq T options hlist hnow
  refine ⟨heq, ?_⟩
  rw [heq]
  constructor
  · intro h nm hmem hstale
    -- deleted as stale, hence among those the list on the right keeps
    have hin : nm ∈ items.filter (Stale T options.pendingMaxNodeMaintenanceTime now ·) :=
      List.mem_filter.mpr ⟨hmem, by simpa using hstale⟩
    rw [h] at hin
    have hboth := (List.mem_filter.mp hin).2
    simp only [decide_eq_true_eq] at hboth
    exact hboth.2
  · intro h
    refine List.filter_congr fun nm hmem => ?_
    simp only [decide_eq_decide]
    exact ⟨fun hs => ⟨hs, h nm hmem hs⟩, fun hs => hs.1⟩

/-- Times that are written as one stroke for each nanosecond. -/
def strokeTimes : TimeParser where
  parse s := if s.toList ≠ [] ∧ s.toList.all (· = '|') then some s.length else none
  parse_empty := rfl

/-- An object with these annotations and this Ready reason. -/
def annotated (name : String) (annotations : GoMap String) (reason : Reason) : NodeMaintenance :=
  withReadyReason { newNodeMaintenance ⟨"default", name⟩ name
    ⟨"requestor.nvidia.com", [], "node-1", true, none, none⟩ with annotations } reason "" 0

/-- A list, the time, and no deletion that succeeds. -/
def refusing (items : List NodeMaintenance) (now : Int) : List Op → (e : Op) → Resp e
  | _, .listNodeMaintenances => .ok items
  | _, .now => now
  | _, .delete _ => some .conflict

/-- Of an object to be ignored, one whose time cannot be parsed, one whose time has just come and two
that are overdue, the last two are deleted, although the first of these deletions fails. -/
theorem garbageCollected_two_of_five :
    (deletions strokeTimes (GarbageCollectorOptions.new.store 10) (refusing
      [annotated "nm-1" [( readyTimeAnnotation, "|"), ( garbageCollectIgnoreAnnotation, "true")] .ready,
        annotated "nm-2" [( readyTimeAnnotation, "now")] .ready,
        annotated "nm-3" [( readyTimeAnnotation, "||")] .ready,
        annotated "nm-4" [( readyTimeAnnotation, "|")] .ready,
        annotated "nm-5" [( readyTimeAnnotation, "|")] .ready] 12)).map (·.key.name) =
      ["nm-4", "nm-5"] := by
  rw [(garbageCollected_iff strokeTimes _ _ rfl rfl).1]
  decide

/-- An overdue object whose requestor has failed is deleted. -/
theorem garbageCollected_failed :
    ∃ nm, getReadyConditionReason nm = .requestorFailed ∧
      deletions strokeTimes (GarbageCollectorOptions.new.store 10) (refusing [nm] 12) = [nm] :=
  ⟨annotated "nm-1" [( readyTimeAnnotation, "|")] .requestorFailed, by decide, by decide⟩

end GarbageCollector
end MaintenanceOperator
