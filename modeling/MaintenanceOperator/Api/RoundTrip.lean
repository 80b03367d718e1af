import MaintenanceOperator.Api.Encoding

/-!
# Round trip of a spec through the API server

`decode_fill_encode` computes, field by field, what comes back from encoding a spec with the Go tags,
filling the CRD defaults and decoding: `NodeMaintenanceSpec.normalize`. `wellFormed_of_admitted` and
`valid_fill_encode` show that the server never rejects the body when the spec is one the CRD admits,
so `putSpec_of_admitted` holds, and `normalize_eq_iff` says when the spec survives.
-/

namespace MaintenanceOperator
open Lib Lib.Schema

/-- What remains of a `DrainSpec`: a zero timeout has become the default. -/
def DrainSpec.normalize (d : DrainSpec) : DrainSpec :=
  { d with timeoutSecond := if d.timeoutSecond = 0 then 300 else d.timeoutSecond }

/-- What remains of a spec: `cordon` has become true, a zero drain timeout the default. -/
def NodeMaintenanceSpec.normalize (s : NodeMaintenanceSpec) : NodeMaintenanceSpec :=
  { s with cordon := true, drainSpec := s.drainSpec.map DrainSpec.normalize }

/-- The bounds the CRD puts on a spec. -/
structure NodeMaintenanceSpec.WellFormed (s : NodeMaintenanceSpec) : Prop where
  requestorID : requestorIDAccepts s.requestorID = true
  additionalRequestors : s.additionalRequestors.Nodup
  waitTimeout : ∀ w, s.waitForPodCompletion = some w →
    0 ≤ w.timeoutSecond ∧ w.timeoutSecond ≤ 2 ^ 31 - 1
  drainTimeout : ∀ d, s.drainSpec = some d → 0 ≤ d.timeoutSecond ∧ d.timeoutSecond ≤ 2 ^ 31 - 1

section Lookups

@[simp] lemma get?_omitEmpty_self (k : String) (zero : Bool) (j : Json) :
    GoMap.get? (omitEmpty k zero j) k = if zero then none else some j := by
  cases zero <;> simp [omitEmpty, GoMap.get?_cons]

lemma get?_omitEmpty_ne {k k' : String} (zero : Bool) (j : Json) (ne : k ≠ k') :
    GoMap.get? (omitEmpty k' zero j) k = none := by
  cases zero <;> simp [omitEmpty, GoMap.get?_cons, ne]

@[simp] lemma get?_omitNil_self (k : String) (j : Option Json) :
    GoMap.get? (omitNil k j) k = j := by
  cases j <;> simp [omitNil, GoMap.get?_cons]

lemma get?_omitNil_ne {k k' : String} (j : Option Json) (ne : k ≠ k') :
    GoMap.get? (omitNil k' j) k = none := by
  cases j <;> simp [omitNil, GoMap.get?_cons, ne]

/-- The fields of an encoded spec, one by one. -/
lemma spec_fields (s : NodeMaintenanceSpec) :
    GoMap.get? s.fields "requestorID" = some (.str s.requestorID) ∧
    GoMap.get? s.fields "additionalRequestors" =
      (if s.additionalRequestors.isEmpty then none
        else some (.arr (s.additionalRequestors.map .str))) ∧
    GoMap.get? s.fields "nodeName" = some (.str s.nodeName) ∧
    GoMap.get? s.fields "cordon" = (if s.cordon then some (.bool true) else none) ∧
    GoMap.get? s.fields "waitForPodCompletion" =
      s.waitForPodCompletion.map (fun w => .obj w.fields) ∧
    GoMap.get? s.fields "drainSpec" = s.drainSpec.map (fun d => .obj d.fields) := by
  refine ⟨?_, ?_, ?_, ?_, ?_, ?_⟩ <;>
    simp [NodeMaintenanceSpec.fields, GoMap.get?_append, GoMap.get?_cons, get?_omitEmpty_ne,
      get?_omitNil_ne]
  cases s.cordon <;> simp

/-- The fields of an encoded drain spec. -/
lemma drain_fields (d : DrainSpec) :
    GoMap.get? d.fields "force" = (if d.force then some (.bool true) else none) ∧
    GoMap.get? d.fields "podSelector" =
      (if d.podSelector = "" then none else some (.str d.podSelector)) ∧
    GoMap.get? d.fields "timeoutSeconds" =
      (if d.timeoutSecond = 0 then none else some (.int d.timeoutSecond)) ∧
    GoMap.get? d.fields "deleteEmptyDir" = (if d.deleteEmptyDir then some (.bool true) else none) ∧
    GoMap.get? d.fields "podEvictionFilters" =
      (if d.podEvictionFilters.isEmpty then none
        else some (.arr (d.podEvictionFilters.map fun e => .obj e.fields))) := by
  refine ⟨?_, ?_, ?_, ?_, ?_⟩ <;>
    simp [DrainSpec.fields, GoMap.get?_append, get?_omitEmpty_ne]
  · cases d.force <;> simp
  · cases d.deleteEmptyDir <;> simp

/-- The fields of an encoded pod-completion spec. -/
lemma wait_fields (w : WaitForPodCompletionSpec) :
    GoMap.get? w.fields "podSelector" =
      (if w.podSelector = "" then none else some (.str w.podSelector)) ∧
    GoMap.get? w.fields "timeoutSeconds" =
      (if w.timeoutSecond = 0 then none else some (.int w.timeoutSecond)) := by
  refine ⟨?_, ?_⟩ <;>
    simp [WaitForPodCompletionSpec.fields, GoMap.get?_append, get?_omitEmpty_ne]

end Lookups

section Filled

/-- A `string` field without default is left as it was. -/
lemma filled_string (s : String) :
    (present optionalProp.default (if s = "" then none else some (.str s))).map (fill anyString) =
      if s = "" then none else some (.str s) := by
  split
  · rfl
  · simp [anyString]

/-- A `bool` field with default false is there, as it was. -/
lemma filled_bool (b : Bool) :
    (present (defaultProp (.bool false)).default (if b then some (.bool true) else none)).map
      (fill .boolean) = some (.bool b) := by
  cases b <;> simp [defaultProp]

/-- An `int32` field with a default is there; zero has become the default. -/
lemma filled_int (d n : Int) :
    (present (defaultProp (.int d)).default (if n = 0 then none else some (.int n))).map
      (fill nonNegInt32) = some (.int (if n = 0 then d else n)) := by
  split <;> simp [defaultProp, nonNegInt32]

/-- An entry of `podEvictionFilters`, after defaulting. -/
lemma filter_filled (e : PodEvictionFiterEntry) :
    GoMap.get? (fillProps filterProps e.fields) "byResourceNameRegex" =
      e.byResourceNameRegex.map .str := by
  have nd : (filterProps.map Prod.fst).Nodup := by decide
  rw [get?_fillProps e.fields "byResourceNameRegex" nd (.head _), PodEvictionFiterEntry.fields,
    get?_omitNil_self]
  cases e.byResourceNameRegex <;> simp [optionalProp, anyString]

/-- A drain spec, after defaulting. -/
lemma drain_filled (d : DrainSpec) :
    GoMap.get? (fillProps drainProps d.fields) "force" = some (.bool d.force) ∧
    GoMap.get? (fillProps drainProps d.fields) "podSelector" =
      (if d.podSelector = "" then none else some (.str d.podSelector)) ∧
    GoMap.get? (fillProps drainProps d.fields) "timeoutSeconds" =
      some (.int (if d.timeoutSecond = 0 then 300 else d.timeoutSecond)) ∧
    GoMap.get? (fillProps drainProps d.fields) "deleteEmptyDir" = some (.bool d.deleteEmptyDir) ∧
    GoMap.get? (fillProps drainProps d.fields) "podEvictionFilters" =
      (if d.podEvictionFilters.isEmpty then none
        else some (.arr (d.podEvictionFilters.map fun e => .obj (fillProps filterProps e.fields)))) := by
  obtain ⟨hforce, hsel, htime, hdel, hfil⟩ := drain_fields d
  have nd : (drainProps.map Prod.fst).Nodup := by decide
  refine ⟨?_, ?_, ?_, ?_, ?_⟩
  · rw [get?_fillProps d.fields "force" nd (.tail _ (.head _)), hforce]
    exact filled_bool d.force
  · rw [get?_fillProps d.fields "podSelector" nd (.tail _ (.tail _ (.tail _ (.head _)))), hsel]
    exact filled_string d.podSelector
  · rw [get?_fillProps d.fields "timeoutSeconds" nd
      (.tail _ (.tail _ (.tail _ (.tail _ (.head _))))), htime]
    exact filled_int 300 d.timeoutSecond
  · rw [get?_fillProps d.fields "deleteEmptyDir" nd (.head _), hdel]
    exact filled_bool d.deleteEmptyDir
  · rw [get?_fillProps d.fields "podEvictionFilters" nd (.tail _ (.tail _ (.head _))), hfil]
    split
    · rfl
    · simp

/-- A pod-completion spec, after defaulting. -/
lemma wait_filled (w : WaitForPodCompletionSpec) :
    GoMap.get? (fillProps waitProps w.fields) "podSelector" =
      (if w.podSelector = "" then none else some (.str w.podSelector)) ∧
    GoMap.get? (fillProps waitProps w.fields) "timeoutSeconds" = some (.int w.timeoutSecond) := by
  obtain ⟨hsel, htime⟩ := wait_fields w
  have nd : (waitProps.map Prod.fst).Nodup := by decide
  refine ⟨?_, ?_⟩
  · rw [get?_fillProps w.fields "podSelector" nd (.head _), hsel]
    exact filled_string w.podSelector
  · rw [get?_fillProps w.fields "timeoutSeconds" nd (.tail _ (.head _)), htime, filled_int]
    split <;> simp_all

/-- A spec, after defaulting: `cordon` is true whatever it was. -/
lemma spec_filled (s : NodeMaintenanceSpec) :
    GoMap.get? (fillProps specProps s.fields) "requestorID" = some (.str s.requestorID) ∧
    GoMap.get? (fillProps specProps s.fields) "additionalRequestors" =
      (if s.additionalRequestors.isEmpty then none
        else some (.arr (s.additionalRequestors.map .str))) ∧
    GoMap.get? (fillProps specProps s.fields) "nodeName" = some (.str s.nodeName) ∧
    GoMap.get? (fillProps specProps s.fields) "cordon" = some (.bool true) ∧
    GoMap.get? (fillProps specProps s.fields) "waitForPodCompletion" =
      s.waitForPodCompletion.map (fun w => .obj (fillProps waitProps w.fields)) ∧
    GoMap.get? (fillProps specProps s.fields) "drainSpec" =
      s.drainSpec.map (fun d => .obj (fillProps drainProps d.fields)) := by
  obtain ⟨hreq, hadd, hnode, hcor, hwait, hdrain⟩ := spec_fields s
  have nd : (specProps.map Prod.fst).Nodup := by decide
  refine ⟨?_, ?_, ?_, ?_, ?_, ?_⟩
  · rw [get?_fillProps s.fields "requestorID" nd
      (.tail _ (.tail _ (.tail _ (.tail _ (.head _))))), hreq]
    simp
  · rw [get?_fillProps s.fields "additionalRequestors" nd (.head _), hadd]
    split
    · rfl
    · simp
  · rw [get?_fillProps s.fields "nodeName" nd (.tail _ (.tail _ (.tail _ (.head _)))), hnode]
    simp [anyString]
  · -- a false `cordon` is not encoded, and comes back as the default
    rw [get?_fillProps s.fields "cordon" nd (.tail _ (.head _)), hcor]
    cases s.cordon <;> simp [defaultProp]
  · rw [get?_fillProps s.fields "waitForPodCompletion" nd
      (.tail _ (.tail _ (.tail _ (.tail _ (.tail _ (.head _)))))), hwait]
    cases s.waitForPodCompletion <;> simp [optionalProp]
  · rw [get?_fillProps s.fields "drainSpec" nd (.tail _ (.tail _ (.head _))), hdrain]
    cases s.drainSpec <;> simp [optionalProp]

end Filled

section Decoding

lemma decodeString_omitted (s : String) :
    decodeString (if s = "" then none else some (.str s)) = some s := by
  split
  · rename_i e
    rw [e]
    rfl
  · rfl

lemma decodeInt32_of_range {n : Int} (h : 0 ≤ n ∧ n ≤ 2 ^ 31 - 1) :
    decodeInt32 (some (.int n)) = some n := by
  rw [decodeInt32, if_pos (by omega)]

lemma mapM_of_decodes {α : Type} {f : Json → Option α} {g : α → Json} (h : ∀ a, f (g a) = some a)
    (l : List α) : (l.map g).mapM f = some l := by
  induction l with
  | nil => rfl
  | cons a l ih =>
    rw [List.map_cons, List.mapM_cons, h, ih]
    rfl

/-- A slice field comes back as it was when its elements do. -/
lemma decodeSlice_omitted {α : Type} {f : Json → Option α} {g : α → Json} (h : ∀ a, f (g a) = some a)
    (l : List α) : decodeSlice f (if l.isEmpty then none else some (.arr (l.map g))) = some l := by
  split
  · rename_i e
    rw [List.isEmpty_iff.mp e]
    rfl
  · exact mapM_of_decodes h l

lemma decodeItemString_str (s : String) : decodeItemString (.str s) = some s := rfl

/-- An entry of `podEvictionFilters` comes back as it was. -/
lemma decodeFilter_fill (e : PodEvictionFiterEntry) :
    decodeFilter (.obj (fillProps filterProps e.fields)) = some e := by
  simp only [decodeFilter, filter_filled]
  obtain ⟨regex⟩ := e
  cases regex <;> rfl

/-- A drain spec comes back normalized. -/
lemma decodeDrainSpec_fill (d : DrainSpec)
    (h : 0 ≤ d.timeoutSecond ∧ d.timeoutSecond ≤ 2 ^ 31 - 1) :
    decodeDrainSpec (fillProps drainProps d.fields) = some d.normalize := by
  obtain ⟨hforce, hsel, htime, hdel, hfil⟩ := drain_filled d
  have hrange : 0 ≤ (if d.timeoutSecond = 0 then 300 else d.timeoutSecond) ∧
      (if d.timeoutSecond = 0 then 300 else d.timeoutSecond) ≤ 2 ^ 31 - 1 := by
    split <;> omega
  simp only [decodeDrainSpec, hforce, hsel, htime, hdel, hfil, decodeBool, decodeString_omitted,
    decodeInt32_of_range hrange, decodeSlice_omitted decodeFilter_fill]
  rfl

/-- A pod-completion spec comes back as it was: its timeout default is zero. -/
lemma decodeWaitSpec_fill (w : WaitForPodCompletionSpec)
    (h : 0 ≤ w.timeoutSecond ∧ w.timeoutSecond ≤ 2 ^ 31 - 1) :
    decodeWaitSpec (fillProps waitProps w.fields) = some w := by
  obtain ⟨hsel, htime⟩ := wait_filled w
  simp only [decodeWaitSpec, hsel, htime, decodeString_omitted, decodeInt32_of_range h]
  rfl

/-- A spec comes back normalized. -/
theorem decode_fill_encode (s : NodeMaintenanceSpec) (wf : s.WellFormed) :
    decodeSpec (specSchema.fill (encodeSpec s)) = some s.normalize := by
  obtain ⟨hreq, hadd, hnode, hcor, hwait, hdrain⟩ := spec_filled s
  have ewait : decodePtr decodeWaitSpec (s.waitForPodCompletion.map fun w =>
      .obj (fillProps waitProps w.fields)) = some s.waitForPodCompletion := by
    cases e : s.waitForPodCompletion with
    | none => rfl
    | some w => simp [decodePtr, decodeWaitSpec_fill w (wf.waitTimeout w e)]
  have edrain : decodePtr decodeDrainSpec (s.drainSpec.map fun d =>
      .obj (fillProps drainProps d.fields)) = some (s.drainSpec.map DrainSpec.normalize) := by
    cases e : s.drainSpec with
    | none => rfl
    | some d => simp [decodePtr, decodeDrainSpec_fill d (wf.drainTimeout d e)]
  simp only [encodeSpec, specSchema, fill_object, decodeSpec, hreq, hadd, hnode, hcor, hwait, hdrain,
    decodeString, decodeBool, ewait, edrain, decodeSlice_omitted decodeItemString_str]
  rfl

end Decoding

section Validation

lemma valid_omitted_string (s : String) (v : Json)
    (h : (if s = "" then none else some (.str s)) = some v) : anyString.valid v = true := by
  split at h
  · cases h
  · cases h
    rfl

lemma valid_filters (l : List PodEvictionFiterEntry) (v : Json)
    (h : (if l.isEmpty then none
      else some (.arr (l.map fun e => .obj (fillProps filterProps e.fields)))) = some v) :
    (Schema.array (.object filterProps)).valid v = true := by
  split at h
  · cases h
  · cases h
    simp only [valid_array, List.all_map, List.all_eq_true, Function.comp_apply, valid_object]
    intro e _
    rw [validProps_iff]
    simp only [filterProps, List.forall_mem_singleton]
    refine ⟨fun _ => rfl, fun v hv => ?_⟩
    have hf := filter_filled e
    rw [filterProps] at hf
    rw [hf] at hv
    obtain ⟨r, -, rfl⟩ := Option.map_eq_some_iff.mp hv
    rfl

lemma valid_nonNegInt32 (n : Int) :
    nonNegInt32.valid (.int n) = true ↔ 0 ≤ n ∧ n ≤ 2 ^ 31 - 1 := by
  simp [nonNegInt32]

/-- The server accepts an encoded drain spec when its timeout is in range. -/
lemma valid_drain (d : DrainSpec) :
    validProps drainProps (fillProps drainProps d.fields) = true ↔
      0 ≤ d.timeoutSecond ∧ d.timeoutSecond ≤ 2 ^ 31 - 1 := by
  obtain ⟨hforce, hsel, htime, hdel, hfil⟩ := drain_filled d
  rw [validProps_iff]
  constructor
  · intro h
    have ht := (h _ (.tail _ (.tail _ (.tail _ (.tail _ (.head _)))))).2 _ htime
    rw [valid_nonNegInt32] at ht
    split at ht <;> omega
  · intro h p hp
    simp only [drainProps, List.mem_cons, List.not_mem_nil, or_false] at hp
    rcases hp with rfl | rfl | rfl | rfl | rfl
    · rw [hdel]
      exact ⟨fun _ => rfl, fun v hv => by cases hv; rfl⟩
    · rw [hforce]
      exact ⟨fun _ => rfl, fun v hv => by cases hv; rfl⟩
    · rw [hfil]
      exact ⟨fun _ => rfl, valid_filters _⟩
    · rw [hsel]
      exact ⟨fun _ => rfl, valid_omitted_string _⟩
    · rw [htime]
      refine ⟨fun _ => rfl, fun v hv => ?_⟩
      cases hv
      rw [valid_nonNegInt32]
      split <;> omega

/-- The server accepts an encoded pod-completion spec when its timeout is in range. -/
lemma valid_wait (w : WaitForPodCompletionSpec) :
    validProps waitProps (fillProps waitProps w.fields) = true ↔
      0 ≤ w.timeoutSecond ∧ w.timeoutSecond ≤ 2 ^ 31 - 1 := by
  obtain ⟨hsel, htime⟩ := wait_filled w
  rw [validProps_iff]
  constructor
  · intro h
    exact (valid_nonNegInt32 _).mp ((h _ (.tail _ (.head _))).2 _ htime)
  · intro h p hp
    simp only [waitProps, List.mem_cons, List.not_mem_nil, or_false] at hp
    rcases hp with rfl | rfl
    · rw [hsel]
      exact ⟨fun _ => rfl, valid_omitted_string _⟩
    · rw [htime]
      refine ⟨fun _ => rfl, fun v hv => ?_⟩
      cases hv
      exact (valid_nonNegInt32 _).mpr h

/-- The server accepts an encoded spec exactly when it is within the bounds of the CRD. -/
theorem valid_fill_encode (s : NodeMaintenanceSpec) :
    specSchema.valid (specSchema.fill (encodeSpec s)) = true ↔ s.WellFormed := by
  obtain ⟨hreq, hadd, hnode, hcor, hwait, hdrain⟩ := spec_filled s
  simp only [encodeSpec, specSchema, fill_object, valid_object]
  rw [validProps_iff]
  constructor
  · intro h
    refine ⟨?_, ?_, fun w e => ?_, fun d e => ?_⟩
    · exact (h _ (.tail _ (.tail _ (.tail _ (.tail _ (.head _)))))).2 _ hreq
    · cases e : s.additionalRequestors with
      | nil => exact List.nodup_nil
      | cons a l =>
        rw [e] at hadd
        have hset : stringSet.valid (.arr ((a :: l).map .str)) = true := (h _ (.head _)).2 _ hadd
        rw [valid_stringSet, strings_map_str] at hset
        simpa using hset
    · rw [e] at hwait
      exact (valid_wait w).mp
        ((h _ (.tail _ (.tail _ (.tail _ (.tail _ (.tail _ (.head _))))))).2 _ hwait)
    · rw [e] at hdrain
      exact (valid_drain d).mp ((h _ (.tail _ (.tail _ (.head _)))).2 _ hdrain)
  · intro wf p hp
    simp only [specProps, List.mem_cons, List.not_mem_nil, or_false] at hp
    rcases hp with rfl | rfl | rfl | rfl | rfl | rfl
    · rw [hadd]
      refine ⟨fun _ => rfl, fun v hv => ?_⟩
      split at hv
      · cases hv
      · cases hv
        simpa using wf.additionalRequestors
    · rw [hcor]
      exact ⟨fun _ => rfl, fun v hv => by cases hv; rfl⟩
    · rw [hdrain]
      refine ⟨fun _ => rfl, fun v hv => ?_⟩
      obtain ⟨d, e, rfl⟩ := Option.map_eq_some_iff.mp hv
      exact (valid_drain d).mpr (wf.drainTimeout d e)
    · rw [hnode]
      exact ⟨fun hv => (Option.some_ne_none _ hv).elim, fun v hv => by cases hv; rfl⟩
    · rw [hreq]
      refine ⟨fun hv => (Option.some_ne_none _ hv).elim, fun v hv => ?_⟩
      cases hv
      exact wf.requestorID
    · rw [hwait]
      refine ⟨fun _ => rfl, fun v hv => ?_⟩
      obtain ⟨w, e, rfl⟩ := Option.map_eq_some_iff.mp hv
      exact (valid_wait w).mpr (wf.waitTimeout w e)

end Validation

section Admitted
variable {f : GoMap Json} {k : String}

/-- A valid `int32` field decodes to a value in range. -/
lemma int32_of_decode {n : Int} (hv : ∀ v, GoMap.get? f k = some v → nonNegInt32.valid v = true)
    (hd : decodeInt32 (GoMap.get? f k) = some n) : 0 ≤ n ∧ n ≤ 2 ^ 31 - 1 := by
  cases e : GoMap.get? f k with
  | none =>
    rw [e] at hd
    simp only [decodeInt32, Option.some.injEq] at hd
    omega
  | some v =>
    obtain ⟨m, rfl, hm⟩ := integer_of_valid (hv v e)
    rw [e, decodeInt32_of_range hm] at hd
    obtain rfl := Option.some.inj hd
    exact hm

/-- A valid required `string` field decodes to an accepted string. -/
lemma accepted_of_decode {accept : String → Bool} {s : String}
    (hp : GoMap.get? f k ≠ none)
    (hv : ∀ v, GoMap.get? f k = some v → (Schema.string accept).valid v = true)
    (hd : decodeString (GoMap.get? f k) = some s) : accept s = true := by
  cases e : GoMap.get? f k with
  | none => exact (hp e).elim
  | some v =>
    obtain ⟨r, rfl, hr⟩ := string_of_valid (hv v e)
    rw [e] at hd
    obtain rfl := Option.some.inj hd
    exact hr

/-- A valid set of strings decodes to a list without duplicates. -/
lemma nodup_of_decode {ss : List String}
    (hv : ∀ v, GoMap.get? f k = some v → Schema.stringSet.valid v = true)
    (hd : decodeSlice decodeItemString (GoMap.get? f k) = some ss) : ss.Nodup := by
  cases e : GoMap.get? f k with
  | none =>
    rw [e] at hd
    obtain rfl := Option.some.inj hd
    exact List.nodup_nil
  | some v =>
    have hv' := hv v e
    rw [e] at hd
    cases v with
    | arr l =>
      simp only [valid_stringSet, Option.any_eq_true, decide_eq_true_eq] at hv'
      obtain ⟨ss', hs, nd⟩ := hv'
      rw [map_str_of_strings hs] at hd
      obtain rfl := Option.some.inj ((mapM_of_decodes decodeItemString_str ss').symm.trans hd)
      exact nd
    | _ => cases hv'

/-- A pointer field that decodes to a struct was a valid object. -/
lemma object_of_decode {α : Type} {dec : GoMap Json → Option α} {a : α}
    {props : List (String × PropInfo × Schema)}
    (hv : ∀ v, GoMap.get? f k = some v → (Schema.object props).valid v = true)
    (hd : decodePtr dec (GoMap.get? f k) = some (some a)) :
    ∃ g, validProps props g = true ∧ dec g = some a := by
  cases e : GoMap.get? f k with
  | none =>
    rw [e] at hd
    cases hd
  | some v =>
    obtain ⟨g, rfl, hg⟩ := object_of_valid (hv v e)
    simp only [e, decodePtr, Option.map_eq_some_iff, Option.some.injEq, exists_eq_right] at hd
    exact ⟨g, hg, hd⟩

lemma timeout_of_decodeWaitSpec {w : WaitForPodCompletionSpec} (hv : validProps waitProps f = true)
    (hd : decodeWaitSpec f = some w) : 0 ≤ w.timeoutSecond ∧ w.timeoutSecond ≤ 2 ^ 31 - 1 := by
  rw [validProps_iff] at hv
  simp only [decodeWaitSpec, bind, Option.bind_eq_some_iff] at hd
  obtain ⟨sel, -, t, ht, e⟩ := hd
  obtain rfl := Option.some.inj e
  exact int32_of_decode (hv _ (.tail _ (.head _))).2 ht

lemma timeout_of_decodeDrainSpec {d : DrainSpec} (hv : validProps drainProps f = true)
    (hd : decodeDrainSpec f = some d) : 0 ≤ d.timeoutSecond ∧ d.timeoutSecond ≤ 2 ^ 31 - 1 := by
  rw [validProps_iff] at hv
  simp only [decodeDrainSpec, bind, Option.bind_eq_some_iff] at hd
  obtain ⟨force, -, sel, -, t, ht, del, -, fil, -, e⟩ := hd
  obtain rfl := Option.some.inj e
  exact int32_of_decode (hv _ (.tail _ (.tail _ (.tail _ (.tail _ (.head _)))))).2 ht

/-- Whatever the CRD admits is within its bounds, as a Go value. -/
theorem wellFormed_of_admitted {s : NodeMaintenanceSpec} (h : CrdAdmits s) : s.WellFormed := by
  obtain ⟨j, hv, hd⟩ := h
  obtain ⟨f, hf, hv⟩ := object_of_valid hv
  rw [validProps_iff] at hv
  simp only [hf, decodeSpec, bind, Option.bind_eq_some_iff] at hd
  obtain ⟨req, hreq, add, hadd, node, -, cor, -, wait, hwait, drain, hdrain, e⟩ := hd
  obtain rfl := Option.some.inj e
  refine ⟨?_, ?_, fun w hw => ?_, fun d hd => ?_⟩
  · obtain ⟨hpres, hval⟩ := hv ("requestorID", requiredProp, .string requestorIDAccepts)
      (.tail _ (.tail _ (.tail _ (.tail _ (.head _)))))
    refine accepted_of_decode (fun hnone => ?_) hval hreq
    cases hpres hnone
  · exact nodup_of_decode (hv _ (.head _)).2 hadd
  · subst hw
    obtain ⟨g, hg, hw⟩ := object_of_decode
      (hv _ (.tail _ (.tail _ (.tail _ (.tail _ (.tail _ (.head _))))))).2 hwait
    exact timeout_of_decodeWaitSpec hg hw
  · subst hd
    obtain ⟨g, hg, hd⟩ := object_of_decode (hv _ (.tail _ (.tail _ (.head _)))).2 hdrain
    exact timeout_of_decodeDrainSpec hg hd

end Admitted

/-- What a `PUT` stores is the normalized spec. -/
theorem putSpec_eq {s s' : NodeMaintenanceSpec} (h : putSpec s = some s') : s' = s.normalize := by
  simp only [putSpec] at h
  split at h
  · rename_i hv
    rw [decode_fill_encode s ((valid_fill_encode s).mp hv)] at h
    exact (Option.some.inj h).symm
  · cases h

/-- A `PUT` of an admitted spec is accepted, and stores it normalized. -/
theorem putSpec_of_admitted {s : NodeMaintenanceSpec} (h : CrdAdmits s) :
    putSpec s = some s.normalize := by
  have wf := wellFormed_of_admitted h
  simp only [putSpec]
  rw [if_pos ((valid_fill_encode s).mpr wf), decode_fill_encode s wf]

/-- The specs that survive: cordoning is on, and no drain asks for an infinite timeout. -/
theorem normalize_eq_iff (s : NodeMaintenanceSpec) :
    s.normalize = s ↔ s.cordon = true ∧ ∀ d, s.drainSpec = some d → d.timeoutSecond ≠ 0 := by
  obtain ⟨req, add, node, cordon, wait, drain⟩ := s
  cases drain with
  | none =>
    simp only [NodeMaintenanceSpec.normalize, Option.map_none]
    constructor
    · intro e
      simp only [NodeMaintenanceSpec.mk.injEq, and_true, true_and] at e
      exact ⟨e.symm, nofun⟩
    · rintro ⟨rfl, -⟩
      rfl
  | some d =>
    obtain ⟨force, sel, t, del, fil⟩ := d
    simp only [NodeMaintenanceSpec.normalize, Option.map_some, DrainSpec.normalize]
    constructor
    · intro e
      simp only [NodeMaintenanceSpec.mk.injEq, Option.some.injEq, DrainSpec.mk.injEq, and_true,
        true_and] at e
      obtain ⟨hc, ht⟩ := e
      refine ⟨hc.symm, ?_⟩
      rintro _ ⟨rfl⟩
      rintro rfl
      simp at ht
    · rintro ⟨rfl, ht⟩
      rw [if_neg (ht _ rfl)]

end MaintenanceOperator
