import MaintenanceOperator.Lib.GoMap
import Mathlib.Data.List.Nodup

/-!
# JSON documents under a structural schema

The part of a structural schema that decides what an API server stores: types, bounds, required
properties and defaults. `Schema.fill` is defaulting (a property that is absent, or null, takes its
default, and defaulting then descends into the values that are present) and `Schema.valid` is
validation. `get?_fillProps` and `validProps_iff` reduce both to lookups of single properties, and
`present`, `fill` and `valid` have an equation for each type, so that a client never unfolds the
traversals.
-/

namespace MaintenanceOperator.Lib

/-- JSON values. -/
inductive Json where
  | null
  | bool (b : Bool)
  | int (n : Int)
  | str (s : String)
  | arr (items : List Json)
  | obj (fields : List (String × Json))

/-- Whether a property must be present, and what it is filled with when it is not. -/
structure PropInfo where
  required : Bool
  default : Option Json

/-- Structural schemas. -/
inductive Schema where
  | boolean
  | integer (minimum maximum : Int)
  | string (accepts : String → Bool)
  | array (items : Schema)
  | stringSet
  | object (properties : List (String × PropInfo × Schema))

namespace Schema

/-- The value a property has before defaulting descends into it. -/
def present (default : Option Json) : Option Json → Option Json
  | none => default
  | some .null => default.or (some .null)
  | some v => some v

section Present
variable (default : Option Json)

@[simp] lemma present_none : present default none = default := rfl

@[simp] lemma present_bool (b : Bool) : present default (some (.bool b)) = some (.bool b) := rfl

@[simp] lemma present_int (n : Int) : present default (some (.int n)) = some (.int n) := rfl

@[simp] lemma present_str (s : String) : present default (some (.str s)) = some (.str s) := rfl

@[simp] lemma present_arr (l : List Json) : present default (some (.arr l)) = some (.arr l) := rfl

@[simp] lemma present_obj (fields : List (String × Json)) :
    present default (some (.obj fields)) = some (.obj fields) := rfl

/-- Only what is absent or null can stay absent. -/
lemma eq_none_of_present {o : Option Json} (h : present default o = none) : o = none := by
  cases o with
  | none => rfl
  | some v =>
    cases v with
    | null => cases default <;> cases h
    | _ => cases h

end Present

mutual

/-- Defaulting. -/
def fill : Schema → Json → Json
  | .object props, .obj fields => .obj (fillProps props fields)
  | .array items, .arr l => .arr (l.map (fill items))
  | _, j => j

/-- Defaulting of the properties of one object. -/
def fillProps : List (String × PropInfo × Schema) → GoMap Json → GoMap Json
  | [], fields => fields
  | (k, info, schema) :: props, fields =>
    match present info.default (GoMap.get? fields k) with
    | none => fillProps props fields
    | some v => GoMap.set (fillProps props fields) k (fill schema v)

end

@[simp] lemma fill_boolean (j : Json) : fill .boolean j = j := rfl

@[simp] lemma fill_integer (lo hi : Int) (j : Json) : fill (.integer lo hi) j = j := rfl

@[simp] lemma fill_string (accepts : String → Bool) (j : Json) : fill (.string accepts) j = j := rfl

@[simp] lemma fill_stringSet (j : Json) : fill .stringSet j = j := rfl

@[simp] lemma fill_array (items : Schema) (l : List Json) :
    fill (.array items) (.arr l) = .arr (l.map (fill items)) := rfl

@[simp] lemma fill_object (props : List (String × PropInfo × Schema)) (fields : GoMap Json) :
    fill (.object props) (.obj fields) = .obj (fillProps props fields) := rfl

lemma fillProps_nil (fields : GoMap Json) : fillProps [] fields = fields := rfl

/-- One property: its value, if it has one after its default, with defaulting inside. -/
lemma fillProps_cons (k : String) (info : PropInfo) (schema : Schema)
    (props : List (String × PropInfo × Schema)) (fields : GoMap Json) :
    fillProps ((k, info, schema) :: props) fields =
      (present info.default (GoMap.get? fields k)).elim (fillProps props fields)
        fun v => GoMap.set (fillProps props fields) k (fill schema v) := by
  rw [fillProps]
  cases present info.default (GoMap.get? fields k) with
  | none => rfl
  | some v => rfl

/-- The strings of an array of strings. -/
def strings : List Json → Option (List String)
  | [] => some []
  | .str s :: l => (strings l).map (s :: ·)
  | _ :: _ => none

@[simp] lemma strings_str_cons (s : String) (l : List Json) :
    strings (.str s :: l) = (strings l).map (s :: ·) := rfl

mutual

/-- Validation. -/
def valid : Schema → Json → Bool
  | .boolean, .bool _ => true
  | .integer lo hi, .int n => lo ≤ n && n ≤ hi
  | .string accepts, .str s => accepts s
  | .array items, .arr l => l.all (valid items)
  | .stringSet, .arr l => (strings l).any (fun ss => decide ss.Nodup)
  | .object props, .obj fields => validProps props fields
  | _, _ => false

/-- Validation of the properties of one object. -/
def validProps : List (String × PropInfo × Schema) → GoMap Json → Bool
  | [], _ => true
  | (k, info, schema) :: props, fields =>
    (match GoMap.get? fields k with
      | none => !info.required
      | some v => valid schema v) && validProps props fields

end

@[simp] lemma valid_integer (lo hi n : Int) :
    valid (.integer lo hi) (.int n) = (decide (lo ≤ n) && decide (n ≤ hi)) := rfl

@[simp] lemma valid_string (accepts : String → Bool) (s : String) :
    valid (.string accepts) (.str s) = accepts s := rfl

@[simp] lemma valid_array (items : Schema) (l : List Json) :
    valid (.array items) (.arr l) = l.all (valid items) := rfl

@[simp] lemma valid_stringSet (l : List Json) :
    valid .stringSet (.arr l) = (strings l).any (fun ss => decide ss.Nodup) := rfl

@[simp] lemma valid_object (props : List (String × PropInfo × Schema)) (fields : GoMap Json) :
    valid (.object props) (.obj fields) = validProps props fields := rfl

section Typed
variable {j : Json}

/-- What is valid as an integer is an integer within the bounds. -/
lemma integer_of_valid {lo hi : Int} (h : valid (.integer lo hi) j = true) :
    ∃ n, j = .int n ∧ lo ≤ n ∧ n ≤ hi := by
  cases j with
  | int n => exact ⟨n, rfl, by simpa using h⟩
  | _ => cases h

/-- What is valid as a string is an accepted string. -/
lemma string_of_valid {accepts : String → Bool} (h : valid (.string accepts) j = true) :
    ∃ s, j = .str s ∧ accepts s = true := by
  cases j with
  | str s => exact ⟨s, rfl, h⟩
  | _ => cases h

/-- What is valid as an object is one with valid properties. -/
lemma object_of_valid {props : List (String × PropInfo × Schema)}
    (h : valid (.object props) j = true) :
    ∃ fields, j = .obj fields ∧ validProps props fields = true := by
  cases j with
  | obj fields => exact ⟨fields, rfl, h⟩
  | _ => cases h

end Typed

lemma get?_fillProps_of_notMem {props : List (String × PropInfo × Schema)} (fields : GoMap Json)
    {k : String} (h : k ∉ props.map Prod.fst) :
    GoMap.get? (fillProps props fields) k = GoMap.get? fields k := by
  induction props with
  | nil => rw [fillProps_nil]
  | cons p props ih =>
    obtain ⟨k', info, schema⟩ := p
    simp only [List.map_cons, List.mem_cons, not_or] at h
    rw [fillProps_cons]
    cases present info.default (GoMap.get? fields k') with
    | none => exact ih h.2
    | some v =>
      rw [Option.elim_some, GoMap.get?_set_ne _ h.1]
      exact ih h.2

/-- A property after defaulting: its own value, else its default, each with defaulting inside. -/
lemma get?_fillProps {props : List (String × PropInfo × Schema)} (fields : GoMap Json)
    (k : String) {info : PropInfo} {schema : Schema} (nd : (props.map Prod.fst).Nodup)
    (h : (k, info, schema) ∈ props) :
    GoMap.get? (fillProps props fields) k =
      (present info.default (GoMap.get? fields k)).map (fill schema) := by
  induction props with
  | nil => cases h
  | cons p props ih =>
    obtain ⟨k', info', schema'⟩ := p
    simp only [List.map_cons, List.nodup_cons] at nd
    rw [fillProps_cons]
    rcases List.mem_cons.mp h with e | h'
    · -- the property itself: later properties have other names
      obtain ⟨rfl, rfl, rfl⟩ : k = k' ∧ info = info' ∧ schema = schema' := by simpa using e
      have hrest := get?_fillProps_of_notMem fields nd.1
      cases e' : present info.default (GoMap.get? fields k) with
      | none =>
        rw [Option.elim_none, hrest]
        exact eq_none_of_present info.default e'
      | some v => simp
    · have ne : k ≠ k' := by
        rintro rfl
        exact nd.1 (List.mem_map.mpr ⟨_, h', rfl⟩)
      cases present info'.default (GoMap.get? fields k') with
      | none => exact ih nd.2 h'
      | some v =>
        rw [Option.elim_some, GoMap.get?_set_ne _ ne]
        exact ih nd.2 h'

/-- An object is valid when each property is: absent only if not required, else valid. -/
lemma validProps_iff {props : List (String × PropInfo × Schema)} {fields : GoMap Json} :
    validProps props fields = true ↔
      ∀ p ∈ props, (GoMap.get? fields p.1 = none → p.2.1.required = false) ∧
        ∀ v, GoMap.get? fields p.1 = some v → valid p.2.2 v = true := by
  induction props with
  | nil => simp [validProps]
  | cons p props ih =>
    obtain ⟨k, info, schema⟩ := p
    rw [validProps, Bool.and_eq_true, ih, List.forall_mem_cons]
    refine and_congr_left fun _ => ?_
    cases GoMap.get? fields k with
    | none => simp
    | some v => simp

@[simp] lemma strings_map_str (l : List String) : strings (l.map .str) = some l := by
  induction l with
  | nil => rfl
  | cons s l ih => simp [ih]

lemma map_str_of_strings {l : List Json} {ss : List String} (h : strings l = some ss) :
    l = ss.map .str := by
  induction l generalizing ss with
  | nil =>
    obtain rfl := Option.some.inj h
    rfl
  | cons j l ih =>
    cases j with
    | str s =>
      simp only [strings_str_cons, Option.map_eq_some_iff] at h
      obtain ⟨ss', h', rfl⟩ := h
      rw [ih h']
      rfl
    | _ => cases h

end Schema
end MaintenanceOperator.Lib
