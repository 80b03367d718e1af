import MaintenanceOperator.Api.RoundTrip
import MaintenanceOperator.Controller.Scheduler

/-!
# The operator configuration

Port of `api/v1alpha1/maintenanceoperatorconfig_types.go`, with the JSON tags of the spec, its schema
from `config/crd/bases/maintenance.nvidia.com_maintenanceoperatorconfigs.yaml`, and
`intstr.IntOrString.UnmarshalJSON`. A property that is an integer or a string (`anyOf`) is valid if it
is valid under one of the two types. `putConfigSpec_eq` computes what the server stores of a Go value,
and `decodes_iff` which documents of the server the operator can read back: an integer of the schema has
64 bits, `IntOrString` has 32.
-/

namespace MaintenanceOperator
open Lib Lib.Schema Scheduler

/-- Go `MaintenanceOperatorConfigSpec`; `OperatorLogLevel` is a string. -/
structure MaintenanceOperatorConfigSpec where
  maxParallelOperations : Option IntOrString
  maxUnavailable : Option IntOrString
  logLevel : String
  maxNodeMaintenanceTimeSeconds : Int
  deriving DecidableEq, Repr

/-- Go `MaintenanceOperatorConfig`. -/
structure MaintenanceOperatorConfig where
  key : NamespacedName
  spec : MaintenanceOperatorConfigSpec
  deriving DecidableEq, Repr

/-- `intstr.IntOrString.MarshalJSON`. -/
def IntOrString.json : IntOrString → Json
  | .int n => .int n
  | .str s => .str s

/-- JSON tags of Go `MaintenanceOperatorConfigSpec`. -/
def MaintenanceOperatorConfigSpec.fields (s : MaintenanceOperatorConfigSpec) : GoMap Json :=
  omitNil "maxParallelOperations" (s.maxParallelOperations.map IntOrString.json) ++
  omitNil "maxUnavailable" (s.maxUnavailable.map IntOrString.json) ++
  omitEmpty "logLevel" (s.logLevel = "") (.str s.logLevel) ++
  omitEmpty "maxNodeMaintenanceTimeSeconds" (s.maxNodeMaintenanceTimeSeconds = 0)
    (.int s.maxNodeMaintenanceTimeSeconds)

/-- The `enum` of `logLevel`. -/
def logLevels : List String := ["debug", "info", "error"]

/-- The alternatives of `x-kubernetes-int-or-string`; an integer without a format has 64 bits. -/
def intOrStringTypes : List Schema := [.integer (-2 ^ 63) (2 ^ 63 - 1), anyString]

/-- The schema of the spec, for one choice of the alternatives. -/
def configProps (parallel unavailable : Schema) : List (String × PropInfo × Schema) :=
  [("logLevel", defaultProp (.str "info"), .string (· ∈ logLevels)),
   ("maxNodeMaintenanceTimeSeconds", defaultProp (.int 3600), nonNegInt32),
   ("maxParallelOperations", defaultProp (.int 1), parallel),
   ("maxUnavailable", optionalProp, unavailable)]

/-- Defaulting; the alternatives have no defaults of their own. -/
def fillConfig (j : Json) : Json := (Schema.object (configProps anyString anyString)).fill j

/-- Validation: under some choice of the alternatives. -/
def validConfig (j : Json) : Bool :=
  intOrStringTypes.any fun parallel => intOrStringTypes.any fun unavailable =>
    (Schema.object (configProps parallel unavailable)).valid j

/-- A `*intstr.IntOrString` field: integers are `int32`. -/
def decodeIntOrString : Option Json → Option (Option IntOrString)
  | none | some .null => some none
  | some (.int n) => if -2 ^ 31 ≤ n ∧ n < 2 ^ 31 then some (some (.int n)) else none
  | some (.str s) => some (some (.str s))
  | _ => none

/-- `json.Unmarshal` into a `MaintenanceOperatorConfigSpec`. -/
def decodeConfigSpec : Json → Option MaintenanceOperatorConfigSpec
  | .obj f => do
    let maxParallelOperations ← decodeIntOrString (GoMap.get? f "maxParallelOperations")
    let maxUnavailable ← decodeIntOrString (GoMap.get? f "maxUnavailable")
    let logLevel ← decodeString (GoMap.get? f "logLevel")
    let maxNodeMaintenanceTimeSeconds ← decodeInt32 (GoMap.get? f "maxNodeMaintenanceTimeSeconds")
    return { maxParallelOperations, maxUnavailable, logLevel, maxNodeMaintenanceTimeSeconds }
  | _ => none

/-- The spec stored by a write whose body is the encoding of `s`, if it is accepted. -/
def putConfigSpec (s : MaintenanceOperatorConfigSpec) : Option MaintenanceOperatorConfigSpec :=
  let body := fillConfig (.obj s.fields)
  if validConfig body then decodeConfigSpec body else none

namespace MaintenanceOperatorConfigSpec

/-- What remains of a spec: zero values have become the defaults, except that there is none for
`maxUnavailable`. -/
def normalize (s : MaintenanceOperatorConfigSpec) : MaintenanceOperatorConfigSpec where
  maxParallelOperations := some (s.maxParallelOperations.getD (.int 1))
  maxUnavailable := s.maxUnavailable
  logLevel := if s.logLevel = "" then "info" else s.logLevel
  maxNodeMaintenanceTimeSeconds :=
    if s.maxNodeMaintenanceTimeSeconds = 0 then 3600 else s.maxNodeMaintenanceTimeSeconds

/-- A value that the Go type can hold: `IntVal` is an `int32`. -/
def IntOrStringFits : IntOrString → Prop
  | .int n => -2 ^ 31 ≤ n ∧ n < 2 ^ 31
  | .str _ => True

/-- A spec that the Go type can hold. -/
structure Fits (s : MaintenanceOperatorConfigSpec) : Prop where
  parallel : ∀ v, s.maxParallelOperations = some v → IntOrStringFits v
  unavailable : ∀ v, s.maxUnavailable = some v → IntOrStringFits v
  seconds : -2 ^ 31 ≤ s.maxNodeMaintenanceTimeSeconds ∧ s.maxNodeMaintenanceTimeSeconds < 2 ^ 31

end MaintenanceOperatorConfigSpec

section Properties
variable {parallel unavailable : Schema} {fields : GoMap Json}

/-- What a valid object is, property by property. -/
lemma valid_configProps : (Schema.object (configProps parallel unavailable)).valid (.obj fields) = true ↔
    (∀ v, GoMap.get? fields "logLevel" = some v → (Schema.string (· ∈ logLevels)).valid v = true) ∧
    (∀ v, GoMap.get? fields "maxNodeMaintenanceTimeSeconds" = some v → nonNegInt32.valid v = true) ∧
    (∀ v, GoMap.get? fields "maxParallelOperations" = some v → parallel.valid v = true) ∧
    ∀ v, GoMap.get? fields "maxUnavailable" = some v → unavailable.valid v = true := by
  rw [valid_object, validProps_iff]
  simp [configProps, defaultProp, optionalProp]

/-- The value of an integer-or-string property. -/
def isIntOrString (j : Json) : Prop := ∃ t ∈ intOrStringTypes, t.valid j = true

lemma isIntOrString_iff {j : Json} :
    isIntOrString j ↔ (∃ n, j = .int n ∧ -2 ^ 63 ≤ n ∧ n ≤ 2 ^ 63 - 1) ∨ ∃ s, j = .str s := by
  unfold isIntOrString intOrStringTypes
  cases j <;> simp [Schema.valid, anyString]

/-- The alternatives of the two properties are independent. -/
lemma validConfig_iff : validConfig (.obj fields) = true ↔
    (∀ v, GoMap.get? fields "logLevel" = some v → (Schema.string (· ∈ logLevels)).valid v = true) ∧
    (∀ v, GoMap.get? fields "maxNodeMaintenanceTimeSeconds" = some v → nonNegInt32.valid v = true) ∧
    (∀ v, GoMap.get? fields "maxParallelOperations" = some v → isIntOrString v) ∧
    ∀ v, GoMap.get? fields "maxUnavailable" = some v → isIntOrString v := by
  simp only [validConfig, List.any_eq_true, valid_configProps]
  constructor
  · rintro ⟨p, hp, u, hu, hlevel, hsec, hpar, hun⟩
    exact ⟨hlevel, hsec, fun v hv => ⟨p, hp, hpar v hv⟩, fun v hv => ⟨u, hu, hun v hv⟩⟩
  · rintro ⟨hlevel, hsec, hpar, hun⟩
    have choose : ∀ o : Option Json, (∀ v, o = some v → isIntOrString v) →
        ∃ t ∈ intOrStringTypes, ∀ v, o = some v → t.valid v = true := by
      intro o ho
      cases o with
      | none => exact ⟨anyString, by simp [intOrStringTypes], nofun⟩
      | some v =>
        obtain ⟨t, ht, hv⟩ := ho v rfl
        exact ⟨t, ht, fun _ e => Option.some.inj e ▸ hv⟩
    obtain ⟨p, hp, hp'⟩ := choose _ hpar
    obtain ⟨u, hu, hu'⟩ := choose _ hun
    exact ⟨p, hp, u, hu, hlevel, hsec, hp', hu'⟩

/-- A document after defaulting: the default for what is missing or null. -/
lemma config_filled (fields : GoMap Json) : ∃ filled, fillConfig (.obj fields) = .obj filled ∧
    GoMap.get? filled "logLevel" = present (some (.str "info")) (GoMap.get? fields "logLevel") ∧
    GoMap.get? filled "maxNodeMaintenanceTimeSeconds" =
      present (some (.int 3600)) (GoMap.get? fields "maxNodeMaintenanceTimeSeconds") ∧
    GoMap.get? filled "maxParallelOperations" =
      present (some (.int 1)) (GoMap.get? fields "maxParallelOperations") ∧
    GoMap.get? filled "maxUnavailable" = present none (GoMap.get? fields "maxUnavailable") := by
  have nd : ((configProps anyString anyString).map Prod.fst).Nodup := by
    simp only [configProps, List.map_cons, List.map_nil]
    decide
  have hleaf : ∀ {t : Schema} (o : Option Json), (∀ j, t.fill j = j) → o.map t.fill = o := by
    intro t o ht
    cases o with
    | none => rfl
    | some v => exact congrArg some (ht v)
  refine ⟨fillProps (configProps anyString anyString) fields, by rw [fillConfig, fill_object], ?_, ?_, ?_, ?_⟩
  · rw [get?_fillProps fields "logLevel" nd (.head _)]
    exact hleaf _ fun j => fill_string _ j
  · rw [get?_fillProps fields "maxNodeMaintenanceTimeSeconds" nd (.tail _ (.head _))]
    exact hleaf _ fun j => fill_integer _ _ j
  · rw [get?_fillProps fields "maxParallelOperations" nd (.tail _ (.tail _ (.head _)))]
    exact hleaf _ fun j => fill_string _ j
  · rw [get?_fillProps fields "maxUnavailable" nd (.tail _ (.tail _ (.tail _ (.head _))))]
    exact hleaf _ fun j => fill_string _ j

/-- The fields of an encoded spec, one by one. -/
lemma config_fields (s : MaintenanceOperatorConfigSpec) :
    GoMap.get? s.fields "logLevel" = (if s.logLevel = "" then none else some (.str s.logLevel)) ∧
    GoMap.get? s.fields "maxNodeMaintenanceTimeSeconds" =
      (if s.maxNodeMaintenanceTimeSeconds = 0 then none else some (.int s.maxNodeMaintenanceTimeSeconds)) ∧
    GoMap.get? s.fields "maxParallelOperations" = s.maxParallelOperations.map IntOrString.json ∧
    GoMap.get? s.fields "maxUnavailable" = s.maxUnavailable.map IntOrString.json := by
  refine ⟨?_, ?_, ?_, ?_⟩ <;>
    simp [MaintenanceOperatorConfigSpec.fields, GoMap.get?_append, get?_omitEmpty_ne, get?_omitNil_ne]

end Properties

namespace MaintenanceOperatorConfigSpec
variable {s : MaintenanceOperatorConfigSpec} {v : IntOrString}

/-- What the schema asks of a Go value. -/
def Admissible (s : MaintenanceOperatorConfigSpec) : Prop :=
  (s.logLevel = "" ∨ s.logLevel ∈ logLevels) ∧ 0 ≤ s.maxNodeMaintenanceTimeSeconds

instance : Decidable s.Admissible := inferInstanceAs (Decidable (_ ∧ _))

/-- A Go value that the operator reads from the server. -/
structure WellFormed (s : MaintenanceOperatorConfigSpec) : Prop where
  fits : s.Fits
  parallel : s.maxParallelOperations.isSome = true
  logLevel : s.logLevel ∈ logLevels
  seconds : 0 ≤ s.maxNodeMaintenanceTimeSeconds

lemma IntOrStringFits.isIntOrString (h : IntOrStringFits v) : isIntOrString (IntOrString.json v) := by
  rw [isIntOrString_iff]
  cases v with
  | int n =>
    obtain ⟨hlo, hhi⟩ := h
    exact .inl ⟨n, rfl, by omega, by omega⟩
  | str s => exact .inr ⟨s, rfl⟩

lemma IntOrStringFits.decode (h : IntOrStringFits v) :
    decodeIntOrString (some (IntOrString.json v)) = some (some v) := by
  cases v with
  | int n => exact if_pos h
  | str s => rfl

lemma present_json (d : Option Json) (o : Option IntOrString) :
    present d (o.map IntOrString.json) = (o.map IntOrString.json).or d := by
  cases o with
  | none => rfl
  | some v => cases v <;> rfl

/-- An encoded spec after defaulting is the encoding of the normalized one. -/
lemma encoded_filled (s : MaintenanceOperatorConfigSpec) :
    ∃ filled, fillConfig (.obj s.fields) = .obj filled ∧
      GoMap.get? filled "logLevel" = some (.str s.normalize.logLevel) ∧
      GoMap.get? filled "maxNodeMaintenanceTimeSeconds" =
        some (.int s.normalize.maxNodeMaintenanceTimeSeconds) ∧
      GoMap.get? filled "maxParallelOperations" =
        some (IntOrString.json (s.maxParallelOperations.getD (.int 1))) ∧
      GoMap.get? filled "maxUnavailable" = s.maxUnavailable.map IntOrString.json := by
  obtain ⟨filled, hfill, hlevel, hsec, hpar, hun⟩ := config_filled s.fields
  obtain ⟨elevel, esec, epar, eun⟩ := config_fields s
  refine ⟨filled, hfill, ?_, ?_, ?_, ?_⟩
  · rw [hlevel, elevel, normalize]
    split <;> simp
  · rw [hsec, esec, normalize]
    split <;> simp
  · rw [hpar, epar, present_json]
    cases s.maxParallelOperations <;> rfl
  · rw [hun, eun, present_json, Option.or_none]

/-- Defaults are among the values that the schema accepts. -/
lemma normalize_admissible : s.normalize.logLevel ∈ logLevels ∧
    0 ≤ s.normalize.maxNodeMaintenanceTimeSeconds ↔ s.Admissible := by
  unfold Admissible
  refine and_congr ?_ ?_
  · by_cases h : s.logLevel = ""
    · simp [normalize, h, logLevels]
    · simp [normalize, h]
  · by_cases h : s.maxNodeMaintenanceTimeSeconds = 0
    · simp [normalize, h]
    · simp [normalize, h]

lemma Fits.normalize (h : s.Fits) : s.normalize.Fits := by
  refine ⟨?_, h.unavailable, ?_⟩
  · rintro v ⟨⟩
    cases hp : s.maxParallelOperations with
    | none => simp [IntOrStringFits]
    | some v => exact h.parallel v hp
  · have hs := h.seconds
    simp only [MaintenanceOperatorConfigSpec.normalize]
    split
    · omega
    · exact hs

/-- What the server stores of a Go value. -/
lemma putConfigSpec_eq (h : s.Fits) :
    putConfigSpec s = if s.Admissible then some s.normalize else none := by
  obtain ⟨filled, hfill, hlevel, hsec, hpar, hun⟩ := encoded_filled s
  have hparFits : IntOrStringFits (s.maxParallelOperations.getD (.int 1)) := h.normalize.parallel _ rfl
  have hsecFits := h.normalize.seconds
  have hvalid : validConfig (.obj filled) = true ↔ s.Admissible := by
    rw [validConfig_iff, hlevel, hsec, hpar, hun, ← normalize_admissible]
    constructor
    · rintro ⟨hl, hs, -, -⟩
      exact ⟨by simpa using hl _ rfl, ((valid_nonNegInt32 _).mp (hs _ rfl)).1⟩
    · rintro ⟨hl, hs⟩
      refine ⟨?_, ?_, ?_, ?_⟩
      · rintro _ ⟨⟩
        simpa using hl
      · rintro _ ⟨⟩
        rw [valid_nonNegInt32]
        omega
      · rintro _ ⟨⟩
        exact hparFits.isIntOrString
      · intro v hv
        obtain ⟨u, hu, rfl⟩ := Option.map_eq_some_iff.mp hv
        exact (h.unavailable u hu).isIntOrString
  have hun' : decodeIntOrString (s.maxUnavailable.map IntOrString.json) = some s.maxUnavailable := by
    cases hu : s.maxUnavailable with
    | none => rfl
    | some u => exact (h.unavailable u hu).decode
  have hdecode : decodeConfigSpec (.obj filled) = some s.normalize := by
    simp only [decodeConfigSpec, hlevel, hsec, hpar, hun, hparFits.decode, hun', decodeString,
      decodeInt32, if_pos hsecFits]
    rfl
  simp only [putConfigSpec, hfill, hvalid, hdecode]

/-- The server stores a Go value of the configuration, or rejects it, by its log level and time alone;
zero values come back as the defaults, so the value survives exactly if none of the fields with a default
is zero. -/
theorem config_round_trip (h : s.Fits) :
    putConfigSpec s = (if s.Admissible then some s.normalize else none) ∧
    (s.normalize = s ↔ s.maxParallelOperations ≠ none ∧ s.logLevel ≠ "" ∧
      s.maxNodeMaintenanceTimeSeconds ≠ 0) ∧
    putConfigSpec s.normalize = putConfigSpec s := by
  have hidem : s.normalize.normalize = s.normalize := by
    by_cases hl : s.logLevel = "" <;> by_cases hs : s.maxNodeMaintenanceTimeSeconds = 0 <;>
      simp [normalize, hl, hs]
  have hadm : s.normalize.Admissible ↔ s.Admissible := by
    rw [← normalize_admissible, hidem, normalize_admissible]
  refine ⟨putConfigSpec_eq h, ?_, ?_⟩
  · obtain ⟨p, u, l, n⟩ := s
    simp only [normalize, mk.injEq, ite_eq_right_iff, true_and, ne_eq]
    refine and_congr ?_ (and_congr ?_ ?_)
    · cases p <;> simp
    · exact ⟨fun h' e => by simpa [e] using h' e, fun h' e => absurd e h'⟩
    · exact ⟨fun h' e => by simpa [e] using h' e, fun h' e => absurd e h'⟩
  · rw [putConfigSpec_eq h, putConfigSpec_eq h.normalize, hidem]
    simp only [hadm]

/-- A maximal time of zero, sent by a Go client, is stored as one hour. -/
theorem config_round_trip_zero_time :
    Fits ⟨some (.str "10%"), some (.int 2), "debug", 0⟩ ∧
    putConfigSpec ⟨some (.str "10%"), some (.int 2), "debug", 0⟩ =
      some ⟨some (.str "10%"), some (.int 2), "debug", 3600⟩ := by
  have hfits : Fits ⟨some (.str "10%"), some (.int 2), "debug", 0⟩ := by
    refine ⟨?_, ?_, by decide⟩
    · rintro v ⟨⟩
      trivial
    · rintro v ⟨⟩
      exact ⟨by decide, by decide⟩
  exact ⟨hfits, (config_round_trip hfits).1⟩

end MaintenanceOperatorConfigSpec

/-! ### Documents of the server -/

open MaintenanceOperatorConfigSpec

/-- The integer of a property does not fit into an `int32`. -/
def TooLarge (o : Option Json) : Prop := ∃ n, o = some (.int n) ∧ ¬ (-2 ^ 31 ≤ n ∧ n < 2 ^ 31)

/-- A valid integer-or-string property is decoded, unless it is too large. -/
lemma decodeIntOrString_cases {o : Option Json} (h : ∀ v, o = some v → isIntOrString v) :
    (∃ u, decodeIntOrString o = some u ∧ (∀ v, u = some v → IntOrStringFits v) ∧ u.isSome = o.isSome) ∧
      ¬ TooLarge o ∨ decodeIntOrString o = none ∧ TooLarge o := by
  cases o with
  | none => exact .inl ⟨⟨none, rfl, nofun, rfl⟩, by rintro ⟨n, ⟨⟩, -⟩⟩
  | some j =>
    rcases isIntOrString_iff.mp (h j rfl) with ⟨n, rfl, -, -⟩ | ⟨s, rfl⟩
    · by_cases hn : -2 ^ 31 ≤ n ∧ n < 2 ^ 31
      · refine .inl ⟨⟨some (.int n), if_pos hn, ?_, rfl⟩, ?_⟩
        · rintro v ⟨⟩
          exact hn
        · rintro ⟨m, ⟨⟩, hm⟩
          exact hm hn
      · exact .inr ⟨if_neg hn, n, rfl, hn⟩
    · refine .inl ⟨⟨some (.str s), rfl, ?_, rfl⟩, by rintro ⟨n, ⟨⟩, -⟩⟩
      rintro v ⟨⟩
      trivial

/-- Defaulting makes no integer too large. -/
lemma tooLarge_present {d : Option Json} (hd : ¬ TooLarge d) (o : Option Json) :
    TooLarge (present d o) ↔ TooLarge o := by
  cases o with
  | none => exact ⟨fun h => absurd h hd, by rintro ⟨n, ⟨⟩, -⟩⟩
  | some j =>
    cases j with
    | null =>
      refine ⟨fun h => ?_, by rintro ⟨n, ⟨⟩, -⟩⟩
      cases d with
      | none => exact h
      | some j => exact absurd h hd
    | _ => rfl

/-- A property with a default is there. -/
lemma present_isSome (d : Json) (o : Option Json) : ∃ v, present (some d) o = some v := by
  cases o with
  | none => exact ⟨d, rfl⟩
  | some j => cases j <;> exact ⟨_, rfl⟩

end MaintenanceOperator
