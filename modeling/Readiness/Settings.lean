import Readiness.Json.Value
import Readiness.Json.Writer
import Readiness.Json.Reader

/-! Settings of a host, read from JSON and written back. -/

namespace Readiness

/-- How a batch of listener calls is delivered. -/
structure DeliveryPolicy where
  /-- A batch for the ready status with more than one call waits for a later turn. -/
  deferReady : Bool := true
  /-- Of several calls the one registered first is made last. -/
  firstLast : Bool := true
  deriving DecidableEq, Inhabited

namespace DeliveryPolicy

/-- Calls in the order of their registration, and always at once. -/
def inOrder : DeliveryPolicy :=
  ⟨false, false⟩

/-- The names of the fields in their order. -/
def fieldNames : List String :=
  ["defer_ready_batches", "first_registered_last"]

/-- The policy as JSON. -/
def toJson (policy : DeliveryPolicy) : Json :=
  .object (fieldNames.zip [.bool policy.deferReady, .bool policy.firstLast])

/-- The inspection form of a policy. -/
def inspect (policy : DeliveryPolicy) : String :=
  recordText "DispatchPolicy"
    (fieldNames.zip [toString policy.deferReady, toString policy.firstLast])

end DeliveryPolicy

/-- What can be set for a host. -/
structure Settings where
  /-- How batches are delivered. -/
  dispatch : DeliveryPolicy := {}
  /-- What the ids of unregistered executables start with. -/
  temporaryPrefix : String := "__exe_"
  /-- Whether the times of transitions are recorded. -/
  timed : Bool := true
  deriving DecidableEq, Inhabited

/-- A field that is not given keeps its default, and one that is given must be of the right kind. -/
def fieldOr {α : Type} (read : Json → Option α) (default : α) : Option Json → Option α
  | none => some default
  | some value => read value

/-- A policy from an object or an array; what is not given keeps its default. -/
def DeliveryPolicy.ofJson? (value : Json) : Option DeliveryPolicy :=
  match value.fields? DeliveryPolicy.fieldNames with
  | some [deferReady, firstLast] => do
    let unset : DeliveryPolicy := {}
    let deferReady ← fieldOr Json.bool? unset.deferReady deferReady
    let firstLast ← fieldOr Json.bool? unset.firstLast firstLast
    return ⟨deferReady, firstLast⟩
  | _ => none

namespace Settings

/-- The names of the fields in their order. -/
def fieldNames : List String :=
  ["dispatch", "temp_id_prefix", "record_timing"]

/-- Settings from an object or an array; what is not given keeps its default. -/
def ofJson? (value : Json) : Option Settings :=
  match value.fields? fieldNames with
  | some [dispatch, temporaryPrefix, timed] => do
    let unset : Settings := {}
    let dispatch ← fieldOr DeliveryPolicy.ofJson? unset.dispatch dispatch
    let temporaryPrefix ← fieldOr Json.text? unset.temporaryPrefix temporaryPrefix
    let timed ← fieldOr Json.bool? unset.timed timed
    return ⟨dispatch, temporaryPrefix, timed⟩
  | _ => none

/-- Settings from the text of a JSON value. -/
def parse? (text : String) : Option Settings :=
  (Json.parse? text).bind ofJson?

/-- The settings as JSON. -/
def toJson (settings : Settings) : Json :=
  .object (fieldNames.zip
    [settings.dispatch.toJson, .string settings.temporaryPrefix, .bool settings.timed])

/-- The compact text of the settings. -/
def render (settings : Settings) : String :=
  settings.toJson.render

/-- The inspection form of settings. -/
def inspect (settings : Settings) : String :=
  recordText "EngineConfig"
    (fieldNames.zip
      [settings.dispatch.inspect, quotedText settings.temporaryPrefix,
        toString settings.timed])

end Settings

end Readiness
