import Startup.Basic
import Startup.Environ.Table
import Startup.Lib.Json

/-!
# Reading and writing the fields of the state (`init/state.h`, `init/state.c`)

The macros and functions that write a field of an object to JSON and read it
back.  A reader either refuses the value, as the functions of the source do by
returning `NULL` or a negative value, or an assertion of it fails.

The numbers of the source are written and read with the width of their type,
so that none of them is out of the range of its JSON number.
-/

namespace Startup

open Lib

/-- Why nothing is restored. -/
inductive Refusal where
  | refused
  | fault (f : Fault)
  deriving DecidableEq

/-- What a reader returns. -/
abbrev Restored (α : Type) := Except Refusal α

/-- The value is refused. -/
def notRestored {α : Type} : Restored α := .error .refused

/-- `nih_assert` of a reader. -/
abbrev restoreAssert (fn : SourceFn) (b : Bool) : Restored Unit :=
  check (.fault (.assertFailed fn)) b

/-- A check that makes a reader refuse the value. -/
abbrev restoreIf (b : Bool) : Restored Unit := check .refused b

/-! ## Writing -/

/-- `state_set_json_string_var`: `NULL` becomes the JSON `null`. -/
def stateSetJsonStringVar : Option String → Json
  | some s => .string s
  | none => .null

/-- The JSON number of a truth value. -/
def jsonBool (b : Bool) : Json := .int (if b then 1 else 0)

/-- `state_serialise_str_array`; an array that is `NULL` is written as an empty
one. -/
def stateSerialiseStrArray (array : List String) : Json := .array (array.map .string)

/-- `state_serialise_int_array`. -/
def stateSerialiseIntArray (array : List Int) : Json := .array (array.map .int)

/-! ## Reading -/

/-- `json_object_object_get_ex`, for a field that has to be there. -/
def getEx (json : Json) (name : String) : Restored Json :=
  match json.get? name with
  | some value => .ok value
  | none => notRestored

/-- The elements of a value that has to be an array. -/
def getItems (json : Json) : Restored (List Json) :=
  match json.items? with
  | some items => .ok items
  | none => notRestored

/-- `state_get_json_var_full` for an array. -/
def getArray (json : Json) (name : String) : Restored (List Json) := do
  let value ← getEx json name
  getItems value

/-- `state_get_json_int_var`. -/
def stateGetJsonIntVar (json : Json) (name : String) : Restored Int :=
  match json.get? name with
  | some (.int n) => .ok n
  | _ => notRestored

/-- `state_get_json_int_var` of a truth value. -/
def stateGetJsonBoolVar (json : Json) (name : String) : Restored Bool := do
  let n ← stateGetJsonIntVar json name
  .ok (decide (n ≠ 0))

/-- `state_get_json_string_var`. -/
def stateGetJsonStringVar (json : Json) (name : String) : Restored (Option String) :=
  match json.get? name with
  | some (.string s) => .ok (some s)
  | some .null => .ok none
  | _ => notRestored

/-- `state_get_json_string_var_strict`. -/
def stateGetJsonStringVarStrict (json : Json) (name : String) : Restored String := do
  match ← stateGetJsonStringVar json name with
  | some s => .ok s
  | none => notRestored

/-- `state_get_json_enum_var`. -/
def stateGetJsonEnumVar {α : Type} (strToEnum : String → Option α) (json : Json)
    (name : String) : Restored α := do
  let s ← stateGetJsonStringVarStrict json name
  match strToEnum s with
  | some a => .ok a
  | none => notRestored

/-- One element of a string array. -/
def getString : Json → Restored String
  | .string s => .ok s
  | _ => notRestored

/-- One element of an integer array. -/
def getInt : Json → Restored Int
  | .int n => .ok n
  | _ => notRestored

/-- `state_deserialise_str_array`; an empty array becomes `NULL`, which is the
empty list as well. -/
def stateDeserialiseStrArray (items : List Json) : Restored (List String) :=
  items.mapM getString

/-- `state_deserialise_int_array`. -/
def stateDeserialiseIntArray (items : List Json) : Restored (List Int) :=
  items.mapM getInt

/-- `state_deserialise_env_array`: `environ_add` for every element. -/
def stateDeserialiseEnvArray (x : Host) (items : List Json) : Restored (List String) := do
  let strings ← items.mapM getString
  .ok (environAppend x.getenv [] true strings)

/-- `state_get_json_env_array_to_obj`: an empty array becomes `NULL`. -/
def stateGetJsonEnvArray (x : Host) (json : Json) (name : String) :
    Restored (Option (List String)) := do
  let items ← getArray json name
  let env ← stateDeserialiseEnvArray x items
  .ok (if items.isEmpty then none else some env)

/-- A field whose refusal ends in the `nih_free` of a pointer that is still `NULL`, which
`nih_free` asserts not to be the case. -/
def readOrFree {α : Type} (fn : SourceFn) : Restored α → Restored α
  | .error .refused => .error (.fault (.assertFailed fn))
  | m => m

/-! ## Fields that have been written -/

section Fields

variable {json : Json} {name : String}

theorem getEx_ok {value : Json} (h : json.get? name = some value) :
    getEx json name = .ok value := by
  simp only [getEx, h]

theorem intVar_ok {n : Int} (h : json.get? name = some (.int n)) :
    stateGetJsonIntVar json name = .ok n := by
  simp only [stateGetJsonIntVar, h]

theorem boolVar_ok {b : Bool} (h : json.get? name = some (jsonBool b)) :
    stateGetJsonBoolVar json name = .ok b := by
  rw [stateGetJsonBoolVar, intVar_ok h]
  cases b <;> rfl

theorem stringVar_ok {s : Option String} (h : json.get? name = some (stateSetJsonStringVar s)) :
    stateGetJsonStringVar json name = .ok s := by
  cases s <;> simp only [stateGetJsonStringVar, h, stateSetJsonStringVar]

theorem stringVarStrict_ok {s : String} (h : json.get? name = some (.string s)) :
    stateGetJsonStringVarStrict json name = .ok s := by
  rw [stateGetJsonStringVarStrict, stringVar_ok (s := some s) h]
  rfl

theorem enumVar_ok {α : Type} {strToEnum : String → Option α} {s : String} {a : α}
    (h : json.get? name = some (.string s)) (ha : strToEnum s = some a) :
    stateGetJsonEnumVar strToEnum json name = .ok a := by
  rw [stateGetJsonEnumVar, stringVarStrict_ok h]
  simp only [bind, Except.bind, ha]

theorem getArray_ok {items : List Json} (h : json.get? name = some (.array items)) :
    getArray json name = .ok items := by
  rw [getArray, getEx_ok h]
  rfl

theorem strArray_ok (array : List String) :
    stateDeserialiseStrArray (array.map .string) = .ok array := by
  have h : (array.map Json.string).mapM getString = .ok (array.map id) :=
    mapM_map_ok fun _ _ => rfl
  rwa [List.map_id] at h

theorem intArray_ok (array : List Int) :
    stateDeserialiseIntArray (array.map .int) = .ok array := by
  have h : (array.map Json.int).mapM getInt = .ok (array.map id) :=
    mapM_map_ok fun _ _ => rfl
  rwa [List.map_id] at h

theorem envArray_ok (x : Host) (env : List String) :
    stateDeserialiseEnvArray x (env.map .string) = .ok (environAppend x.getenv [] true env) := by
  have h : (env.map Json.string).mapM getString = .ok env := strArray_ok env
  rw [stateDeserialiseEnvArray, h]
  rfl

theorem envVar_ok (x : Host) (json : Json) (name : String) (env : List String)
    (h : json.get? name = some (stateSerialiseStrArray env)) :
    stateGetJsonEnvArray x json name =
      .ok (if env.isEmpty then none else some (environAppend x.getenv [] true env)) := by
  rw [stateGetJsonEnvArray, getArray_ok h]
  simp only [bind, Except.bind, envArray_ok, List.isEmpty_map]

end Fields

end Startup
