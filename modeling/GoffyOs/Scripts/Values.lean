import GoffyOs.Hub.RomStatus

/-!
# The values that the scripts read of a JSON object

The scripts look at a value with `is`, with `==` or by its truth value, and show it with `str`. What `str`
says of a list or of a dictionary is a parameter.
-/

namespace GoffyScripts

open Python
open GoffyHub.Rom (Members get isTrue)

/-- `value is False`. -/
def isFalse (value : Option Json) : Bool :=
  match value with
  | some (.bool b) => !b
  | _ => false

def isBool (value : Option Json) : Bool :=
  match value with
  | some (.bool _) => true
  | _ => false

/-- A value that is an `int`, as a boolean is. -/
def intValue (value : Option Json) : Option ℤ :=
  match value with
  | some (.int n) => some n
  | some (.bool b) => some (if b then 1 else 0)
  | _ => none

/-- `value == 0`. -/
def isZero (value : Option Json) : Bool :=
  match value with
  | some (.float repr) => repr = "0.0".toList || repr = "-0.0".toList
  | _ => intValue value = some 0

/-- The truth value. -/
def isTruthy (value : Option Json) : Bool :=
  match value with
  | some (.bool b) => b
  | some (.int n) => n ≠ 0
  | some (.float repr) => !(repr = "0.0".toList || repr = "-0.0".toList)
  | some (.str s) => s ≠ []
  | some (.array items) => !items.isEmpty
  | some (.object members) => !members.isEmpty
  | _ => false

/-- The value is this text. -/
def isStr (value : Option Json) (s : Str) : Bool :=
  match value with
  | some (.str t) => t = s
  | _ => false

/-- A blocker, where something is wrong. -/
def blockIf (p : Prop) [Decidable p] (message : Str) : List Str := if p then [message] else []

@[simp] theorem blockIf_eq_nil {p : Prop} [Decidable p] {message : Str} :
    blockIf p message = [] ↔ ¬ p := by
  by_cases hp : p
  · simp [blockIf, hp]
  · simp [blockIf, hp]

section

variable (containerStr : Json → Str)

/-- `str(value)`. -/
def jsonStr (value : Json) : Str :=
  match value with
  | .null => "None".toList
  | .bool b => if b then "True".toList else "False".toList
  | .int n => intStr n
  | .float repr => repr
  | .str s => s
  | .array _ | .object _ => containerStr value

/-- `str(o.get(key, default))`. -/
def getStr (o : Members) (key : String) (default : Str) : Str :=
  ((get o key).map (jsonStr containerStr)).getD default

/-- `string_items`. -/
def stringItems (value : Option Json) : List Str :=
  match value with
  | some (.array items) => items.map (jsonStr containerStr)
  | _ => []

/-- `mapping_value`. -/
def mappingValue (value : Option Json) : List (Str × Str) :=
  match value with
  | some (.object members) => members.map fun m => (m.1, jsonStr containerStr m.2)
  | _ => []

end

end GoffyScripts
