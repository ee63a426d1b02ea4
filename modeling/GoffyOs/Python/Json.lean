import GoffyOs.Python.Text
import Mathlib.Data.List.Sort

/-!
# JSON values and `json.dumps`

A JSON document as Python's `json` and the protocol models hold it: objects keep the order of their
members, integers are unbounded, and a float is represented by its `repr`, the only thing that
serialisation sees of it.

`dumps` is `json.dumps(value, ensure_ascii=False, separators=(",", ":"), sort_keys=True)`, the
canonical form that approvals hash and sign. `b64decode` is `base64.b64decode(text, validate=True)`.
-/

namespace Python

/-- A JSON value. -/
inductive Json
  | null
  | bool (b : Bool)
  | int (n : ℤ)
  | float (repr : Str)
  | str (s : Str)
  | array (items : List Json)
  | object (members : List (Str × Json))

/-- A character of a JSON string, escaped as `json` does without `ensure_ascii`. -/
def escapeChar (c : Char) : Str :=
  if c = '"' then ['\\', '"']
  else if c = '\\' then ['\\', '\\']
  else if c = '\n' then ['\\', 'n']
  else if c = '\r' then ['\\', 'r']
  else if c = '\t' then ['\\', 't']
  else if c.toNat = 8 then ['\\', 'b']
  else if c.toNat = 12 then ['\\', 'f']
  else if c.toNat < 32 then '\\' :: 'u' :: Positional.write 16 4 c.toNat
  else [c]

def quote (s : Str) : Str := '"' :: (s.flatMap escapeChar ++ ['"'])

/-- `str(n)` of an integer. -/
def intStr : ℤ → Str
  | .ofNat n => natStr n
  | .negSucc n => '-' :: natStr (n + 1)

/-- Texts with commas between them. -/
def commaJoin : List Str → Str
  | [] => []
  | [s] => s
  | s :: t :: rest => s ++ ',' :: commaJoin (t :: rest)

/-- The members of an object in the order of their keys. -/
def sortMembers (members : List (Str × Str)) : List (Str × Str) :=
  members.insertionSort fun a b => ¬ b.1 < a.1

mutual

/-- `json.dumps(value, ensure_ascii=False, separators=(",", ":"), sort_keys=True)`. -/
def Json.dumps : Json → Str
  | .null => "null".toList
  | .bool true => "true".toList
  | .bool false => "false".toList
  | .int n => intStr n
  | .float repr => repr
  | .str s => quote s
  | .array items => '[' :: (commaJoin (dumpsItems items) ++ [']'])
  | .object members =>
    '{' :: (commaJoin ((sortMembers (dumpsMembers members)).map fun m => quote m.1 ++ ':' :: m.2) ++
      ['}'])

def dumpsItems : List Json → List Str
  | [] => []
  | item :: items => item.dumps :: dumpsItems items

def dumpsMembers : List (Str × Json) → List (Str × Str)
  | [] => []
  | (key, value) :: members => (key, value.dumps) :: dumpsMembers members

end

/-! ### Base64 -/

/-- The value of a character of the standard alphabet. -/
def base64Value? (c : Char) : Option ℕ :=
  if 'A' ≤ c ∧ c ≤ 'Z' then some (c.toNat - 65)
  else if 'a' ≤ c ∧ c ≤ 'z' then some (c.toNat - 71)
  else if '0' ≤ c ∧ c ≤ '9' then some (c.toNat + 4)
  else if c = '+' then some 62
  else if c = '/' then some 63
  else none

/-- The bytes of a list of six-bit groups; bits that do not fill a byte are dropped. -/
def base64Bytes : List ℕ → Bytes
  | a :: b :: c :: d :: rest =>
    UInt8.ofNat (a * 4 + b / 16) :: UInt8.ofNat (b * 16 + c / 4) :: UInt8.ofNat (c * 64 + d) ::
      base64Bytes rest
  | [a, b, c] => [UInt8.ofNat (a * 4 + b / 16), UInt8.ofNat (b * 16 + c / 4)]
  | [a, b] => [UInt8.ofNat (a * 4 + b / 16)]
  | _ => []

/-- `base64.b64decode(text, validate=True)`; `none` is `binascii.Error`. An incomplete group of four
needs its exact padding, a complete one tolerates any. -/
def b64decode (s : Str) : Option Bytes := do
  let pads := (s.reverse.takeWhile (· = '=')).length
  let digits ← (s.take (s.length - pads)).mapM base64Value?
  match digits.length % 4 with
  | 0 => if digits = [] ∧ 0 < pads then none else return base64Bytes digits
  | 2 => if pads = 2 then return base64Bytes digits else none
  | 3 => if pads = 1 then return base64Bytes digits else none
  | _ => none

end Python
