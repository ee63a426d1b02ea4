import GoffyOs.Lib.Regex
import GoffyOs.Python.Alnum
import GoffyOs.Python.Text

/-!
# Regular expressions: `re`

The engine of Python's `re` for patterns of ASCII and texts of any characters.
-/

namespace Python

/-- What `re.IGNORECASE` makes of a character, as far as the letters of ASCII can tell. -/
def reFold (c : Char) : Char :=
  match c.toNat with
  | 0x130 | 0x131 => 'i'
  | 0x17f => 's'
  | 0x212a => 'k'
  | _ => c.toLower

/-- A character between the bounds of one of the ranges. -/
def inRanges (rs : List (Char × Char)) (c : Char) : Bool :=
  rs.any fun r => r.1.toNat ≤ c.toNat && c.toNat ≤ r.2.toNat

def reIsIn (ignoreCase : Bool) : Regex.CharSet → Char → Bool
  | .char d, c => if ignoreCase then reFold c = reFold d else c = d
  | .ranges rs, c => inRanges rs c || (ignoreCase && (inRanges rs (reFold c) || inRanges rs (reFold c).toUpper))
  | .any, c => c ≠ '\n'
  | .space, c => isSpace c
  | .notSpace, c => !isSpace c

/-- `\w`. -/
def isWordChar (c : Char) : Bool := isAlnum c || c = '_'

/-- `re.compile(pattern)`, and with `re.IGNORECASE`. -/
def re (ignoreCase : Bool) : Regex.Engine Char := ⟨reIsIn ignoreCase, isWordChar⟩

end Python
