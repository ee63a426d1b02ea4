import GoffyOs.Kotlin.Text
import GoffyOs.Lib.Regex

/-!
# Regular expressions: `Regex` on the JVM

The engine of `Regex` for patterns of ASCII, on the code units of a string. What `\w` says of the units
beyond ASCII is left out.
-/

namespace Kotlin

/-- A unit between the bounds of one of the ranges. -/
def inRanges (rs : List (Char × Char)) (u : UInt16) : Bool :=
  rs.any fun r => r.1.toNat ≤ u.toNat && u.toNat ≤ r.2.toNat

/-- The capital of a letter of ASCII. -/
def capital (u : UInt16) : UInt16 := if 0x61 ≤ u ∧ u ≤ 0x7a then u - 0x20 else u

/-- `.` takes no line terminators, and `\s` the white space of ASCII. -/
def regexIsIn (ignoreCase : Bool) : Regex.CharSet → UInt16 → Bool
  | .char d, u => if ignoreCase then (units d).map foldUnit = [foldUnit u] else units d = [u]
  | .ranges rs, u =>
    inRanges rs u || (ignoreCase && (inRanges rs (foldUnit u) || inRanges rs (capital (foldUnit u))))
  | .any, u => u ≠ 0x0a && u ≠ 0x0d && u ≠ 0x85 && u ≠ 0x2028 && u ≠ 0x2029
  | .space, u => u = 0x20 || (0x09 ≤ u.toNat && u.toNat ≤ 0x0d)
  | .notSpace, u => !(u = 0x20 || (0x09 ≤ u.toNat && u.toNat ≤ 0x0d))

/-- `\w`, in ASCII. -/
def isWordUnit (u : UInt16) : Bool :=
  let n := u.toNat
  (0x30 ≤ n && n ≤ 0x39) || (0x41 ≤ n && n ≤ 0x5a) || n = 0x5f || (0x61 ≤ n && n ≤ 0x7a)

/-- `Regex(pattern)`, and with `RegexOption.IGNORE_CASE`. -/
def regex (ignoreCase : Bool) : Regex.Engine UInt16 := ⟨regexIsIn ignoreCase, isWordUnit⟩

end Kotlin
