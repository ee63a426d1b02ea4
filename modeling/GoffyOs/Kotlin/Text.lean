import Mathlib.Data.List.Basic

/-!
# Text: `String` on the JVM

A Kotlin `String` is a sequence of UTF-16 code units. Lengths and `take` count units, so that a cut may
fall inside a character outside the basic plane. `toChars` reads the characters of a string, and
`toChars_ofChars` is the round trip of a text of whole characters.
-/

namespace Kotlin

/-- A `String`: its UTF-16 code units. -/
abbrev Str := List UInt16

instance : LawfulBEq Str := inferInstance

/-- The code units of a character. -/
def units (c : Char) : Str :=
  let n := c.toNat
  if n < 0x10000 then [n.toUInt16]
  else [(0xd800 + (n - 0x10000) / 0x400).toUInt16, (0xdc00 + (n - 0x10000) % 0x400).toUInt16]

/-- The code units of a text. -/
def ofChars (s : List Char) : Str := s.flatMap units

/-- A string literal. -/
def lit (s : String) : Str := ofChars s.toList

/-- A literal is opened by its characters: to decode its bytes again takes the kernel long. -/
theorem lit_ofList (s : List Char) : lit (String.ofList s) = ofChars s := by
  rw [lit, String.toList_ofList]

/-- `Char.isWhitespace`. -/
def isWhitespace (c : UInt16) : Bool :=
  let n := c.toNat
  (0x09 ≤ n && n ≤ 0x0d) || (0x1c ≤ n && n ≤ 0x20) || n == 0xa0 || n == 0x1680 ||
    (0x2000 ≤ n && n ≤ 0x200a) || n == 0x2028 || n == 0x2029 || n == 0x202f || n == 0x205f ||
    n == 0x3000

/-- `trim()`. -/
def trim (s : Str) : Str := ((s.dropWhile isWhitespace).reverse.dropWhile isWhitespace).reverse

/-- `ifEmpty`. -/
def ifEmpty (s default : Str) : Str := if s = [] then default else s

/-- An `Int` in a string template. -/
def ofInt32 (n : Int32) : Str := lit (toString n.toInt)

/-- A `Long` in a string template. -/
def ofInt64 (n : Int64) : Str := lit (toString n.toInt)

/-- `isBlank()`. -/
def isBlank (s : Str) : Bool := s.all isWhitespace

/-- `Char.isISOControl()`. -/
def isISOControl (c : UInt16) : Bool :=
  let n := c.toNat
  n ≤ 0x1f || (0x7f ≤ n && n ≤ 0x9f)

/-- `Character.getType(c) == Character.FORMAT`: the category Cf of the basic plane. -/
def isFormat (c : UInt16) : Bool :=
  let n := c.toNat
  n == 0xad || (0x600 ≤ n && n ≤ 0x605) || n == 0x61c || n == 0x6dd || n == 0x70f ||
    n == 0x890 || n == 0x891 || n == 0x8e2 || n == 0x180e || (0x200b ≤ n && n ≤ 0x200f) ||
    (0x202a ≤ n && n ≤ 0x202e) || (0x2060 ≤ n && n ≤ 0x2064) || (0x2066 ≤ n && n ≤ 0x206f) ||
    n == 0xfeff || (0xfff9 ≤ n && n ≤ 0xfffb)

/-- What a comparison with `ignoreCase = true` makes of a unit, as far as ASCII can tell: besides the
ASCII capitals, both the dotted capital and the dotless i are an i, the long s is an s, and the Kelvin
sign a k. -/
def foldUnit (c : UInt16) : UInt16 :=
  if 0x41 ≤ c ∧ c ≤ 0x5a then c + 0x20
  else if c = 0x130 ∨ c = 0x131 then 0x69
  else if c = 0x17f then 0x73
  else if c = 0x212a then 0x6b
  else c

/-- `contains(pattern, ignoreCase = true)`, for a pattern of ASCII. -/
def containsIgnoreCase (s pattern : Str) : Bool :=
  (s.map foldUnit).tails.any fun t => (pattern.map foldUnit).isPrefixOf t

/-- A Boolean in a string template, as one of two texts. -/
def choose (b : Bool) (yes no : String) : Str := lit (if b then yes else no)

/-! ### Characters -/

/-- The high and the low surrogates. -/
def isHighSurrogate (c : UInt16) : Bool := 0xd800 ≤ c.toNat && c.toNat ≤ 0xdbff
def isLowSurrogate (c : UInt16) : Bool := 0xdc00 ≤ c.toNat && c.toNat ≤ 0xdfff

/-- The characters of a string; a surrogate without its partner is replaced. -/
def toChars : Str → List Char
  | [] => []
  | [c] => [if isHighSurrogate c || isLowSurrogate c then '\ufffd' else Char.ofNat c.toNat]
  | c :: d :: s =>
    if isHighSurrogate c && isLowSurrogate d then
      Char.ofNat (0x10000 + (c.toNat - 0xd800) * 0x400 + (d.toNat - 0xdc00)) :: toChars s
    else
      (if isHighSurrogate c || isLowSurrogate c then '\ufffd' else Char.ofNat c.toNat) ::
        toChars (d :: s)

theorem toChars_cons_of_not_surrogate {c : UInt16} {s : Str} (h : isHighSurrogate c = false)
    (l : isLowSurrogate c = false) : toChars (c :: s) = Char.ofNat c.toNat :: toChars s := by
  cases s with
  | nil => simp [toChars, h, l]
  | cons d s => simp [toChars, h, l]

theorem toChars_units_append (c : Char) (s : Str) : toChars (units c ++ s) = c :: toChars s := by
  have hvalid : c.toNat < 0xd800 ∨ 0xdfff < c.toNat ∧ c.toNat < 0x110000 := c.valid
  by_cases hn : c.toNat < 0x10000
  · have hmod : c.toNat.toUInt16.toNat = c.toNat := by
      rw [UInt16.toNat_ofNat']
      exact Nat.mod_eq_of_lt (by omega)
    have hhigh : isHighSurrogate c.toNat.toUInt16 = false := by
      simp only [isHighSurrogate, hmod, Bool.and_eq_false_iff, decide_eq_false_iff_not]
      omega
    have hlow : isLowSurrogate c.toNat.toUInt16 = false := by
      simp only [isLowSurrogate, hmod, Bool.and_eq_false_iff, decide_eq_false_iff_not]
      omega
    rw [units, if_pos hn, List.singleton_append, toChars_cons_of_not_surrogate hhigh hlow, hmod,
      Char.ofNat_toNat]
  · have hc : (0xd800 + (c.toNat - 0x10000) / 0x400).toUInt16.toNat =
        0xd800 + (c.toNat - 0x10000) / 0x400 := by
      rw [UInt16.toNat_ofNat']
      exact Nat.mod_eq_of_lt (by omega)
    have hd : (0xdc00 + (c.toNat - 0x10000) % 0x400).toUInt16.toNat =
        0xdc00 + (c.toNat - 0x10000) % 0x400 := by
      rw [UInt16.toNat_ofNat']
      exact Nat.mod_eq_of_lt (by omega)
    have hpair : (isHighSurrogate (0xd800 + (c.toNat - 0x10000) / 0x400).toUInt16 &&
        isLowSurrogate (0xdc00 + (c.toNat - 0x10000) % 0x400).toUInt16) = true := by
      simp only [isHighSurrogate, isLowSurrogate, hc, hd, Bool.and_eq_true, decide_eq_true_eq]
      omega
    have hback : 0x10000 + (0xd800 + (c.toNat - 0x10000) / 0x400 - 0xd800) * 0x400 +
        (0xdc00 + (c.toNat - 0x10000) % 0x400 - 0xdc00) = c.toNat := by omega
    rw [units, if_neg hn, List.cons_append, List.singleton_append, toChars, if_pos hpair, hc, hd,
      hback, Char.ofNat_toNat]

/-- A text of whole characters reads back. -/
theorem toChars_ofChars (s : List Char) : toChars (ofChars s) = s := by
  induction s with
  | nil => rfl
  | cons c s ih =>
    rw [ofChars, List.flatMap_cons, toChars_units_append]
    exact congrArg (c :: ·) ih

theorem ofChars_append (s t : List Char) : ofChars (s ++ t) = ofChars s ++ ofChars t :=
  List.flatMap_append

theorem length_toChars_le (s : Str) : (toChars s).length ≤ s.length := by
  fun_induction toChars s with
  | case1 => simp
  | case2 c => simp
  | case3 c d s h ih =>
    simp only [List.length_cons]
    omega
  | case4 c d s h ih =>
    simp only [List.length_cons] at ih ⊢
    omega

/-- The string is a text of whole characters. -/
def Whole (s : Str) : Prop := ofChars (toChars s) = s

theorem whole_ofChars (s : List Char) : Whole (ofChars s) := by rw [Whole, toChars_ofChars]

theorem Whole.append {s t : Str} (hs : Whole s) (ht : Whole t) : Whole (s ++ t) := by
  rw [← hs, ← ht, ← ofChars_append]
  exact whole_ofChars _

theorem whole_intercalate {sep : Str} (hsep : Whole sep) :
    ∀ {parts : List Str}, (∀ s ∈ parts, Whole s) → Whole (sep.intercalate parts)
  | [], _ => whole_ofChars []
  | [s], h => by simpa [List.intercalate] using h s (by simp)
  | s :: t :: parts, h => by
    have htail : Whole (sep.intercalate (t :: parts)) :=
      whole_intercalate hsep fun r hr => h r (List.mem_cons_of_mem _ hr)
    rw [List.intercalate_cons_cons]
    exact ((h s (by simp)).append hsep).append htail

end Kotlin
