import GoffyOs.Python.Sha256
import Mathlib.Data.List.Infix

/-!
# Text: `str`, `int` and hexadecimal texts

The parts of Python's built-in `str`, `int` and `bytes` that the Hub uses on texts it did not write
itself. A `str` is the list of its code points, without lone surrogates: the text of a message or of a
file decodes to none. `json.loads` makes one of an escape such as `\ud800`; a text with it is left out.

* `strip`, `stripChars`, `lower`, `replace`, `utf8`: methods of `str`;
* `natStr` is `str(n)`; `parseInt b` is `int(text, b)`, with its white space, sign, underscore,
  prefix and Unicode-digit rules;
* `fromHex` is `bytes.fromhex`.

The round trips of the texts the Hub writes are `parseInt_natStr` and `fromHex_hex`.
-/

namespace Python

/-- A `str`. -/
abbrev Str := List Char

instance : LawfulBEq Str := inferInstance

/-! ### Methods of `str` -/

/-- `str.isspace` of one character. -/
def isSpace (c : Char) : Bool :=
  let n := c.toNat
  (0x09 ≤ n && n ≤ 0x0d) || (0x1c ≤ n && n ≤ 0x20) || n == 0x85 || n == 0xa0 || n == 0x1680 ||
    (0x2000 ≤ n && n ≤ 0x200a) || n == 0x2028 || n == 0x2029 || n == 0x202f || n == 0x205f ||
    n == 0x3000

/-- Drop the characters satisfying `p` from both ends. -/
def trim (p : Char → Bool) (s : Str) : Str := ((s.dropWhile p).reverse.dropWhile p).reverse

/-- `str.strip()`. -/
def strip (s : Str) : Str := trim isSpace s

/-- `str.strip(chars)`. -/
def stripChars (chars s : Str) : Str := trim (fun c => chars.contains c) s

/-- `str.lower` of one character, as far as ASCII can tell: besides the ASCII capitals only the
Kelvin sign has an ASCII lower case; every other character stays outside ASCII. -/
def lowerChar (c : Char) : Char := if c = '\u212a' then 'k' else c.toLower

/-- `str.lower()`. -/
def lower (s : Str) : Str := s.map lowerChar

/-- `str.casefold` of one character, as far as ASCII can tell: the characters whose folding has a letter
of ASCII; every other character stays outside ASCII. -/
def casefoldChar (c : Char) : Str :=
  match c.toNat with
  | 0xdf | 0x1e9e => ['s', 's']
  | 0x130 => ['i', '\u0307']
  | 0x149 => ['\u02bc', 'n']
  | 0x17f => ['s']
  | 0x1f0 => ['j', '\u030c']
  | 0x1e96 => ['h', '\u0331']
  | 0x1e97 => ['t', '\u0308']
  | 0x1e98 => ['w', '\u030a']
  | 0x1e99 => ['y', '\u030a']
  | 0x1e9a => ['a', '\u02be']
  | 0x212a => ['k']
  | 0xfb00 => ['f', 'f']
  | 0xfb01 => ['f', 'i']
  | 0xfb02 => ['f', 'l']
  | 0xfb03 => ['f', 'f', 'i']
  | 0xfb04 => ['f', 'f', 'l']
  | 0xfb05 | 0xfb06 => ['s', 't']
  | _ => [c.toLower]

/-- `str.casefold()`. -/
def casefold (s : Str) : Str := s.flatMap casefoldChar

/-- `sub in s`. -/
def contains (s sub : Str) : Bool := s.tails.any (sub.isPrefixOf ·)

/-- `str.replace`: the first argument counts the characters of the last occurrence still to be
skipped. -/
def replaceAux (old new : Str) : ℕ → Str → Str
  | _, [] => []
  | k + 1, _ :: cs => replaceAux old new k cs
  | 0, c :: cs =>
    if old.isPrefixOf (c :: cs) then new ++ replaceAux old new (old.length - 1) cs
    else c :: replaceAux old new 0 cs

/-- `str.replace(old, new)` for a non-empty `old`. -/
def replace (old new s : Str) : Str := replaceAux old new 0 s

/-- `str.encode("utf-8")`. -/
def utf8 (s : Str) : Bytes := s.flatMap String.utf8EncodeChar

theorem utf8_injective : Function.Injective utf8 := by
  intro s t h
  have hb : s.utf8Encode = t.utf8Encode := by
    simp only [List.utf8Encode]
    exact congrArg List.toByteArray h
  have hd := congrArg ByteArray.utf8Decode? hb
  simpa using hd

/-- Nothing is replaced in a text that does not contain the first character of `old`. -/
theorem replace_of_notMem {c : Char} {old new s : Str} (hc : c ∉ s) :
    replace (c :: old) new s = s := by
  induction s with
  | nil => rfl
  | cons d s ih =>
    have hd : c ≠ d := by
      rintro rfl
      exact hc (by simp)
    have hs := ih fun h => hc (by simp [h])
    unfold replace at hs ⊢
    simp [replaceAux, List.isPrefixOf, hd, hs]

/-- The part of a text before the first character of `old` is kept. -/
theorem replace_append {c : Char} {old new s t : Str} (hc : c ∉ s) :
    replace (c :: old) new (s ++ t) = s ++ replace (c :: old) new t := by
  induction s with
  | nil => rfl
  | cons d s ih =>
    have hd : c ≠ d := by
      rintro rfl
      exact hc (by simp)
    have hs := ih fun h => hc (by simp [h])
    unfold replace at hs ⊢
    simp [replaceAux, List.isPrefixOf, hd, hs]

theorem contains_iff_infix {s sub : Str} : contains s sub = true ↔ sub <:+: s := by
  simp only [contains, List.any_eq_true, List.mem_tails, List.isPrefixOf_iff_prefix,
    List.infix_iff_prefix_suffix, and_comm]

/-- A text that ends with another character is not found at the end of a longer text. -/
theorem contains_append_eq {c : Char} {s t : Str} (sub : Str) (ht : c ∉ t) :
    contains (s ++ t) (sub ++ [c]) = contains s (sub ++ [c]) := by
  rw [Bool.eq_iff_iff, contains_iff_infix, contains_iff_infix]
  constructor
  · rintro ⟨a, b, hab⟩
    have hsuffix : c :: b <:+ s ++ t := ⟨a ++ sub, by rw [← hab]; simp⟩
    have hlength : t.length ≤ b.length := by
      by_contra hshort
      have hb : c :: b <:+ t :=
        List.suffix_of_suffix_length_le hsuffix (List.suffix_append s t) (Nat.not_le.1 hshort)
      exact ht (hb.subset List.mem_cons_self)
    obtain ⟨b', rfl⟩ : t <:+ b :=
      List.suffix_of_suffix_length_le (List.suffix_append s t) (hab ▸ List.suffix_append _ b) hlength
    refine ⟨a, b', ?_⟩
    rw [← List.append_assoc] at hab
    exact List.append_cancel_right hab
  · exact fun h => h.trans (List.prefix_append s t).isInfix

theorem mem_of_mem_trim {p : Char → Bool} {s : Str} {c : Char} (hc : c ∈ trim p s) : c ∈ s := by
  rw [trim, List.mem_reverse] at hc
  have hrev := List.mem_reverse.1 ((List.dropWhile_sublist p).subset hc)
  exact (List.dropWhile_sublist p).subset hrev

/-- A stripped text starts with no space. -/
theorem trim_head {p : Char → Bool} {s : Str} {c : Char} (h : (trim p s).head? = some c) : p c = false := by
  rw [trim, List.head?_reverse] at h
  -- the first character is the last one of the reversed text, and stays when its end is dropped
  obtain ⟨zs, hzs⟩ := List.dropWhile_suffix (l := (s.dropWhile p).reverse) p
  have hlast : (s.dropWhile p).reverse.getLast? = some c := by
    rw [← hzs, List.getLast?_append, h]
    rfl
  rw [List.getLast?_reverse] at hlast
  have hhead := List.head?_dropWhile_not p s
  rw [hlast] at hhead
  simpa using hhead

/-- Stripping keeps a text with no space in it. -/
theorem trim_eq_self {p : Char → Bool} {s : Str} (hs : ∀ c ∈ s, p c = false) : trim p s = s := by
  have hdrop : ∀ t : Str, (∀ c ∈ t, p c = false) → t.dropWhile p = t := by
    intro t ht
    cases t with
    | nil => rfl
    | cons c t => rw [List.dropWhile_cons_of_neg]; simp [ht c (by simp)]
  rw [trim, hdrop s hs, hdrop s.reverse (by simpa using hs), List.reverse_reverse]

/-! ### Numbers -/

/-- The code points of the decimal zeros outside ASCII (category `Nd`); the other nine digits of
each script follow them. -/
def decimalZeros : List ℕ :=
  [0x660, 0x6f0, 0x7c0, 0x966, 0x9e6, 0xa66, 0xae6, 0xb66, 0xbe6, 0xc66, 0xce6, 0xd66, 0xde6,
   0xe50, 0xed0, 0xf20, 0x1040, 0x1090, 0x17e0, 0x1810, 0x1946, 0x19d0, 0x1a80, 0x1a90, 0x1b50,
   0x1bb0, 0x1c40, 0x1c50, 0xa620, 0xa8d0, 0xa900, 0xa9d0, 0xa9f0, 0xaa50, 0xabf0, 0xff10,
   0x104a0, 0x10d30, 0x11066, 0x110f0, 0x11136, 0x111d0, 0x112f0, 0x11450, 0x114d0, 0x11650,
   0x116c0, 0x11730, 0x118e0, 0x11950, 0x11c50, 0x11d50, 0x11da0, 0x11f50, 0x16a60, 0x16ac0,
   0x16b50, 0x1d7ce, 0x1d7d8, 0x1d7e2, 0x1d7ec, 0x1d7f6, 0x1e140, 0x1e2f0, 0x1e4f0, 0x1e950,
   0x1fbf0]

/-- Number parsing first brings decimal digits and spaces to ASCII; what remains outside ASCII is
not part of any number. -/
def toAsciiNumeral (c : Char) : Char :=
  if c.toNat < 127 then c
  else if isSpace c then ' '
  else match decimalZeros.find? fun z => z ≤ c.toNat && c.toNat < z + 10 with
    | some z => Positional.digitChar (c.toNat - z)
    | none => '?'

/-- The white space `int` ignores around a number. -/
def isNumberSpace (c : Char) : Bool := c == ' ' || (0x09 ≤ c.toNat && c.toNat ≤ 0x0d)

/-- Base-`b` digits with single underscores between them. -/
def readUnderscored (b : ℕ) : Str → Option (List ℕ)
  | [] => none
  | [c] => ((Positional.digitVal? c).filter (· < b)).map fun d => [d]
  | c :: '_' :: cs => do
    let d ← (Positional.digitVal? c).filter (· < b)
    return d :: (← readUnderscored b cs)
  | c :: c' :: cs => do
    let d ← (Positional.digitVal? c).filter (· < b)
    return d :: (← readUnderscored b (c' :: cs))

/-- The prefix `0x` is accepted in base sixteen, with one underscore after it. -/
def dropRadix (b : ℕ) : Str → Str
  | '0' :: x :: cs =>
    if b = 16 ∧ (x = 'x' ∨ x = 'X') then
      match cs with
      | '_' :: cs => cs
      | cs => cs
    else '0' :: x :: cs
  | cs => cs

/-- The sign of a number and what follows it. -/
def splitSign : Str → Bool × Str
  | '-' :: cs => (true, cs)
  | '+' :: cs => (false, cs)
  | cs => (false, cs)

/-- `int(text, b)`; `none` is `ValueError`. A decimal text may have at most 4300 digits. -/
def parseInt (b : ℕ) (s : Str) : Option ℤ := do
  let s := trim isNumberSpace (s.map toAsciiNumeral)
  let ds ← readUnderscored b (dropRadix b (splitSign s).2)
  if b = 10 ∧ 4300 < ds.length then none
  else return if (splitSign s).1 then -(Positional.value b ds : ℤ) else Positional.value b ds

/-- `str(n)` of a natural number. -/
def natStr (n : ℕ) : Str := Nat.toDigits 10 n

theorem natStr_injective : Function.Injective natStr := by
  intro m n h
  have hv := congrArg (fun s => Nat.ofDigitChars 10 s 0) h
  simpa [natStr] using hv

/-- No digit is a space, a sign, an underscore or the radix letter. -/
theorem digitChar_plain {d : ℕ} (hd : d < 16) :
    toAsciiNumeral (Positional.digitChar d) = Positional.digitChar d ∧
      isNumberSpace (Positional.digitChar d) = false ∧
      Positional.digitChar d ∉ ['-', '+', '_', 'x', 'X'] := by
  have h : ∀ d < 16, toAsciiNumeral (Positional.digitChar d) = Positional.digitChar d ∧
      isNumberSpace (Positional.digitChar d) = false ∧
      Positional.digitChar d ∉ ['-', '+', '_', 'x', 'X'] := by decide
  exact h d hd

section Numerals

variable {b : ℕ} {ds : List ℕ}

theorem readUnderscored_map (hb : b ≤ 16) (hne : ds ≠ []) (hds : ∀ d ∈ ds, d < b) :
    readUnderscored b (ds.map Positional.digitChar) = some ds := by
  induction ds with
  | nil => exact absurd rfl hne
  | cons d ds ih =>
    have hd : d < b := hds d (by simp)
    have hread : (Positional.digitVal? (Positional.digitChar d)).filter (· < b) = some d := by
      simp [Positional.digitVal?_digitChar (show d < 16 by omega), Option.filter, hd]
    cases ds with
    | nil => simp [readUnderscored, hread]
    | cons d' ds =>
      have hd' : Positional.digitChar d' ∉ ['-', '+', '_', 'x', 'X'] :=
        (digitChar_plain (by have := hds d' (by simp); omega)).2.2
      have hrest := ih (by simp) fun x hx => hds x (by simp [hx])
      rw [List.map_cons] at hrest
      rw [List.map_cons, List.map_cons, readUnderscored]
      · simp [hread, hrest]
      · rintro h
        exact hd' (by simp [h])

/-- A non-empty list of digits reads as the number it writes, unless there are too many. -/
theorem parseInt_digits_eq (hb : b ≤ 16) (hne : ds ≠ []) (hds : ∀ d ∈ ds, d < b) :
    parseInt b (ds.map Positional.digitChar) =
      if b = 10 ∧ 4300 < ds.length then none else some (Positional.value b ds : ℤ) := by
  have hplain : ∀ c ∈ ds.map Positional.digitChar, toAsciiNumeral c = c ∧
      isNumberSpace c = false ∧ c ∉ ['-', '+', '_', 'x', 'X'] := by
    intro c hc
    obtain ⟨d, hd, rfl⟩ := List.mem_map.1 hc
    exact digitChar_plain (lt_of_lt_of_le (hds d hd) hb)
  have hascii : (ds.map Positional.digitChar).map toAsciiNumeral = ds.map Positional.digitChar := by
    rw [List.map_congr_left fun c hc => (hplain c hc).1, List.map_id']
  have htrim : trim isNumberSpace (ds.map Positional.digitChar) = ds.map Positional.digitChar :=
    trim_eq_self fun c hc => (hplain c hc).2.1
  -- the first character is a digit, so there is no sign; the second is not the radix letter
  have hsign : splitSign (ds.map Positional.digitChar) = (false, ds.map Positional.digitChar) := by
    unfold splitSign
    split
    · rename_i h
      exact absurd (hplain '-' (by simp [h])).2.2 (by simp)
    · rename_i h
      exact absurd (hplain '+' (by simp [h])).2.2 (by simp)
    · rfl
  have hradix : dropRadix b (ds.map Positional.digitChar) = ds.map Positional.digitChar := by
    unfold dropRadix
    split
    · rename_i x cs h
      have hx := (hplain x (by simp [h])).2.2
      rw [if_neg (by rintro ⟨-, rfl | rfl⟩ <;> simp at hx), h]
    · rfl
  rw [parseInt, hascii, htrim, hsign, hradix, readUnderscored_map hb hne hds]
  rfl

theorem parseInt_digits (hb : b ≤ 16) (hne : ds ≠ []) (hds : ∀ d ∈ ds, d < b)
    (hlen : ds.length ≤ 4300) :
    parseInt b (ds.map Positional.digitChar) = some (Positional.value b ds : ℤ) := by
  rw [parseInt_digits_eq hb hne hds, if_neg fun h => absurd h.2 (not_lt.2 hlen)]

end Numerals

theorem toNat_of_mem_natStr {n : ℕ} {c : Char} (hc : c ∈ natStr n) :
    48 ≤ c.toNat ∧ c.toNat ≤ 57 := by
  have hdig : c.isDigit = true := Nat.isDigit_of_mem_toDigits (by decide) (by decide) hc
  simp only [Char.isDigit, ge_iff_le, Bool.and_eq_true, decide_eq_true_eq,
    UInt32.le_iff_toNat_le] at hdig
  simpa using hdig

theorem natStr_eq_map (n : ℕ) :
    natStr n = ((natStr n).map fun c => c.toNat - 48).map Positional.digitChar := by
  rw [List.map_map, List.map_congr_left (g := id), List.map_id]
  intro c hc
  have h48 := toNat_of_mem_natStr hc
  apply Char.toNat_inj.1
  simp only [Function.comp_apply, Positional.digitChar, id]
  rw [Nat.toNat_digitChar_of_lt_ten (by omega)]
  omega

theorem parseInt_natStr_eq (n : ℕ) :
    parseInt 10 (natStr n) = if 4300 < (natStr n).length then none else some (n : ℤ) := by
  have hvalue : Positional.value 10 ((natStr n).map fun c => c.toNat - 48) = n := by
    have h := Nat.ofDigitChars_ten_toDigits (n := n)
    rw [Nat.ofDigitChars_eq_foldl] at h
    simpa [Positional.value, List.foldl_map, natStr, Nat.mul_comm] using h
  have hds : ∀ d ∈ (natStr n).map fun c => c.toNat - 48, d < 10 := by
    intro d hd
    obtain ⟨c, hc, rfl⟩ := List.mem_map.1 hd
    have h48 := toNat_of_mem_natStr hc
    omega
  have hdigits := parseInt_digits_eq (by decide) (by simp [natStr]) hds
  rw [← natStr_eq_map, hvalue, List.length_map] at hdigits
  simpa using hdigits

/-- A natural number reads back from its decimal text. -/
theorem parseInt_natStr {n : ℕ} (hn : (natStr n).length ≤ 4300) :
    parseInt 10 (natStr n) = some (n : ℤ) := by
  rw [parseInt_natStr_eq, if_neg (not_lt.2 hn)]

/-- `bytes.fromhex`: pairs of hexadecimal digits, with ASCII white space between pairs; `none` is
`ValueError`. -/
def fromHex : Str → Option Bytes
  | [] => some []
  | [c] => if isNumberSpace c then some [] else none
  | c :: d :: cs =>
    if isNumberSpace c then fromHex (d :: cs)
    else do
      let hi ← Positional.digitVal? c
      let lo ← Positional.digitVal? d
      return UInt8.ofNat (16 * hi + lo) :: (← fromHex cs)

/-- A byte string reads back from its hexadecimal text. -/
theorem fromHex_hex (b : Bytes) : fromHex (hex b) = some b := by
  induction b with
  | nil => rfl
  | cons x b ih =>
    have hx := x.toNat_lt
    have hhi : x.toNat / 16 % 16 < 16 := Nat.mod_lt _ (by decide)
    have hlo : x.toNat % 16 < 16 := Nat.mod_lt _ (by decide)
    have hcons : hex (x :: b) = Positional.digitChar (x.toNat / 16 % 16) ::
        Positional.digitChar (x.toNat % 16) :: hex b := by
      simp [hex, Positional.write, Positional.digits]
    have hback : 16 * (x.toNat / 16 % 16) + x.toNat % 16 = x.toNat := by omega
    rw [hcons, fromHex, (digitChar_plain hhi).2.1, Positional.digitVal?_digitChar hhi,
      Positional.digitVal?_digitChar hlo, ih]
    simp only [Bool.false_eq_true, if_false, Option.bind_eq_bind, Option.bind_some, hback,
      UInt8.ofNat_toNat, Option.pure_def]

end Python
