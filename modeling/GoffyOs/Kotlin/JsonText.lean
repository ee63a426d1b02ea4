import GoffyOs.Kotlin.Json
import GoffyOs.Python.Utf8

/-!
# The text of a JSON element

What `JsonElement.toString` of `kotlinx.serialization` writes, and the bytes of texts of ASCII. A text of
printable ASCII without quotes and backslashes (`Plain`) is written as it is.
-/

namespace Kotlin

/-- The hexadecimal digit of a number below 16. -/
def hexUnit (n : UInt16) : UInt16 := if n < 10 then 0x30 + n else 0x57 + n

/-- `ESCAPE_STRINGS`. -/
def escapeUnit (c : UInt16) : Str :=
  if c = 0x22 || c = 0x5c then [0x5c, c]
  else if c = 0x09 then lit "\\t"
  else if c = 0x08 then lit "\\b"
  else if c = 0x0a then lit "\\n"
  else if c = 0x0d then lit "\\r"
  else if c = 0x0c then lit "\\f"
  else if c < 0x20 then lit "\\u00" ++ [hexUnit (c / 16), hexUnit (c % 16)]
  else [c]

/-- `printQuoted`. -/
def printQuoted (s : Str) : Str := 0x22 :: (s.flatMap escapeUnit ++ [0x22])

/-- `joinToString(",")`. -/
def commaJoin (parts : List Str) : Str := [0x2c].intercalate parts

mutual

/-- `JsonElement.toString`. -/
def JsonElement.text : JsonElement → Str
  | .null => lit "null"
  | .literal content isString => if isString then printQuoted content else content
  | .array items => 0x5b :: (commaJoin (textItems items) ++ [0x5d])
  | .object members => 0x7b :: (commaJoin (textMembers members) ++ [0x7d])

def textItems : List JsonElement → List Str
  | [] => []
  | e :: items => e.text :: textItems items

def textMembers : List (Str × JsonElement) → List Str
  | [] => []
  | (key, e) :: members => (printQuoted key ++ 0x3a :: e.text) :: textMembers members

end

/-! ### Plain texts -/

/-- Printable ASCII without quotes and backslashes. -/
def IsPlainUnit (u : UInt16) : Prop := 0x20 ≤ u ∧ u < 0x7f ∧ u ≠ 0x22 ∧ u ≠ 0x5c

instance (u : UInt16) : Decidable (IsPlainUnit u) := by unfold IsPlainUnit; infer_instance

def Plain (s : Str) : Prop := ∀ u ∈ s, IsPlainUnit u

instance (s : Str) : Decidable (Plain s) := List.decidableBAll _ s

def Ascii (s : Str) : Prop := ∀ u ∈ s, u < 0x80

instance (s : Str) : Decidable (Ascii s) := List.decidableBAll _ s

section

variable {s t : Str} {u : UInt16}

theorem escapeUnit_of_plain (h : IsPlainUnit u) : escapeUnit u = [u] := by
  obtain ⟨hlow, -, hquote, hbackslash⟩ := h
  have hnot : ∀ v : UInt16, v < 0x20 → u ≠ v := by
    rintro v hv rfl
    exact absurd (UInt16.lt_of_lt_of_le hv hlow) (UInt16.lt_irrefl _)
  rw [escapeUnit, if_neg (by simp [hquote, hbackslash]), if_neg (hnot _ (by decide)),
    if_neg (hnot _ (by decide)), if_neg (hnot _ (by decide)), if_neg (hnot _ (by decide)),
    if_neg (hnot _ (by decide)), if_neg (UInt16.not_lt.2 hlow)]

theorem printQuoted_of_plain (h : Plain s) : printQuoted s = 0x22 :: (s ++ [0x22]) := by
  have hescape : s.flatMap escapeUnit = s := by
    induction s with
    | nil => rfl
    | cons u s ih =>
      obtain ⟨hu, hs⟩ := List.forall_mem_cons.1 h
      rw [List.flatMap_cons, escapeUnit_of_plain hu, ih hs]
      rfl
  rw [printQuoted, hescape]

theorem length_printQuoted (h : Plain s) : (printQuoted s).length = s.length + 2 := by
  rw [printQuoted_of_plain h, List.length_cons, List.length_append, List.length_singleton]

theorem Plain.ascii (h : Plain s) : Ascii s := fun u hu =>
  UInt16.lt_trans (h u hu).2.1 (by decide)

theorem Ascii.append (hs : Ascii s) (ht : Ascii t) : Ascii (s ++ t) := fun u hu =>
  (List.mem_append.1 hu).elim (hs u) (ht u)

theorem ascii_printQuoted (h : Plain s) : Ascii (printQuoted s) := by
  rw [printQuoted_of_plain h]
  refine List.forall_mem_cons.2 ⟨by decide, Ascii.append h.ascii ?_⟩
  decide

theorem ascii_commaJoin {parts : List Str} (h : ∀ part ∈ parts, Ascii part) :
    Ascii (commaJoin parts) := by
  induction parts with
  | nil => exact fun u hu => absurd hu List.not_mem_nil
  | cons part parts ih =>
    obtain ⟨hpart, hparts⟩ := List.forall_mem_cons.1 h
    cases parts with
    | nil => simpa [commaJoin, List.intercalate] using hpart
    | cons part' parts =>
      have hcons : commaJoin (part :: part' :: parts) =
          part ++ ([0x2c] ++ commaJoin (part' :: parts)) := by
        simp [commaJoin, List.intercalate]
      rw [hcons]
      exact hpart.append (Ascii.append (by decide) (ih hparts))

theorem toChars_of_ascii (h : Ascii s) : toChars s = s.map fun u => Char.ofNat u.toNat := by
  induction s with
  | nil => rfl
  | cons u s ih =>
    obtain ⟨hu, hs⟩ := List.forall_mem_cons.1 h
    have hlow : u.toNat < 0x80 := UInt16.lt_iff_toNat_lt.1 hu
    rw [toChars_cons_of_not_surrogate (by simp [isHighSurrogate]; omega)
      (by simp [isLowSurrogate]; omega), ih hs, List.map_cons]

theorem toNat_ofNat_of_lt {n : ℕ} (h : n < 0x80) : (Char.ofNat n).toNat = n := by
  have hall : ∀ n < 0x80, (Char.ofNat n).toNat = n := by decide
  exact hall n h

theorem Ascii.whole (h : Ascii s) : Whole s := by
  rw [Whole, toChars_of_ascii h]
  induction s with
  | nil => rfl
  | cons u s ih =>
    obtain ⟨hu, hs⟩ := List.forall_mem_cons.1 h
    have hlow : u.toNat < 0x80 := UInt16.lt_iff_toNat_lt.1 hu
    rw [List.map_cons, ofChars_cons, ih hs, units_of_lt (by rw [toNat_ofNat_of_lt hlow]; omega),
      toNat_ofNat_of_lt hlow]
    simp

/-- A text of ASCII has as many bytes as units. -/
theorem length_utf8_of_ascii (h : Ascii s) : (Python.utf8 (toChars s)).length = s.length := by
  have hchars : ∀ c ∈ toChars s, c.toNat < 0x80 := by
    rw [toChars_of_ascii h]
    intro c hc
    obtain ⟨u, hu, rfl⟩ := List.mem_map.1 hc
    have hlow : u.toNat < 0x80 := UInt16.lt_iff_toNat_lt.1 (h u hu)
    rwa [toNat_ofNat_of_lt hlow]
  have hlength := Python.byteLength_of_ascii hchars
  rw [toChars_of_ascii h, List.length_map] at hlength
  rwa [toChars_of_ascii h]

end

end Kotlin
