import GoffyOs.Kotlin.JsonText
import GoffyOs.Kotlin.Units
import GoffyOs.Python.JsonSize

/-!
# The bytes of a string

`encodeToByteArray` and `toByteArray(Charsets.UTF_8)` of the JVM write a question mark for a surrogate
without its partner, and so does the WebSocket that a message is sent on.

* `encodedChars` are the characters that are written, and `encodedChars_append_of_not_surrogate` says
  where a string may be taken apart;
* `encodedChars_printQuoted`: `kotlinx.serialization` and Python's `json` quote a string alike, also
  one with halves of pairs.
-/

namespace Kotlin

/-- The characters that are encoded. -/
def encodedChars : Str → List Char
  | [] => []
  | [c] => [if isHighSurrogate c || isLowSurrogate c then '?' else Char.ofNat c.toNat]
  | c :: d :: s =>
    if isHighSurrogate c && isLowSurrogate d then
      Char.ofNat (0x10000 + (c.toNat - 0xd800) * 0x400 + (d.toNat - 0xdc00)) :: encodedChars s
    else
      (if isHighSurrogate c || isLowSurrogate c then '?' else Char.ofNat c.toNat) ::
        encodedChars (d :: s)

/-- `encodeToByteArray()`. -/
def toByteArray (s : Str) : Python.Bytes := Python.utf8 (encodedChars s)

variable {c : UInt16} {s t : Str}

theorem encodedChars_cons_of_not_surrogate (h : isHighSurrogate c = false)
    (l : isLowSurrogate c = false) : encodedChars (c :: s) = Char.ofNat c.toNat :: encodedChars s := by
  cases s with
  | nil => simp [encodedChars, h, l]
  | cons d s => simp [encodedChars, h, l]

theorem encodedChars_units_append (c : Char) (s : Str) :
    encodedChars (units c ++ s) = c :: encodedChars s := by
  have hvalid : c.toNat < 0xd800 ∨ 0xdfff < c.toNat ∧ c.toNat < 0x110000 := c.valid
  by_cases hn : c.toNat < 0x10000
  · have hunit := toNat_toUInt16 hn
    rw [units_of_lt hn, List.singleton_append, encodedChars_cons_of_not_surrogate, hunit,
      Char.ofNat_toNat]
    · simp only [isHighSurrogate, hunit, Bool.and_eq_false_iff, decide_eq_false_iff_not]
      omega
    · simp only [isLowSurrogate, hunit, Bool.and_eq_false_iff, decide_eq_false_iff_not]
      omega
  · have hhigh : (0xd800 + (c.toNat - 0x10000) / 0x400).toUInt16.toNat =
        0xd800 + (c.toNat - 0x10000) / 0x400 := toNat_toUInt16 (by omega)
    have hlow : (0xdc00 + (c.toNat - 0x10000) % 0x400).toUInt16.toNat =
        0xdc00 + (c.toNat - 0x10000) % 0x400 := toNat_toUInt16 (by omega)
    have hpair : (isHighSurrogate (0xd800 + (c.toNat - 0x10000) / 0x400).toUInt16 &&
        isLowSurrogate (0xdc00 + (c.toNat - 0x10000) % 0x400).toUInt16) = true := by
      simp only [isHighSurrogate, isLowSurrogate, hhigh, hlow, Bool.and_eq_true, decide_eq_true_eq]
      omega
    have hback : 0x10000 + (0xd800 + (c.toNat - 0x10000) / 0x400 - 0xd800) * 0x400 +
        (0xdc00 + (c.toNat - 0x10000) % 0x400 - 0xdc00) = c.toNat := by omega
    rw [units, if_neg hn, List.cons_append, List.singleton_append, encodedChars, if_pos hpair, hhigh,
      hlow, hback, Char.ofNat_toNat]

/-- A text of whole characters is encoded by them. -/
theorem encodedChars_ofChars (s : List Char) : encodedChars (ofChars s) = s := by
  induction s with
  | nil => rfl
  | cons c s ih => rw [ofChars_cons, encodedChars_units_append, ih]

theorem not_surrogate_of_lt (h : c < 0x80) :
    isHighSurrogate c = false ∧ isLowSurrogate c = false := by
  have hlow : c.toNat < 0x80 := UInt16.lt_iff_toNat_lt.1 h
  constructor
  · simp only [isHighSurrogate, Bool.and_eq_false_iff, decide_eq_false_iff_not]
    omega
  · simp only [isLowSurrogate, Bool.and_eq_false_iff, decide_eq_false_iff_not]
    omega

/-- A string comes apart before a unit that is no low surrogate. -/
theorem encodedChars_append_of_not_surrogate (l : isLowSurrogate c = false) (s t : Str) :
    encodedChars (s ++ c :: t) = encodedChars s ++ encodedChars (c :: t) := by
  fun_induction encodedChars s with
  | case1 => rfl
  | case2 d =>
    rw [List.singleton_append, encodedChars, if_neg (by simp [l])]
    rfl
  | case3 d e s hpair ih =>
    rw [List.cons_append, List.cons_append, encodedChars, if_pos hpair, ih]
    rfl
  | case4 d e s hpair ih =>
    rw [List.cons_append] at ih
    rw [List.cons_append, List.cons_append, encodedChars, if_neg hpair, ih]
    rfl

/-- A string of ASCII comes off its front. -/
theorem encodedChars_ascii_append (hs : Ascii s) (t : Str) :
    encodedChars (s ++ t) = encodedChars s ++ encodedChars t := by
  induction s with
  | nil => rfl
  | cons c s ih =>
    obtain ⟨hc, hs⟩ := List.forall_mem_cons.1 hs
    obtain ⟨h, l⟩ := not_surrogate_of_lt hc
    rw [List.cons_append, encodedChars_cons_of_not_surrogate h l,
      encodedChars_cons_of_not_surrogate h l, ih hs, List.cons_append]

/-! ### Quotes -/

/-- The escapes of ASCII are those of Python. -/
theorem escapeUnit_of_lt (h : c < 0x80) : Ascii (escapeUnit c) ∧
    encodedChars (escapeUnit c) = Python.escapeChar (Char.ofNat c.toNat) := by
  have hall : ∀ n < 0x80, Ascii (escapeUnit (UInt16.ofNat n)) ∧
      encodedChars (escapeUnit (UInt16.ofNat n)) = Python.escapeChar (Char.ofNat n) := by decide
  have := hall c.toNat (UInt16.lt_iff_toNat_lt.1 h)
  rwa [UInt16.ofNat_toNat] at this

theorem escapeUnit_of_ge (h : ¬ c < 0x80) : escapeUnit c = [c] := by
  have hnot : ∀ v : UInt16, v < 0x80 → c ≠ v := by
    rintro v hv rfl
    exact h hv
  have hlow : ¬ c < 0x20 := fun hlt => h (UInt16.lt_trans hlt (by decide))
  rw [escapeUnit, if_neg (by simp [hnot 0x22 (by decide), hnot 0x5c (by decide)]),
    if_neg (hnot _ (by decide)), if_neg (hnot _ (by decide)), if_neg (hnot _ (by decide)),
    if_neg (hnot _ (by decide)), if_neg (hnot _ (by decide)), if_neg hlow]

theorem escapeChar_of_ge {c : Char} (h : 0x80 ≤ c.toNat) : Python.escapeChar c = [c] := by
  refine Python.escapeChar_of_isPlain ?_
  have hnot : ∀ d : Char, d.toNat < 0x80 → c ≠ d := by
    rintro d hd rfl
    omega
  simp only [Python.isPlain, Bool.and_eq_true, decide_eq_true_eq]
  exact ⟨⟨by omega, hnot '"' (by decide)⟩, hnot '\\' (by decide)⟩

/-- The character of one unit. -/
def encodedUnit (c : UInt16) : Char :=
  if isHighSurrogate c || isLowSurrogate c then '?' else Char.ofNat c.toNat

/-- A unit that makes no pair with the next one is encoded by itself. -/
theorem encodedChars_cons (h : ∀ d, s.head? = some d → (isHighSurrogate c && isLowSurrogate d) = false) :
    encodedChars (c :: s) = encodedUnit c :: encodedChars s := by
  cases s with
  | nil => rfl
  | cons d s =>
    rw [encodedChars, if_neg (by simp [h d rfl])]
    rfl

theorem toNat_ofNat_of_valid {n : ℕ} (h : n < 0xd800 ∨ 0xdfff < n ∧ n < 0x110000) :
    (Char.ofNat n).toNat = n := by
  rw [Char.ofNat, dif_pos h]
  rfl

/-- The escapes of a unit are those of its character. -/
theorem encodedChars_escapeUnit (c : UInt16) :
    encodedChars (escapeUnit c) = Python.escapeChar (encodedUnit c) := by
  by_cases hc : c < 0x80
  · obtain ⟨h, l⟩ := not_surrogate_of_lt hc
    rw [(escapeUnit_of_lt hc).2, encodedUnit, h, l]
    rfl
  · have hge : 0x80 ≤ c.toNat := Nat.not_lt.1 fun hlt => hc (UInt16.lt_iff_toNat_lt.2 hlt)
    have hone : encodedChars [c] = [encodedUnit c] := rfl
    rw [escapeUnit_of_ge hc, hone]
    unfold encodedUnit
    split
    · rfl
    · rename_i hsurrogate
      rw [Bool.or_eq_true, not_or] at hsurrogate
      simp only [isHighSurrogate, isLowSurrogate, Bool.and_eq_true, decide_eq_true_eq] at hsurrogate
      have hlt := c.toNat_lt
      refine (escapeChar_of_ge ?_).symm
      rwa [toNat_ofNat_of_valid (by omega)]

/-- Escapes begin with a low surrogate only where the string does. -/
theorem head?_escaped {d e : UInt16} {s : Str}
    (h : ((d :: s).flatMap escapeUnit).head? = some e) : isLowSurrogate e = isLowSurrogate d := by
  by_cases hd : d < 0x80
  · have hascii := (escapeUnit_of_lt hd).1
    have hne : escapeUnit d ≠ [] := by
      intro hnil
      have := (escapeUnit_of_lt hd).2
      rw [hnil] at this
      exact Python.escapeChar_ne_nil _ this.symm
    rw [List.flatMap_cons, List.head?_append_of_ne_nil _ hne] at h
    rw [(not_surrogate_of_lt (hascii e (List.mem_of_head? h))).2, (not_surrogate_of_lt hd).2]
  · rw [List.flatMap_cons, escapeUnit_of_ge hd] at h
    rw [Option.some.inj h]

/-- One unit of a string, escaped, comes off its front. -/
theorem encodedChars_escaped_cons (h : ∀ d, s.head? = some d →
    (isHighSurrogate c && isLowSurrogate d) = false) :
    encodedChars ((c :: s).flatMap escapeUnit) =
      Python.escapeChar (encodedUnit c) ++ encodedChars (s.flatMap escapeUnit) := by
  rw [List.flatMap_cons, ← encodedChars_escapeUnit]
  by_cases hc : c < 0x80
  · exact encodedChars_ascii_append (escapeUnit_of_lt hc).1 _
  · rw [escapeUnit_of_ge hc, List.singleton_append, encodedChars_cons]
    · rfl
    · intro e he
      cases s with
      | nil => cases he
      | cons d s =>
        rw [head?_escaped he]
        exact h d rfl

/-- **Escaped strings.** What is written between the quotes is what Python writes there. -/
theorem encodedChars_escaped (s : Str) :
    encodedChars (s.flatMap escapeUnit) = (encodedChars s).flatMap Python.escapeChar := by
  fun_induction encodedChars s with
  | case1 => rfl
  | case2 c =>
    rw [encodedChars_escaped_cons (by simp)]
    rfl
  | case3 c d s hpair ih =>
    obtain ⟨hhigh, hlow⟩ := Bool.and_eq_true_iff.1 hpair
    simp only [isHighSurrogate, isLowSurrogate, Bool.and_eq_true, decide_eq_true_eq] at hhigh hlow
    have hc : ¬ c < 0x80 := fun hlt => by
      have := UInt16.lt_iff_toNat_lt.1 hlt
      simp at this
      omega
    have hd : ¬ d < 0x80 := fun hlt => by
      have := UInt16.lt_iff_toNat_lt.1 hlt
      simp at this
      omega
    have hchar : Python.escapeChar
        (Char.ofNat (0x10000 + (c.toNat - 0xd800) * 0x400 + (d.toNat - 0xdc00))) =
        [Char.ofNat (0x10000 + (c.toNat - 0xd800) * 0x400 + (d.toNat - 0xdc00))] := by
      refine escapeChar_of_ge ?_
      rw [toNat_ofNat_of_valid (by omega)]
      omega
    rw [List.flatMap_cons, List.flatMap_cons, escapeUnit_of_ge hc, escapeUnit_of_ge hd,
      List.singleton_append, List.singleton_append, encodedChars, if_pos hpair, ih,
      List.flatMap_cons, hchar]
    rfl
  | case4 c d s hpair ih =>
    rw [encodedChars_escaped_cons (by simpa using hpair), ih]
    rfl

/-- A string in quotes is what Python makes of its characters. -/
theorem encodedChars_printQuoted (s : Str) :
    encodedChars (printQuoted s) = Python.quote (encodedChars s) := by
  have hquote := not_surrogate_of_lt (c := 0x22) (by decide)
  rw [printQuoted, encodedChars_cons_of_not_surrogate hquote.1 hquote.2,
    encodedChars_append_of_not_surrogate hquote.2, encodedChars_escaped]
  rfl

/-- Parts with commas between them. -/
theorem encodedChars_commaJoin (parts : List Str) :
    encodedChars (commaJoin parts) = Python.commaJoin (parts.map encodedChars) := by
  have hcomma := not_surrogate_of_lt (c := 0x2c) (by decide)
  induction parts with
  | nil => rfl
  | cons part parts ih =>
    cases parts with
    | nil => simp [commaJoin, Python.commaJoin, List.intercalate]
    | cons part' parts =>
      have hcons : commaJoin (part :: part' :: parts) =
          part ++ 0x2c :: commaJoin (part' :: parts) := by
        simp [commaJoin, List.intercalate]
      rw [hcons, encodedChars_append_of_not_surrogate hcomma.2,
        encodedChars_cons_of_not_surrogate hcomma.1 hcomma.2, ih]
      rfl

end Kotlin
