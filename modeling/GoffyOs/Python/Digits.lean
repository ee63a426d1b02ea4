import GoffyOs.Python.Text

/-!
# Digits: `str.isdigit`

The digits of `str.isdigit` are more than those that `int` reads: superscripts and the numbers in circles
are digits too, but no decimal ones. `parseInt_isdigit_iff` says which texts of digits are numbers.
-/

namespace Python

/-- The digits that are not decimal (`Numeric_Type=Digit`). -/
def otherDigits : List (ℕ × ℕ) :=
  [(0xb2, 0xb3), (0xb9, 0xb9), (0x1369, 0x1371), (0x19da, 0x19da), (0x2070, 0x2070), (0x2074, 0x2079),
    (0x2080, 0x2089), (0x2460, 0x2468), (0x2474, 0x247c), (0x2488, 0x2490), (0x24ea, 0x24ea),
    (0x24f5, 0x24fd), (0x24ff, 0x24ff), (0x2776, 0x277e), (0x2780, 0x2788), (0x278a, 0x2792),
    (0x10a40, 0x10a43), (0x10e60, 0x10e68), (0x11052, 0x1105a), (0x1f100, 0x1f10a)]

/-- `str.isdecimal` of one character. -/
def isDecimal (c : Char) : Bool :=
  if c.toNat < 0x80 then c.isDigit
  else decimalZeros.any fun z => z ≤ c.toNat && c.toNat < z + 10

/-- `str.isdigit` of one character. -/
def isDigit (c : Char) : Bool :=
  isDecimal c || otherDigits.any fun r => r.1 ≤ c.toNat && c.toNat ≤ r.2

/-- `str.isdigit()`. -/
def isdigit (s : Str) : Bool := !s.isEmpty && s.all isDigit

section

variable {c : Char} {s : Str}

/-- A place in a list of code points, none of which is white space. -/
theorem isSpace_of_mem_starts {starts : List ℕ} (hstarts : ∀ n ∈ starts, ∀ k < 11, isSpace (Char.ofNat (n + k)) = false)
    {n : ℕ} (hn : n ∈ starts) (hlow : n ≤ c.toNat) (hhigh : c.toNat < n + 11) : isSpace c = false := by
  have h := hstarts n hn (c.toNat - n) (by omega)
  rwa [Nat.add_sub_cancel' hlow, Char.ofNat_toNat] at h

theorem isSpace_of_isDigit (h : isDigit c = true) : isSpace c = false := by
  have hdecimal : ∀ n ∈ 48 :: decimalZeros, ∀ k < 11, isSpace (Char.ofNat (n + k)) = false := by
    decide +kernel
  have hother : ∀ n ∈ otherDigits.map (·.1), ∀ k < 11, isSpace (Char.ofNat (n + k)) = false := by
    decide +kernel
  have hwidth : ∀ r ∈ otherDigits, r.2 < r.1 + 11 := by decide
  rw [isDigit, Bool.or_eq_true] at h
  rcases h with h | h
  · rw [isDecimal] at h
    split at h
    case isTrue =>
      have hrange : 48 ≤ c.toNat ∧ c.toNat ≤ 57 := by
        simpa [Char.isDigit, UInt32.le_iff_toNat_le] using h
      exact isSpace_of_mem_starts hdecimal List.mem_cons_self hrange.1 (by omega)
    case isFalse =>
      obtain ⟨z, hz, hzc⟩ := List.any_eq_true.1 h
      rw [Bool.and_eq_true, decide_eq_true_eq, decide_eq_true_eq] at hzc
      exact isSpace_of_mem_starts hdecimal (List.mem_cons_of_mem _ hz) hzc.1 (by omega)
  · obtain ⟨r, hr, hrc⟩ := List.any_eq_true.1 h
    rw [Bool.and_eq_true, decide_eq_true_eq, decide_eq_true_eq] at hrc
    have := hwidth r hr
    exact isSpace_of_mem_starts hother (List.mem_map_of_mem hr) hrc.1 (by omega)

/-- What number parsing makes of a decimal digit. -/
theorem toAsciiNumeral_of_isDecimal (h : isDecimal c = true) :
    ∃ d < 10, toAsciiNumeral c = Positional.digitChar d := by
  have hspace : isSpace c = false := isSpace_of_isDigit (by rw [isDigit, h, Bool.true_or])
  rw [isDecimal] at h
  split at h
  case isTrue hascii =>
    have hrange : 48 ≤ c.toNat ∧ c.toNat ≤ 57 := by
      simpa [Char.isDigit, UInt32.le_iff_toNat_le] using h
    refine ⟨c.toNat - 48, by omega, ?_⟩
    have hdigit : ∀ d < 10, Char.ofNat (48 + d) = Positional.digitChar d := by decide
    rw [toAsciiNumeral, if_pos (by omega), ← hdigit _ (by omega), Nat.add_sub_cancel' hrange.1,
      Char.ofNat_toNat]
  case isFalse hascii =>
    rw [toAsciiNumeral, if_neg (by omega), if_neg (by rw [hspace]; decide)]
    cases hfind : decimalZeros.find? fun z => z ≤ c.toNat && c.toNat < z + 10 with
    | none =>
      obtain ⟨z, hz, hzc⟩ := List.any_eq_true.1 h
      exact absurd hzc (List.find?_eq_none.1 hfind z hz)
    | some z =>
      have hzc := List.find?_some hfind
      rw [Bool.and_eq_true, decide_eq_true_eq, decide_eq_true_eq] at hzc
      exact ⟨c.toNat - z, by omega, rfl⟩

/-- What it makes of another digit is part of no number. -/
theorem toAsciiNumeral_of_not_isDecimal (h : isDigit c = true) (hdecimal : isDecimal c = false) :
    toAsciiNumeral c = '?' := by
  have hspace := isSpace_of_isDigit h
  have hbeyond : 0x80 ≤ c.toNat := by
    rw [isDigit, hdecimal, Bool.false_or] at h
    have hlow : ∀ r ∈ otherDigits, 0x80 ≤ r.1 := by decide
    obtain ⟨r, hr, hrc⟩ := List.any_eq_true.1 h
    rw [Bool.and_eq_true, decide_eq_true_eq, decide_eq_true_eq] at hrc
    exact (hlow r hr).trans hrc.1
  rw [isDecimal, if_neg (by omega)] at hdecimal
  have hfind : decimalZeros.find? (fun z => z ≤ c.toNat && c.toNat < z + 10) = none :=
    List.find?_eq_none.2 fun z hz hzc => by
      rw [List.any_eq_true.2 ⟨z, hz, hzc⟩] at hdecimal
      cases hdecimal
  rw [toAsciiNumeral, if_neg (by omega), if_neg (by rw [hspace]; decide), hfind]

theorem digitVal?_of_readUnderscored {b : ℕ} {ds : List ℕ} (h : readUnderscored b s = some ds) :
    ∀ c ∈ s, c = '_' ∨ Positional.digitVal? c ≠ none := by
  have hread : ∀ c d, (Positional.digitVal? c).filter (· < b) = some d → Positional.digitVal? c ≠ none := by
    intro c d hd hnone
    rw [hnone] at hd
    cases hd
  induction s using readUnderscored.induct generalizing ds with
  | case1 => exact fun c hc => absurd hc List.not_mem_nil
  | case2 c =>
    intro c' hc'
    rw [List.mem_singleton] at hc'
    subst hc'
    rw [readUnderscored, Option.map_eq_some_iff] at h
    obtain ⟨d, hd, -⟩ := h
    exact Or.inr (hread _ d hd)
  | case3 c cs ih =>
    rw [readUnderscored] at h
    obtain ⟨d, hd, hrest⟩ := Option.bind_eq_some_iff.1 h
    obtain ⟨ds', hds', -⟩ := Option.bind_eq_some_iff.1 hrest
    intro c' hc'
    rcases List.mem_cons.1 hc' with rfl | hc'
    · exact Or.inr (hread _ d hd)
    · rcases List.mem_cons.1 hc' with rfl | hc'
      · exact Or.inl rfl
      · exact ih hds' c' hc'
  | case4 c c' cs hne ih =>
    rw [readUnderscored.eq_4 _ _ _ _ hne] at h
    obtain ⟨d, hd, hrest⟩ := Option.bind_eq_some_iff.1 h
    obtain ⟨ds', hds', -⟩ := Option.bind_eq_some_iff.1 hrest
    intro e he
    rcases List.mem_cons.1 he with rfl | he
    · exact Or.inr (hread _ d hd)
    · exact ih hds' e he

/-- **Digits that are no number.** `int` reads a text of digits if and only if all of them are decimal and
there are not too many. -/
theorem parseInt_isdigit_iff (h : isdigit s = true) :
    (parseInt 10 s).isSome = true ↔ (∀ c ∈ s, isDecimal c = true) ∧ s.length ≤ 4300 := by
  rw [isdigit, Bool.and_eq_true, Bool.not_eq_true', List.isEmpty_eq_false_iff, List.all_eq_true] at h
  obtain ⟨hne, hall⟩ := h
  by_cases hdecimal : ∀ c ∈ s, isDecimal c = true
  · -- the text is written with the ASCII digits first
    have hdigits : ∃ ds : List ℕ, ds.length = s.length ∧ (∀ d ∈ ds, d < 10) ∧
        s.map toAsciiNumeral = ds.map Positional.digitChar := by
      clear hne hall
      induction s with
      | nil => exact ⟨[], rfl, by simp, rfl⟩
      | cons c s ih =>
        obtain ⟨d, hd, hc⟩ := toAsciiNumeral_of_isDecimal (hdecimal c List.mem_cons_self)
        obtain ⟨ds, hlength, hds, hs⟩ := ih fun c' hc' => hdecimal c' (List.mem_cons_of_mem _ hc')
        refine ⟨d :: ds, by rw [List.length_cons, hlength, List.length_cons], ?_, ?_⟩
        · exact List.forall_mem_cons.2 ⟨hd, hds⟩
        · rw [List.map_cons, hc, hs, List.map_cons]
    obtain ⟨ds, hlength, hds, hs⟩ := hdigits
    have hds_ne : ds ≠ [] := by
      rintro rfl
      exact hne (List.length_eq_zero_iff.1 hlength.symm)
    have hagain : (ds.map Positional.digitChar).map toAsciiNumeral = ds.map Positional.digitChar := by
      rw [List.map_map]
      exact List.map_congr_left fun d hd => (digitChar_plain (lt_trans (hds d hd) (by decide))).1
    have hparse : parseInt 10 s = parseInt 10 (ds.map Positional.digitChar) := by
      rw [parseInt, parseInt, hs, hagain]
    rw [hparse, parseInt_digits_eq (by decide) hds_ne hds, hlength]
    split
    case isTrue hlong => exact iff_of_false (by simp) fun hshort => absurd hshort.2 (not_le.2 hlong.2)
    case isFalse hshort => exact iff_of_true rfl ⟨hdecimal, not_lt.1 fun hlong => hshort ⟨rfl, hlong⟩⟩
  · refine iff_of_false ?_ fun h => hdecimal h.1
    rw [not_forall₂] at hdecimal
    obtain ⟨c, hc, hother⟩ := hdecimal
    rw [Bool.not_eq_true] at hother
    have hmark : '?' ∈ s.map toAsciiNumeral :=
      toAsciiNumeral_of_not_isDecimal (hall c hc) hother ▸ List.mem_map_of_mem hc
    have hplain : ∀ c' ∈ s.map toAsciiNumeral, isNumberSpace c' = false ∧ c' ≠ '-' ∧ c' ≠ '+' := by
      intro c' hc'
      obtain ⟨e, he, rfl⟩ := List.mem_map.1 hc'
      cases hdec : isDecimal e with
      | true =>
        obtain ⟨d, hd, heq⟩ := toAsciiNumeral_of_isDecimal hdec
        rw [heq]
        have hplain := digitChar_plain (lt_trans hd (by decide : 10 < 16))
        exact ⟨hplain.2.1, fun h => hplain.2.2 (by simp [h]), fun h => hplain.2.2 (by simp [h])⟩
      | false =>
        rw [toAsciiNumeral_of_not_isDecimal (hall e he) hdec]
        decide
    have htrim : trim isNumberSpace (s.map toAsciiNumeral) = s.map toAsciiNumeral :=
      trim_eq_self fun c' hc' => (hplain c' hc').1
    have hsign : (splitSign (s.map toAsciiNumeral)).2 = s.map toAsciiNumeral := by
      cases hs : s.map toAsciiNumeral with
      | nil => rfl
      | cons a t =>
        have ha := hplain a (hs ▸ List.mem_cons_self)
        unfold splitSign
        split
        · rename_i heq
          exact absurd (List.cons.inj heq).1 ha.2.1
        · rename_i heq
          exact absurd (List.cons.inj heq).1 ha.2.2
        · rfl
    have hradix : ∀ t : Str, dropRadix 10 t = t := by
      intro t
      unfold dropRadix
      split
      · rw [if_neg (by rintro ⟨h, -⟩; cases h)]
      · rfl
    have hnone : readUnderscored 10 (s.map toAsciiNumeral) = none := by
      cases hread : readUnderscored 10 (s.map toAsciiNumeral) with
      | none => rfl
      | some ds =>
        have := digitVal?_of_readUnderscored hread '?' hmark
        exact absurd this (by decide)
    rw [parseInt, htrim, hsign, hradix, hnone]
    exact Bool.false_ne_true

end

end Python
