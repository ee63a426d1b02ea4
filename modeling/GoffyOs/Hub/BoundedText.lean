import GoffyOs.Python.Text
import Mathlib.Data.List.DropRight

/-!
# Bounded texts of the Hub's tools

The tools clean a text before they answer with it: control characters become spaces, white space is
stripped from both ends, the rest is cut to a length, and what is left empty gets a name of its own.
`boundedText` is that function of the characters it replaces and of the name; each tool has its own.
-/

namespace GoffyHub

open Python

/-- `_bounded_text`, by the characters that become spaces and by the text in the place of an empty
one. -/
def boundedText (isReplaced : Char → Bool) (default value : Str) (limit : ℕ) : Str :=
  let sanitized := strip (value.map fun c => if isReplaced c then ' ' else c)
  if sanitized.take limit = [] then default else sanitized.take limit

/-- The characters below the space. -/
def isControl (c : Char) : Bool := c.toNat < 0x20

/-- The printable characters of ASCII. -/
def isPrintable (c : Char) : Bool := 0x20 ≤ c.toNat && c.toNat ≤ 0x7e

/-- A text of printable ASCII. -/
def Printable (s : Str) : Prop := ∀ c ∈ s, isPrintable c = true

instance (s : Str) : Decidable (Printable s) := List.decidableBAll _ s

section Printable

variable {c : Char} {s t : Str}

theorem isPrintable_iff : isPrintable c = true ↔ 0x20 ≤ c.toNat ∧ c.toNat ≤ 0x7e := by
  simp [isPrintable]

/-- The only white space among them is the space. -/
theorem isSpace_of_isPrintable (hc : isPrintable c = true) : isSpace c = true ↔ c = ' ' := by
  rw [isPrintable_iff] at hc
  constructor
  · intro h
    apply Char.toNat_inj.1
    show c.toNat = 0x20
    simp only [isSpace, Bool.or_eq_true, Bool.and_eq_true, decide_eq_true_eq, beq_iff_eq] at h
    omega
  · rintro rfl
    rfl

theorem Printable.append (hs : Printable s) (ht : Printable t) : Printable (s ++ t) := by
  intro c hc
  rcases List.mem_append.1 hc with hc | hc
  · exact hs c hc
  · exact ht c hc

theorem printable_natStr (n : ℕ) : Printable (natStr n) := by
  intro c hc
  have := toNat_of_mem_natStr hc
  rw [isPrintable_iff]
  omega

end Printable

section Bounded

variable {isReplaced : Char → Bool} {default value : Str} {limit : ℕ}

theorem length_boundedText (hdefault : default.length ≤ limit) :
    (boundedText isReplaced default value limit).length ≤ limit := by
  unfold boundedText
  dsimp only
  split
  · exact hdefault
  · exact List.length_take_le _ _

theorem boundedText_ne_nil (hdefault : default ≠ []) :
    boundedText isReplaced default value limit ≠ [] := by
  unfold boundedText
  dsimp only
  split
  · exact hdefault
  · assumption

/-- Where the characters of a bounded text come from. -/
theorem mem_boundedText {c : Char} (hc : c ∈ boundedText isReplaced default value limit) :
    c ∈ default ∨ c = ' ' ∨ c ∈ value ∧ isReplaced c = false := by
  unfold boundedText at hc
  dsimp only at hc
  split at hc
  · exact Or.inl hc
  · obtain ⟨d, hd, rfl⟩ := List.mem_map.1 (mem_of_mem_trim (List.mem_of_mem_take hc))
    by_cases hreplaced : isReplaced d = true
    · exact Or.inr (Or.inl (if_pos hreplaced))
    · rw [if_neg hreplaced]
      exact Or.inr (Or.inr ⟨hd, by simpa using hreplaced⟩)

theorem printable_boundedText (hdefault : Printable default) (hvalue : Printable value) :
    Printable (boundedText isReplaced default value limit) := by
  intro c hc
  rcases mem_boundedText hc with hc | rfl | ⟨hc, -⟩
  · exact hdefault c hc
  · decide
  · exact hvalue c hc

/-- A bounded text starts with no space. -/
theorem head_boundedText {c : Char} (hdefault : ∀ d, default.head? = some d → isSpace d = false)
    (hc : (boundedText isReplaced default value limit).head? = some c) : isSpace c = false := by
  unfold boundedText at hc
  dsimp only at hc
  split at hc
  · exact hdefault c hc
  case isFalse hne =>
    have hlimit : limit ≠ 0 := by
      rintro rfl
      exact hne List.take_zero
    rw [List.head?_take, if_neg hlimit] at hc
    exact trim_head hc

end Bounded

/-! ### Texts to be displayed -/

/-- A printable text of at most so many characters that starts with a visible one. -/
structure IsDisplayText (limit : ℕ) (s : Str) : Prop where
  printable : Printable s
  ne_nil : s ≠ []
  head : ∀ c, s.head? = some c → isSpace c = false
  length_le : s.length ≤ limit

section Display

variable {isReplaced : Char → Bool} {default value s : Str} {limit : ℕ}

theorem isDisplayText_boundedText (hdefault : IsDisplayText limit default) (hvalue : Printable value) :
    IsDisplayText limit (boundedText isReplaced default value limit) where
  printable := printable_boundedText hdefault.printable hvalue
  ne_nil := boundedText_ne_nil hdefault.ne_nil
  head _ := head_boundedText hdefault.head
  length_le := length_boundedText hdefault.length_le

/-- Bounding a text again changes it when it was cut at a space. -/
theorem boundedText_eq_self_iff (hreplaced : ∀ c, isPrintable c = true → isReplaced c = false)
    (hs : IsDisplayText limit s) :
    boundedText isReplaced default s limit = s ↔ s.getLast? ≠ some ' ' := by
  have hmap : (s.map fun c => if isReplaced c then ' ' else c) = s := by
    refine (List.map_congr_left fun c hc => ?_).trans (List.map_id s)
    rw [if_neg (by rw [hreplaced c (hs.printable c hc)]; exact Bool.false_ne_true), id_eq]
  have hdrop : s.dropWhile isSpace = s := by
    obtain ⟨c, t, rfl⟩ := List.exists_cons_of_ne_nil hs.ne_nil
    rw [List.dropWhile_cons_of_neg]
    rw [hs.head c rfl]
    exact Bool.false_ne_true
  have hstrip : strip s = s.rdropWhile isSpace := by rw [strip, trim, hdrop, List.rdropWhile]
  have hlength : (strip s).length ≤ limit := by
    rw [hstrip]
    exact (List.rdropWhile_prefix isSpace s).length_le.trans hs.length_le
  have hne : strip s ≠ [] := by
    intro hnil
    obtain ⟨c, t, rfl⟩ := List.exists_cons_of_ne_nil hs.ne_nil
    have hspace := List.rdropWhile_eq_nil_iff.1 (hstrip.symm.trans hnil) c List.mem_cons_self
    rw [hs.head c rfl] at hspace
    exact Bool.false_ne_true hspace
  have hbounded : boundedText isReplaced default s limit = strip s := by
    unfold boundedText
    rw [hmap]
    dsimp only
    rw [List.take_of_length_le hlength, if_neg hne]
  rw [hbounded, hstrip, List.rdropWhile_eq_self_iff, List.getLast?_eq_some_getLast hs.ne_nil]
  have hlast := isSpace_of_isPrintable (hs.printable _ (List.getLast_mem hs.ne_nil))
  constructor
  · intro h heq
    exact h hs.ne_nil (hlast.2 (Option.some.inj heq))
  · intro h _ hspace
    exact h (congrArg some (hlast.1 hspace))

end Display

end GoffyHub
