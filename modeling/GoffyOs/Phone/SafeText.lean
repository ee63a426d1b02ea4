import GoffyOs.Hub.BoundedText
import GoffyOs.Kotlin.Units
import GoffyOs.Phone.PhoneTools

/-!
# Texts of the Hub under the phone's checks

The contracts of `protocol/GoffyToolContracts.kt` look at the code units of a text. The lemmas here say
what they require of the characters that the Hub sent, and that printable ASCII meets it.
-/

namespace GoffyPhone

open Kotlin

def slash : UInt16 := 0x2f

/-- What the checks of relative paths share, by the parts that they refuse. -/
def isSafePath (s : Str) (isRefused : Str → Bool) : Bool :=
  s.head? ≠ some slash && !s.any isHiddenCharacter && !(s.splitOn slash).any isRefused

section Characters

variable {s : List Char} {c : Char} {n : ℕ}

theorem isHiddenCharacter_surrogate (u : UInt16) (hlow : 0xd800 ≤ u.toNat) (hhigh : u.toNat ≤ 0xdfff) :
    isHiddenCharacter u = false := by
  simp only [isHiddenCharacter, isISOControl, isFormat, Bool.or_eq_false_iff, Bool.and_eq_false_iff,
    decide_eq_false_iff_not, beq_eq_false_iff_ne]
  omega

theorem any_hidden_ofChars (s : List Char) :
    (ofChars s).any isHiddenCharacter = s.any (basic isHiddenCharacter) :=
  any_ofChars isHiddenCharacter_surrogate s

theorem isSafeDisplayField_ofChars : isSafeDisplayField (ofChars s) n = true ↔
    (∃ c ∈ s, basic isWhitespace c = false) ∧ (ofChars s).length ≤ n ∧
      ∀ c ∈ s, basic isHiddenCharacter c = false := by
  simp only [isSafeDisplayField, isBlank_ofChars, any_hidden_ofChars, Bool.and_eq_true,
    Bool.not_eq_true', decide_eq_true_eq, List.all_eq_false, List.any_eq_false, Bool.not_eq_true,
    and_assoc]

theorem isSafePath_ofChars {isRefused : Str → Bool} : isSafePath (ofChars s) isRefused = true ↔
    s.head? ≠ some '/' ∧ (∀ c ∈ s, basic isHiddenCharacter c = false) ∧
      ∀ part ∈ s.splitOn '/', isRefused (ofChars part) = false := by
  have hhead : (ofChars s).head? = some slash ↔ s.head? = some '/' :=
    head?_ofChars (d := '/') (by decide)
  have hsplit : (ofChars s).splitOn slash = (s.splitOn '/').map ofChars :=
    splitOn_ofChars (d := '/') (by decide) s
  rw [isSafePath, hsplit, any_hidden_ofChars]
  simp only [ne_eq, hhead, Bool.and_eq_true, Bool.not_eq_true', decide_eq_true_eq,
    List.any_eq_false, Bool.not_eq_true, List.mem_map, forall_exists_index, and_imp,
    forall_apply_eq_imp_iff₂, and_assoc]

/-- A text that the phone shows: its length in code units is in the bound, and it has no control and no
format character. -/
def IsShowable (limit : ℕ) (s : List Char) : Prop :=
  (ofChars s).length ≤ limit ∧ ∀ c ∈ s, basic isHiddenCharacter c = false

instance (limit : ℕ) (s : List Char) : Decidable (IsShowable limit s) :=
  @instDecidableAnd _ _ _ (List.decidableBAll _ s)

/-- What is white space on the phone is white space on the Hub. -/
theorem isSpace_of_basic_isWhitespace (h : basic isWhitespace c = true) :
    Python.isSpace c = true := by
  rw [basic, Bool.and_eq_true, decide_eq_true_iff] at h
  obtain ⟨hlt, h⟩ := h
  rw [isWhitespace, toNat_toUInt16 hlt] at h
  simp only [Python.isSpace, Bool.or_eq_true, Bool.and_eq_true, decide_eq_true_eq,
    beq_iff_eq] at h ⊢
  omega

end Characters

/-! ### Bounded texts -/

section Bounded

variable {isReplaced : Char → Bool} {default value : List Char} {limit n : ℕ}

/-- A bounded text is not blank. -/
theorem exists_visible_boundedText (hne : default ≠ [])
    (hdefault : ∀ c, default.head? = some c → Python.isSpace c = false) :
    ∃ c ∈ GoffyHub.boundedText isReplaced default value limit, basic isWhitespace c = false := by
  have hnotNil : GoffyHub.boundedText isReplaced default value limit ≠ [] :=
    GoffyHub.boundedText_ne_nil hne
  obtain ⟨c, t, hbounded⟩ := List.exists_cons_of_ne_nil hnotNil
  have hhead : Python.isSpace c = false :=
    GoffyHub.head_boundedText hdefault (by rw [hbounded]; rfl)
  refine ⟨c, by rw [hbounded]; exact List.mem_cons_self, ?_⟩
  by_contra hblank
  rw [isSpace_of_basic_isWhitespace (by simpa using hblank)] at hhead
  exact absurd hhead (by decide)

theorem isSafeDisplayField_boundedText (hne : default ≠ [])
    (hdefault : ∀ c, default.head? = some c → Python.isSpace c = false) :
    isSafeDisplayField (ofChars (GoffyHub.boundedText isReplaced default value limit)) n = true ↔
      IsShowable n (GoffyHub.boundedText isReplaced default value limit) :=
  isSafeDisplayField_ofChars.trans (and_iff_right (exists_visible_boundedText hne hdefault))

end Bounded

/-! ### Printable ASCII -/

section Printable

open GoffyHub

variable {s : List Char} {c : Char} {n : ℕ}

theorem lt_of_isPrintable (hc : isPrintable c = true) : c.toNat < 0x10000 := by
  rw [isPrintable_iff] at hc
  omega

theorem length_of_printable (hs : Printable s) : (ofChars s).length = s.length :=
  length_ofChars fun c hc => lt_of_isPrintable (hs c hc)

theorem basic_hidden_of_isPrintable (hc : isPrintable c = true) :
    basic isHiddenCharacter c = false := by
  have hlt := lt_of_isPrintable hc
  rw [isPrintable_iff] at hc
  rw [basic, Bool.and_eq_false_iff]
  right
  simp only [isHiddenCharacter, isISOControl, isFormat, toNat_toUInt16 hlt, Bool.or_eq_false_iff,
    Bool.and_eq_false_iff, decide_eq_false_iff_not, beq_eq_false_iff_ne]
  omega

/-- The only white space of printable ASCII is the space, for both sides. -/
theorem basic_whitespace_of_isPrintable (hc : isPrintable c = true) :
    basic isWhitespace c = Python.isSpace c := by
  have hlt := lt_of_isPrintable hc
  rw [Bool.eq_iff_iff, isSpace_of_isPrintable hc, basic, Bool.and_eq_true, isWhitespace,
    toNat_toUInt16 hlt]
  rw [isPrintable_iff] at hc
  constructor
  · rintro ⟨-, h⟩
    apply Char.toNat_inj.1
    show c.toNat = 0x20
    simp only [Bool.or_eq_true, Bool.and_eq_true, decide_eq_true_eq, beq_iff_eq] at h
    omega
  · rintro rfl
    decide

end Printable

end GoffyPhone

/-! ### Texts to be displayed -/

namespace GoffyHub.IsDisplayText

open GoffyPhone Kotlin

variable {s : List Char} {limit : ℕ}

/-- Its length is in the phone's bounds. -/
theorem length_ofChars (h : IsDisplayText limit s) :
    1 ≤ (ofChars s).length ∧ (ofChars s).length ≤ limit := by
  rw [length_of_printable h.printable]
  exact ⟨List.length_pos_iff.2 h.ne_nil, h.length_le⟩

theorem hidden_eq_false (h : IsDisplayText limit s) : ∀ c ∈ s, basic isHiddenCharacter c = false :=
  fun c hc => basic_hidden_of_isPrintable (h.printable c hc)

theorem exists_visible (h : IsDisplayText limit s) : ∃ c ∈ s, basic isWhitespace c = false := by
  obtain ⟨c, t, rfl⟩ := List.exists_cons_of_ne_nil h.ne_nil
  refine ⟨c, List.mem_cons_self, ?_⟩
  rw [basic_whitespace_of_isPrintable (h.printable c List.mem_cons_self)]
  exact h.head c rfl

/-- It is a display field. -/
theorem isSafeDisplayField (h : IsDisplayText limit s) :
    isSafeDisplayField (ofChars s) limit = true :=
  isSafeDisplayField_ofChars.2 ⟨h.exists_visible, h.length_ofChars.2, h.hidden_eq_false⟩

theorem isBlank_eq_false (h : IsDisplayText limit s) : isBlank (ofChars s) = false := by
  rw [isBlank_ofChars, List.all_eq_false]
  obtain ⟨c, hc, hvisible⟩ := h.exists_visible
  exact ⟨c, hc, by simp [hvisible]⟩

end GoffyHub.IsDisplayText
