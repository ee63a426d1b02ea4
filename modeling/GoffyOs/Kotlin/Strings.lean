import GoffyOs.Kotlin.Text
import GoffyOs.Lib.Trimming
import Mathlib.Data.List.Infix

/-!
# Operations on strings

The operations of the standard library that the summaries of scanned texts use.

* `lowercase` is exact for the questions that are asked of it, which are about ASCII and white space:
  of the units beyond ASCII, only two have a lower case with ASCII in it;
* `replaceRuns` is `Regex("\\s+").replace(_, " ")`, for any idea of white space: on the JVM `\s` is
  the white space of ASCII, on Android that of Unicode.
-/

namespace Kotlin

/-- The lower case of a unit: the dotted capital I becomes an i and a dot, and the Kelvin sign a k. -/
def lowerUnit (c : UInt16) : Str :=
  if 0x41 ≤ c ∧ c ≤ 0x5a then [c + 0x20]
  else if c = 0x130 then [0x69, 0x307]
  else if c = 0x212a then [0x6b]
  else [c]

/-- `lowercase(Locale.US)`. -/
def lowercase (s : Str) : Str := s.flatMap lowerUnit

/-- `startsWith`. -/
def startsWith (s prefix' : Str) : Bool := prefix'.isPrefixOf s

/-- `contains`. -/
def contains (s pattern : Str) : Bool := s.tails.any fun t => pattern.isPrefixOf t

/-- `coerceIn`. -/
def coerceIn (n low high : ℕ) : ℕ := max low (min n high)

def space : UInt16 := 0x20

/-- The runs of white space after a unit that belongs to one (`inRun`) or does not. -/
def replaceRunsFrom (isSpace : UInt16 → Bool) : Bool → Str → Str
  | _, [] => []
  | inRun, c :: s =>
    if isSpace c then
      if inRun then replaceRunsFrom isSpace true s else space :: replaceRunsFrom isSpace true s
    else c :: replaceRunsFrom isSpace false s

/-- Every run of white space becomes one space. -/
def replaceRuns (isSpace : UInt16 → Bool) (s : Str) : Str := replaceRunsFrom isSpace false s

/-- The lines of a text from a line on of which these units have been read, the last one first. -/
def linesFrom : Str → Str → List Str
  | line, [] => [line.reverse]
  | line, 0x0d :: 0x0a :: s => line.reverse :: linesFrom [] s
  | line, c :: s =>
    if c = 0x0a ∨ c = 0x0d then line.reverse :: linesFrom [] s else linesFrom (c :: line) s

/-- `lineSequence()`. -/
def lineSequence (s : Str) : List Str := linesFrom [] s

/-! ### Lower case -/

theorem lowercase_append (s t : Str) : lowercase (s ++ t) = lowercase s ++ lowercase t :=
  List.flatMap_append

/-- ASCII has its lower case unit by unit. -/
theorem length_lowercase {s : Str} (h : ∀ c ∈ s, c < 0x80) : (lowercase s).length = s.length := by
  induction s with
  | nil => rfl
  | cons c s ih =>
    obtain ⟨hc, hs⟩ := List.forall_mem_cons.1 h
    have hne : c ≠ 0x130 ∧ c ≠ 0x212a := by
      constructor <;> rintro rfl <;> exact absurd hc (by decide)
    have hunit : (lowerUnit c).length = 1 := by
      rw [lowerUnit, if_neg hne.1, if_neg hne.2]
      split <;> rfl
    rw [lowercase, List.flatMap_cons, List.length_append, hunit, List.length_cons]
    have hrest : (s.flatMap lowerUnit).length = s.length := ih hs
    omega

/-! ### Parts of a string -/

theorem contains_iff {s pattern : Str} : contains s pattern = true ↔ pattern <:+: s := by
  rw [contains, List.any_eq_true]
  constructor
  · rintro ⟨t, ht, h⟩
    exact (List.isPrefixOf_iff_prefix.1 h).isInfix.trans ((List.mem_tails _ _).1 ht).isInfix
  · rintro ⟨u, v, rfl⟩
    refine ⟨pattern ++ v, ?_, List.isPrefixOf_iff_prefix.2 (List.prefix_append _ _)⟩
    rw [List.mem_tails, List.append_assoc]
    exact List.suffix_append _ _

/-- What the beginning of a string contains in lower case, the string contains. -/
theorem contains_lowercase_of_take {s pattern : Str} {n : ℕ}
    (h : contains (lowercase (s.take n)) pattern = true) : contains (lowercase s) pattern = true := by
  rw [contains_iff] at h ⊢
  rw [← List.take_append_drop n s, lowercase_append]
  exact h.trans (List.prefix_append _ _).isInfix

/-! ### Runs of white space -/

section Runs

variable {isSpace : UInt16 → Bool}

theorem length_replaceRunsFrom_le (inRun : Bool) (s : Str) :
    (replaceRunsFrom isSpace inRun s).length ≤ s.length := by
  induction s generalizing inRun with
  | nil => exact Nat.le_refl _
  | cons c s ih =>
    have htrue := ih true
    have hfalse := ih false
    rw [replaceRunsFrom, List.length_cons]
    split
    · split
      · omega
      · rw [List.length_cons]
        omega
    · rw [List.length_cons]
      omega

theorem length_replaceRuns_le (s : Str) : (replaceRuns isSpace s).length ≤ s.length :=
  length_replaceRunsFrom_le false s

theorem mem_of_mem_replaceRunsFrom {c : UInt16} {s : Str} {inRun : Bool}
    (h : c ∈ replaceRunsFrom isSpace inRun s) : c ∈ s ∨ c = space := by
  induction s generalizing inRun with
  | nil => exact absurd h List.not_mem_nil
  | cons d s ih =>
    have hrest : ∀ {inRun}, c ∈ replaceRunsFrom isSpace inRun s → c ∈ d :: s ∨ c = space :=
      fun hc => (ih hc).imp_left (List.mem_cons_of_mem d)
    rw [replaceRunsFrom] at h
    split at h
    · split at h
      · exact hrest h
      · rcases List.mem_cons.1 h with rfl | h
        · exact Or.inr rfl
        · exact hrest h
    · rcases List.mem_cons.1 h with rfl | h
      · exact Or.inl List.mem_cons_self
      · exact hrest h

theorem mem_of_mem_replaceRuns {c : UInt16} {s : Str} (h : c ∈ replaceRuns isSpace s) :
    c ∈ s ∨ c = space := mem_of_mem_replaceRunsFrom h

/-- No two units in succession are white space. -/
def NoRuns (isSpace : UInt16 → Bool) (s : Str) : Prop :=
  s.IsChain fun a b => ¬ (isSpace a = true ∧ isSpace b = true)

instance (s : Str) : Decidable (NoRuns isSpace s) :=
  inferInstanceAs (Decidable (List.IsChain _ _))

/-- A text keeps its length exactly if it has no run of more than one unit. -/
theorem length_replaceRunsFrom_eq_iff (inRun : Bool) (s : Str) :
    (replaceRunsFrom isSpace inRun s).length = s.length ↔
      (inRun = true → ∀ c, s.head? = some c → isSpace c = false) ∧ NoRuns isSpace s := by
  induction s generalizing inRun with
  | nil => simp [replaceRunsFrom, NoRuns]
  | cons c s ih =>
    have hle := @length_replaceRunsFrom_le isSpace true s
    have hchain : NoRuns isSpace (c :: s) ↔
        (isSpace c = true → ∀ d, s.head? = some d → isSpace d = false) ∧ NoRuns isSpace s := by
      cases s with
      | nil => simp [NoRuns]
      | cons d s => simp [NoRuns, List.isChain_cons_cons]
    rw [replaceRunsFrom, hchain]
    cases hc : isSpace c with
    | false => simp [hc, ih false]
    | true =>
      cases inRun with
      | false => simp [ih true]
      | true =>
        -- the first unit is dropped
        have hne : (replaceRunsFrom isSpace true s).length ≠ s.length + 1 := by omega
        simp [hc, hne]

theorem length_replaceRuns_eq_iff {s : Str} :
    (replaceRuns isSpace s).length = s.length ↔ NoRuns isSpace s := by
  rw [replaceRuns, length_replaceRunsFrom_eq_iff]
  simp

/-- A text with white space has a space after the replacement. -/
theorem space_mem_replaceRuns {s : Str} (h : ∃ c ∈ s, isSpace c = true) :
    space ∈ replaceRuns isSpace s := by
  induction s with
  | nil => simp at h
  | cons c s ih =>
    rw [replaceRuns, replaceRunsFrom]
    cases hc : isSpace c with
    | true => exact List.mem_cons_self
    | false =>
      obtain ⟨d, hd, hspace⟩ := h
      rcases List.mem_cons.1 hd with rfl | hd
      · rw [hc] at hspace
        cases hspace
      · exact List.mem_cons_of_mem _ (ih ⟨d, hd, hspace⟩)

/-- A text without white space stays as it is. -/
theorem replaceRuns_of_no_space {s : Str} (h : ∀ c ∈ s, isSpace c = false) :
    replaceRuns isSpace s = s := by
  induction s with
  | nil => rfl
  | cons c s ih =>
    obtain ⟨hc, hs⟩ := List.forall_mem_cons.1 h
    rw [replaceRuns, replaceRunsFrom, if_neg (by simp [hc])]
    exact congrArg (c :: ·) (ih hs)

end Runs

/-! ### Trimmed strings -/

theorem mem_of_mem_trim {c : UInt16} {s : Str} (h : c ∈ trim s) : c ∈ s :=
  Trimming.mem_of_mem_trimmed h

theorem head?_trim {c : UInt16} {s : Str} (h : (trim s).head? = some c) : isWhitespace c = false :=
  Trimming.head?_trimmed h

theorem trim_eq_nil_iff {s : Str} : trim s = [] ↔ isBlank s = true := by
  rw [isBlank, List.all_eq_true]
  exact Trimming.trimmed_eq_nil_iff

end Kotlin
