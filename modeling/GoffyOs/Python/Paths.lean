import GoffyOs.Python.Text
import Mathlib.Data.List.DropRight

/-!
# Paths: `pathlib`

A `Path` is an absolute path, by its parts. A relative path is a text; `pathParts` are the parts that
`Path` makes of it, without the empty ones and without those that are a single dot.
-/

namespace Python

/-- An absolute path. -/
structure Path where
  parts : List Str
  deriving DecidableEq

/-- `Path.name`. -/
def Path.name (p : Path) : Str := p.parts.getLastD []

/-- The parts of a text, as a relative path. -/
def pathParts (s : Str) : List Str := (s.splitOn '/').filter fun part => part ≠ [] ∧ part ≠ ['.']

/-- `PurePath(s).name`. -/
def pathName (s : Str) : Str := (pathParts s).getLastD []

/-- `p / s` for a relative path. -/
def Path.join (p : Path) (s : Str) : Path := ⟨p.parts ++ pathParts s⟩

/-- `p.is_relative_to(root)`. -/
def Path.isRelativeTo (p root : Path) : Bool := root.parts.isPrefixOf p.parts

section Parts

variable {s t part : Str}

theorem splitOn_slash_cons (s : Str) : ('/' :: s).splitOn '/' = [] :: s.splitOn '/' := by
  rw [List.splitOn_cons_eq_if_modifyHead, if_pos (by simp)]

theorem splitOn_append_slash (s : Str) : (s ++ ['/']).splitOn '/' = s.splitOn '/' ++ [[]] := by
  induction s with
  | nil => rfl
  | cons c s ih =>
    rw [List.cons_append, List.splitOn_cons_eq_if_modifyHead, List.splitOn_cons_eq_if_modifyHead, ih]
    by_cases hc : c = '/'
    · rw [if_pos (by simpa using hc), if_pos (by simpa using hc), List.cons_append]
    · rw [if_neg (by simpa using hc), if_neg (by simpa using hc)]
      cases hs : s.splitOn '/' with
      | nil => exact absurd hs (List.splitOn_ne_nil _ _)
      | cons part parts => rfl

/-- A part has characters of the text, and no separators. -/
theorem mem_of_mem_splitOn {c d : Char} (hpart : part ∈ s.splitOn d) (hc : c ∈ part) :
    c ∈ s ∧ c ≠ d := by
  induction s generalizing part with
  | nil => exact absurd hc (by rw [List.mem_singleton.1 hpart]; exact List.not_mem_nil)
  | cons a s ih =>
    rw [List.splitOn_cons_eq_if_modifyHead] at hpart
    split at hpart
    · rcases List.mem_cons.1 hpart with rfl | hpart
      · exact absurd hc List.not_mem_nil
      · exact (ih hpart hc).imp_left (List.mem_cons_of_mem _)
    case isFalse hne =>
      obtain ⟨first, rest, hsplit⟩ := List.exists_cons_of_ne_nil (List.splitOn_ne_nil d s)
      rw [hsplit, List.modifyHead_cons] at hpart
      rw [hsplit] at ih
      rcases List.mem_cons.1 hpart with rfl | hpart
      · rcases List.mem_cons.1 hc with rfl | hc
        · exact ⟨List.mem_cons_self, by simpa using hne⟩
        · exact (ih List.mem_cons_self hc).imp_left (List.mem_cons_of_mem _)
      · exact (ih (List.mem_cons_of_mem _ hpart) hc).imp_left (List.mem_cons_of_mem _)

/-- The name of a path has characters of the path, and no slash. -/
theorem mem_of_mem_pathName {c : Char} (hc : c ∈ pathName s) : c ∈ s ∧ c ≠ '/' := by
  unfold pathName at hc
  rcases List.eq_nil_or_concat (pathParts s) with hnil | ⟨parts, part, hparts⟩
  · rw [hnil] at hc
    exact absurd hc List.not_mem_nil
  · rw [hparts, List.concat_eq_append, List.getLastD_concat] at hc
    have hpart : part ∈ pathParts s := by
      rw [hparts, List.concat_eq_append]
      exact List.mem_concat_self
    exact mem_of_mem_splitOn (List.mem_of_mem_filter hpart) hc

/-- Stripping slashes leaves parts of the text. -/
theorem mem_splitOn_of_mem_stripChars (h : part ∈ (stripChars ['/'] s).splitOn '/') :
    part ∈ s.splitOn '/' := by
  have hfront : ∀ t : Str, part ∈ (t.dropWhile fun c => ['/'].contains c).splitOn '/' →
      part ∈ t.splitOn '/' := by
    intro t
    induction t with
    | nil => exact id
    | cons c t ih =>
      intro hpart
      by_cases hc : c = '/'
      · subst hc
        rw [splitOn_slash_cons]
        exact List.mem_cons_of_mem _ (ih hpart)
      · rw [List.dropWhile_cons_of_neg (by simpa using hc)] at hpart
        exact hpart
  have hback : ∀ t : Str, part ∈ (t.rdropWhile fun c => ['/'].contains c).splitOn '/' →
      part ∈ t.splitOn '/' := by
    intro t
    induction t using List.reverseRecOn with
    | nil => exact id
    | append_singleton t c ih =>
      intro hpart
      by_cases hc : c = '/'
      · subst hc
        rw [splitOn_append_slash]
        rw [List.rdropWhile_concat_pos _ _ _ (by simp)] at hpart
        exact List.mem_append_left _ (ih hpart)
      · rw [List.rdropWhile_concat_neg _ _ _ (by simpa using hc)] at hpart
        exact hpart
  exact hfront s (hback _ h)

/-- A stripped text starts with no slash. -/
theorem head?_stripChars_slash (s : Str) : (stripChars ['/'] s).head? ≠ some '/' := by
  intro h
  exact absurd (trim_head h) (by decide)

end Parts

end Python
