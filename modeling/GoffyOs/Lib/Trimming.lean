import Mathlib.Data.List.TakeWhile

/-!
# Trimmed lists

The list without the elements at its two ends that satisfy `p`. Both sides of a link trim texts, each
with its own idea of white space.
-/

namespace Trimming

variable {α : Type*} {p : α → Bool} {s : List α}

/-- What is left when both ends are dropped. -/
def trimmed (p : α → Bool) (s : List α) : List α :=
  ((s.dropWhile p).reverse.dropWhile p).reverse

theorem mem_of_mem_trimmed {a : α} (h : a ∈ trimmed p s) : a ∈ s := by
  rw [trimmed, List.mem_reverse] at h
  have hrev := List.mem_reverse.1 ((List.dropWhile_sublist p).subset h)
  exact (List.dropWhile_sublist p).subset hrev

theorem length_trimmed_le (p : α → Bool) (s : List α) : (trimmed p s).length ≤ s.length := by
  rw [trimmed, List.length_reverse]
  have h := (List.dropWhile_sublist (l := (s.dropWhile p).reverse) p).length_le
  have h' := (List.dropWhile_sublist (l := s) p).length_le
  rw [List.length_reverse] at h
  exact h.trans h'

/-- Nothing is left exactly if all elements satisfy `p`. -/
theorem trimmed_eq_nil_iff : trimmed p s = [] ↔ ∀ a ∈ s, p a = true := by
  rw [trimmed, List.reverse_eq_nil_iff, List.dropWhile_eq_nil_iff]
  constructor
  · intro h
    by_contra hne
    -- the first element that is kept does not satisfy `p`
    have hkept : s.dropWhile p ≠ [] := fun hnil => hne (List.dropWhile_eq_nil_iff.1 hnil)
    have hhead := List.head_dropWhile_not p hkept
    rw [h _ (List.mem_reverse.2 (List.head_mem hkept))] at hhead
    cases hhead
  · intro h a ha
    exact h a ((List.dropWhile_sublist p).subset (List.mem_reverse.1 ha))

/-- What is left starts with an element that does not satisfy `p`. -/
theorem head?_trimmed {a : α} (h : (trimmed p s).head? = some a) : p a = false := by
  rw [trimmed, List.head?_reverse] at h
  -- the first element is the last one of the reversed list, and stays when its end is dropped
  obtain ⟨zs, hzs⟩ := List.dropWhile_suffix (l := (s.dropWhile p).reverse) p
  have hlast : (s.dropWhile p).reverse.getLast? = some a := by
    rw [← hzs, List.getLast?_append, h]
    rfl
  rw [List.getLast?_reverse] at hlast
  have hhead := List.head?_dropWhile_not p s
  rw [hlast] at hhead
  simpa using hhead

/-- A list whose ends do not satisfy `p` stays as it is. -/
theorem trimmed_of_ends (hhead : ∀ a, s.head? = some a → p a = false)
    (hlast : ∀ a, s.getLast? = some a → p a = false) : trimmed p s = s := by
  have hdrop : ∀ t : List α, (∀ a, t.head? = some a → p a = false) → t.dropWhile p = t := by
    intro t ht
    cases t with
    | nil => rfl
    | cons a t => rw [List.dropWhile_cons_of_neg (by simp [ht a rfl])]
  rw [trimmed, hdrop s hhead, hdrop s.reverse (by simpa using hlast), List.reverse_reverse]

/-- A first element that does not satisfy `p` stays the first one. -/
theorem trimmed_cons {a : α} (h : p a = false) : ∃ t, trimmed p (a :: s) = a :: t := by
  rw [trimmed, List.dropWhile_cons_of_neg (by rw [h]; exact Bool.false_ne_true), List.reverse_cons,
    List.dropWhile_append]
  split
  case isTrue => exact ⟨[], by rw [List.dropWhile_cons_of_neg (by rw [h]; exact Bool.false_ne_true)]; rfl⟩
  case isFalse => exact ⟨_, List.reverse_append⟩

theorem getLast?_trimmed {a : α} (h : (trimmed p s).getLast? = some a) : p a = false := by
  rw [trimmed, List.getLast?_reverse] at h
  have hhead := List.head?_dropWhile_not p (s.dropWhile p).reverse
  rw [h] at hhead
  simpa using hhead

end Trimming
