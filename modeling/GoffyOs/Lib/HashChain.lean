import Mathlib.Data.List.Basic
import Mathlib.Data.List.Induction

/-!
# Hash chains

Entries of an arbitrary type carry the hash of their predecessor (`prev`) and their own hash
(`hash`); a chain is `Linked` from a start value when each entry names the hash of the one before
it. `tip` is the hash a chain ends with.

The chain commits to its past: if a second linked list ends with the hash of an honest chain, and
equal hashes mean equal entries, then the second list is a suffix of the chain (`suffix_of_tip`),
because no entry hashes to the value the chain starts from.
-/

namespace HashChain

variable {E H : Type*} (prev hash : E → H)

/-- Each entry names the hash of its predecessor, the first one the start value. -/
def Linked : H → List E → Prop
  | _, [] => True
  | h, e :: es => prev e = h ∧ Linked (hash e) es

/-- The hash a chain ends with, the start value for an empty one. -/
def tip : H → List E → H
  | h, [] => h
  | _, e :: es => tip (hash e) es

variable {prev hash}

@[simp] theorem tip_append_singleton (h : H) (es : List E) (e : E) :
    tip hash h (es ++ [e]) = hash e := by
  induction es generalizing h with
  | nil => rfl
  | cons x es ih => exact ih (hash x)

theorem tip_eq_getLast (hash : E → H) (h : H) {es : List E} (hne : es ≠ []) :
    tip hash h es = hash (es.getLast hne) := by
  obtain ⟨init, last, rfl⟩ := (List.eq_nil_or_concat' es).resolve_left hne
  rw [tip_append_singleton, List.getLast_append_singleton]

theorem getD_getLast? (h : H) (es : List E) : (es.getLast?.map hash).getD h = tip hash h es := by
  rcases List.eq_nil_or_concat' es with rfl | ⟨init, last, rfl⟩
  · rfl
  · simp

theorem linked_append {h : H} {es fs : List E} :
    Linked prev hash h (es ++ fs) ↔
      Linked prev hash h es ∧ Linked prev hash (tip hash h es) fs := by
  induction es generalizing h with
  | nil => simp [Linked, tip]
  | cons x es ih => simp only [List.cons_append, Linked, tip, ih, and_assoc]

theorem tip_append (h : H) (es fs : List E) :
    tip hash h (es ++ fs) = tip hash (tip hash h es) fs := by
  induction es generalizing h with
  | nil => rfl
  | cons x es ih => exact ih (hash x)

/-- **A tip commits to its chain.** A linked list with the tip of an honest chain is a suffix of
it. -/
theorem suffix_of_tip {start start' : H} {chain rows : List E}
    (hchain : Linked prev hash start chain) (hrows : Linked prev hash start' rows)
    (hinj : ∀ r ∈ rows, ∀ c ∈ chain, hash r = hash c → r = c)
    (hstart : ∀ r ∈ rows, hash r ≠ start) (hne : rows ≠ [])
    (htip : tip hash start' rows = tip hash start chain) : rows <:+ chain := by
  -- compare the lists from their last entries backwards
  induction rows using List.reverseRecOn generalizing chain with
  | nil => exact absurd rfl hne
  | append_singleton rs r ih =>
    rcases List.eq_nil_or_concat' chain with rfl | ⟨cs, c, rfl⟩
    · rw [tip_append_singleton] at htip
      exact absurd htip (hstart r (by simp))
    · rw [tip_append_singleton, tip_append_singleton] at htip
      obtain rfl : r = c := hinj r (by simp) c (by simp) htip
      rw [linked_append] at hchain hrows
      obtain ⟨hcs, hc, -⟩ := hchain
      obtain ⟨hrs, hr, -⟩ := hrows
      rcases eq_or_ne rs [] with rfl | hrs'
      · exact ⟨cs, rfl⟩
      · have hsuffix := ih hcs hrs (fun x hx y hy => hinj x (by simp [hx]) y (by simp [hy]))
          (fun x hx => hstart x (by simp [hx])) hrs' (hr.symm.trans hc)
        obtain ⟨front, rfl⟩ := hsuffix
        exact ⟨front, by simp⟩

end HashChain
