import Mathlib.Data.List.Pairwise
import Mathlib.Data.List.Sort

/-!
# Ranked lists

A list is sorted by a decision `r`, which looks at several keys. What its readers rely on is the order
`le` of the first key alone: `r` decides for it where the keys differ, and `le` is reflexive where they
are equal. So `r` need not be an order.
-/

namespace Ranking

section

variable {α : Type} {r : α → α → Prop} [DecidableRel r] {le : α → α → Prop}
  (htrans : ∀ a b c, le a b → le b c → le a c) (hfirst : ∀ a b, r a b → le a b)
  (hlater : ∀ a b, ¬ r a b → le b a)

include htrans hfirst hlater in
theorem pairwise_orderedInsert (a : α) {l : List α} (h : l.Pairwise le) :
    (l.orderedInsert r a).Pairwise le := by
  induction l with
  | nil => exact List.pairwise_singleton le a
  | cons b l ih =>
    obtain ⟨hb, hl⟩ := List.pairwise_cons.1 h
    rw [List.orderedInsert_cons]
    split
    case isTrue hab =>
      have hle : le a b := hfirst a b hab
      exact List.pairwise_cons.2
        ⟨List.forall_mem_cons.2 ⟨hle, fun c hc => htrans a b c hle (hb c hc)⟩, h⟩
    case isFalse hab =>
      have hle : le b a := hlater a b hab
      refine List.pairwise_cons.2 ⟨fun c hc => ?_, ih hl⟩
      rcases (List.mem_orderedInsert _).1 hc with rfl | hc
      · exact hle
      · exact hb c hc

include htrans hfirst hlater in
/-- A sorted list is in the order of its first key. -/
theorem pairwise_insertionSort (l : List α) : (l.insertionSort r).Pairwise le := by
  induction l with
  | nil => exact List.Pairwise.nil
  | cons a l ih =>
    rw [List.insertionSort_cons]
    exact pairwise_orderedInsert htrans hfirst hlater a ih

end

/-- Of two members of a list, one stands before the other one. -/
theorem or_of_pairwise {α : Type} {r : α → α → Prop} {l : List α} (h : l.Pairwise r) {a b : α}
    (ha : a ∈ l) (hb : b ∈ l) (hne : a ≠ b) : r a b ∨ r b a := by
  have hsymm : Std.Symm fun a b => r a b ∨ r b a := ⟨fun _ _ => Or.symm⟩
  have hpair : l.Pairwise fun a b => r a b ∨ r b a := h.imp Or.inl
  exact hpair.forall ha hb hne

/-- The first `n` members of a list are those that fewer than `n` members stand before. -/
theorem mem_take_iff {α : Type} {lt : α → α → Prop} [DecidableRel lt] {l : List α}
    (hirrefl : ∀ a, ¬ lt a a) (hasymm : ∀ a b, lt a b → ¬ lt b a) (h : l.Pairwise lt) {n : ℕ}
    {a : α} : a ∈ l.take n ↔ a ∈ l ∧ (l.filter fun b => lt b a).length < n := by
  induction l generalizing n with
  | nil => simp
  | cons b l ih =>
    obtain ⟨hb, hl⟩ := List.pairwise_cons.1 h
    cases n with
    | zero => simp
    | succ n =>
      rw [List.take_succ_cons, List.mem_cons, List.mem_cons, ih hl, List.filter_cons]
      by_cases hmem : a ∈ l
      · -- `b` stands before `a`, and counts as one of the members before it
        have hlt : lt b a := hb a hmem
        have hne : a ≠ b := fun heq => hirrefl b (heq ▸ hlt)
        simp [hmem, hne, hlt]
      · have hnone : (l.filter fun c => lt c b) = [] := by
          rw [List.filter_eq_nil_iff]
          exact fun c hc => by simpa using hasymm b c (hb c hc)
        constructor
        · rintro (rfl | ⟨hal, -⟩)
          · simp [hirrefl, hnone]
          · exact absurd hal hmem
        · rintro ⟨heq | hal, -⟩
          · exact Or.inl heq
          · exact absurd hal hmem

/-- Neighbours in a list are in its order. -/
theorem of_mem_zip_tail {α : Type} {le : α → α → Prop} {l : List α} (h : l.Pairwise le) :
    ∀ p ∈ l.zip l.tail, le p.1 p.2 := by
  induction l with
  | nil => exact fun p hp => absurd hp List.not_mem_nil
  | cons a l ih =>
    obtain ⟨ha, hl⟩ := List.pairwise_cons.1 h
    cases l with
    | nil => exact fun p hp => absurd hp List.not_mem_nil
    | cons b l =>
      intro p hp
      rw [List.tail_cons, List.zip_cons_cons] at hp
      rcases List.mem_cons.1 hp with rfl | hp
      · exact ha b List.mem_cons_self
      · exact ih hl p hp

end Ranking
