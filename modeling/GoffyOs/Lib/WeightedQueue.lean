import Mathlib.Algebra.BigOperators.Group.List.Basic
import Mathlib.Algebra.GroupWithZero.Nat
import Mathlib.Data.List.Basic

/-!
# Queues with a bound on their length and weight

A queue that takes elements at its end and drops elements at its front while it is too long or too
heavy. The weight is kept in a counter beside the queue, from which the weight of a dropped element
is subtracted.

* `evict` is the loop that drops elements. It fails when there is no element left to drop;
* `evict_push`: after an element was added that is not too heavy by itself, with a counter that is
  right, the loop does not fail, keeps the element and as many of those before it as fit, and leaves
  a counter that is right.
-/

namespace WeightedQueue

variable {α : Type*} (weight : α → ℕ)

/-- The weight of a queue. -/
def total (xs : List α) : ℕ := (xs.map weight).sum

/-- Drop elements at the front while the queue is too long or the counter too large. -/
def evict (maxCount maxWeight : ℕ) : List α → ℤ → Option (List α × ℤ)
  | [], counter => if (maxWeight : ℤ) < counter then none else some ([], counter)
  | x :: xs, counter =>
    if maxCount < (x :: xs).length ∨ (maxWeight : ℤ) < counter then
      evict maxCount maxWeight xs (counter - weight x)
    else some (x :: xs, counter)

variable {weight}

@[simp] theorem total_cons (x : α) (xs : List α) :
    total weight (x :: xs) = weight x + total weight xs := by simp [total]

@[simp] theorem total_append (xs ys : List α) :
    total weight (xs ++ ys) = total weight xs + total weight ys := by simp [total]

variable (weight) in
theorem evict_push {maxCount maxWeight : ℕ} (hcount : 0 < maxCount) {x : α}
    (hx : weight x ≤ maxWeight) (xs : List α) :
    ∃ ys, evict weight maxCount maxWeight (xs ++ [x]) (total weight (xs ++ [x])) =
        some (ys ++ [x], (total weight (ys ++ [x]) : ℤ)) ∧
      ys <:+ xs ∧ (ys ++ [x]).length ≤ maxCount ∧ total weight (ys ++ [x]) ≤ maxWeight := by
  induction xs with
  | nil =>
    have htotal : total weight [x] = weight x := by simp [total]
    have hfits : ¬ (maxCount < [x].length ∨ (maxWeight : ℤ) < weight x) := by
      rintro (h | h)
      · exact absurd h (Nat.not_lt.2 hcount)
      · omega
    refine ⟨[], ?_, List.suffix_rfl, hcount, by simpa [htotal] using hx⟩
    rw [List.nil_append, htotal, evict, if_neg hfits]
  | cons y xs ih =>
    by_cases hdrop : maxCount < (y :: (xs ++ [x])).length ∨
        (maxWeight : ℤ) < total weight (y :: (xs ++ [x]))
    · obtain ⟨ys, hys, hsuffix, hrest⟩ := ih
      refine ⟨ys, ?_, hsuffix.trans (List.suffix_cons y xs), hrest⟩
      have hcounter : ((total weight (y :: (xs ++ [x])) : ℕ) : ℤ) - weight y =
          total weight (xs ++ [x]) := by
        rw [total_cons]
        omega
      rw [List.cons_append, evict, if_pos hdrop, hcounter, hys]
    · refine ⟨y :: xs, ?_, List.suffix_rfl, ?_, ?_⟩
      · rw [List.cons_append, evict, if_neg hdrop]
      · rw [List.cons_append]
        omega
      · rw [List.cons_append]
        omega

end WeightedQueue
