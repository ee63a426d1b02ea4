import Mathlib.Data.List.Basic
import Mathlib.Data.List.TakeWhile

/-!
# Bounded lists of recent items

A list of items that grows at its end and is cut down to its newest items, and in which one looks for
the newest item with some property.

* `takeLast n l`: the newest `n` items of `l`;
* `indexOfLast p l`: the place of the newest item that satisfies `p`. `indexOfLast_eq_some_iff`
  describes it by splitting the list there, and `set_length_append` is the write at that place.
-/

namespace Recent

variable {α β : Type*}

/-- The last `n` items. -/
def takeLast (n : ℕ) (l : List α) : List α := l.drop (l.length - n)

theorem takeLast_suffix (n : ℕ) (l : List α) : takeLast n l <:+ l := List.drop_suffix _ _

theorem mem_of_mem_takeLast {n : ℕ} {l : List α} {a : α} (h : a ∈ takeLast n l) : a ∈ l :=
  (takeLast_suffix n l).subset h

theorem length_takeLast_le (n : ℕ) (l : List α) : (takeLast n l).length ≤ n := by
  rw [takeLast, List.length_drop]
  omega

theorem takeLast_of_length_le {n : ℕ} {l : List α} (h : l.length ≤ n) : takeLast n l = l := by
  rw [takeLast, Nat.sub_eq_zero_of_le h, List.drop_zero]

theorem map_takeLast (f : α → β) (n : ℕ) (l : List α) :
    (takeLast n l).map f = takeLast n (l.map f) := by
  simp [takeLast]

/-- The newest item stays, and of the others one less than before. -/
theorem takeLast_concat (n : ℕ) (l : List α) (a : α) :
    takeLast (n + 1) (l ++ [a]) = takeLast n l ++ [a] := by
  have hle : l.length - n ≤ l.length := Nat.sub_le _ _
  rw [takeLast, List.length_append, List.length_singleton, Nat.add_sub_add_right,
    List.drop_append_of_le_length hle]
  rfl

/-- An end of the list that is short enough stays. -/
theorem mem_takeLast_append {n : ℕ} {pre post : List α} {a : α} (h : post.length ≤ n)
    (ha : a ∈ post) : a ∈ takeLast n (pre ++ post) := by
  have hle : (pre ++ post).length - n ≤ pre.length := by
    simp only [List.length_append]
    omega
  rw [takeLast, List.drop_append_of_le_length hle]
  exact List.mem_append_right _ ha

/-- With one more item, only the oldest item of a full list goes. -/
theorem mem_takeLast_concat {n : ℕ} {l : List α} {a b : α} (hlength : l.length ≤ n) (ha : a ∈ l) :
    a ∈ takeLast n (l ++ [b]) ∨ l.length = n ∧ l.head? = some a := by
  by_cases hfull : l.length = n
  · cases l with
    | nil => cases ha
    | cons c l =>
      rcases List.mem_cons.1 ha with rfl | ha
      · exact Or.inr ⟨hfull, rfl⟩
      · refine Or.inl ?_
        rw [show c :: l ++ [b] = [c] ++ (l ++ [b]) from rfl]
        refine mem_takeLast_append ?_ (List.mem_append_left _ ha)
        rw [List.length_append, List.length_singleton]
        rw [List.length_cons] at hfull
        omega
  · refine Or.inl ?_
    rw [takeLast_of_length_le (by rw [List.length_append, List.length_singleton]; omega)]
    exact List.mem_append_left _ ha

/-- Where a short end of the list is left whole, the cut is made before it. -/
theorem takeLast_append {n : ℕ} {pre post : List α} (h : post.length ≤ n) :
    takeLast n (pre ++ post) = takeLast (n - post.length) pre ++ post := by
  have hle : (pre ++ post).length - n ≤ pre.length := by
    rw [List.length_append]
    omega
  rw [takeLast, List.drop_append_of_le_length hle, takeLast, List.length_append]
  congr 2
  omega

/-- An end of the list that is short enough is an end of what is left. -/
theorem suffix_takeLast {n : ℕ} {l t : List α} (ht : t <:+ l) (h : t.length ≤ n) : t <:+ takeLast n l := by
  refine List.suffix_of_suffix_length_le ht (takeLast_suffix n l) ?_
  have hle := ht.length_le
  rw [takeLast, List.length_drop]
  omega

/-- A list is put behind another one, apart from what is there already, and the result is cut down to its
newest items. The list is a part of what is left, in its order, just if what was there already comes
first in both, and little enough comes after the first of it. -/
theorem sublist_takeLast_iff [DecidableEq α] {n : ℕ} {kept base : List α} (hbase : base.Nodup)
    (hn : kept.length ≤ n) :
    kept.Sublist (takeLast n (base ++ kept.filter (· ∉ base))) ↔
      kept = kept.filter (· ∈ base) ++ kept.filter (· ∉ base) ∧
        (kept.filter (· ∈ base)).Sublist base ∧
        (base.dropWhile (· ∉ kept)).length + (kept.filter (· ∉ base)).length ≤ n := by
  set others := kept.filter (· ∉ base) with hothers
  have hothersLe : others.length ≤ n := (List.length_filter_le _ _).trans hn
  have hothersNot : ∀ a ∈ others, a ∉ base := fun a ha => of_decide_eq_true (List.mem_filter.1 ha).2
  rw [takeLast_append hothersLe]
  constructor
  · intro h
    obtain ⟨first, second, rfl, hfirst, hsecond⟩ := List.sublist_append_iff.1 h
    have hfirstIn : ∀ a ∈ first, a ∈ base := fun a ha => mem_of_mem_takeLast (hfirst.subset ha)
    have hsecondNot : ∀ a ∈ second, a ∉ base := fun a ha => hothersNot a (hsecond.subset ha)
    have hshared : (first ++ second).filter (· ∈ base) = first := by
      rw [List.filter_append, List.filter_eq_self.2 fun a ha => decide_eq_true (hfirstIn a ha),
        List.filter_eq_nil_iff.2 fun a ha => by simpa using hsecondNot a ha, List.append_nil]
    have hrest : others = second := by
      rw [hothers, List.filter_append,
        List.filter_eq_nil_iff.2 fun a ha => by simpa using hfirstIn a ha,
        List.filter_eq_self.2 fun a ha => decide_eq_true (hsecondNot a ha), List.nil_append]
    refine ⟨(congrArg₂ (· ++ ·) hshared hrest).symm, ?_, ?_⟩
    · rw [hshared]
      exact hfirst.trans (takeLast_suffix _ _).sublist
    -- what is cut off has nothing of the list in it
    obtain ⟨pre, hpre⟩ := takeLast_suffix (n - others.length) base
    have hnodup := hbase
    rw [← hpre, List.nodup_append] at hnodup
    have hpreNot : ∀ a ∈ pre, decide (a ∉ first ++ second) = true := by
      intro a ha
      refine decide_eq_true fun hmem => ?_
      have hbaseMem : a ∈ base := hpre ▸ List.mem_append_left _ ha
      rcases List.mem_append.1 hmem with hmem | hmem
      · exact hnodup.2.2 a ha a (hfirst.subset hmem) rfl
      · exact hsecondNot a hmem hbaseMem
    have hdrop : (base.dropWhile (· ∉ first ++ second)).length ≤
        (takeLast (n - others.length) base).length := by
      conv_lhs => rw [← hpre]
      rw [List.dropWhile_append_of_pos hpreNot]
      exact (List.dropWhile_sublist _).length_le
    have htake := length_takeLast_le (n - others.length) base
    omega
  · rintro ⟨hsplit, hshared, hlength⟩
    have htail : base.dropWhile (· ∉ kept) <:+ takeLast (n - others.length) base :=
      suffix_takeLast (List.dropWhile_suffix _) (by omega)
    have hsharedTail : (kept.filter (· ∈ base)).Sublist (base.dropWhile (· ∉ kept)) := by
      have hparts : (kept.filter (· ∈ base)).Sublist
          (base.takeWhile (· ∉ kept) ++ base.dropWhile (· ∉ kept)) := by
        rw [List.takeWhile_append_dropWhile]
        exact hshared
      obtain ⟨before, after, heq, hbefore, hafter⟩ := List.sublist_append_iff.1 hparts
      have hnil : before = [] := by
        refine List.eq_nil_iff_forall_not_mem.2 fun a ha => ?_
        have hnot := List.mem_takeWhile_imp (hbefore.subset ha)
        exact of_decide_eq_true hnot (List.mem_of_mem_filter (heq ▸ List.mem_append_left _ ha))
      rw [hnil, List.nil_append] at heq
      rw [heq]
      exact hafter
    rw [hsplit]
    exact (hsharedTail.trans htail.sublist).append_right _

/-- The place of the last item that satisfies `p`. -/
def indexOfLast (p : α → Bool) : List α → Option ℕ
  | [] => none
  | a :: l =>
    match indexOfLast p l with
    | some i => some (i + 1)
    | none => if p a then some 0 else none

theorem indexOfLast_eq_none_iff {p : α → Bool} {l : List α} :
    indexOfLast p l = none ↔ ∀ a ∈ l, p a = false := by
  induction l with
  | nil => simp [indexOfLast]
  | cons a l ih =>
    cases h : indexOfLast p l with
    | none =>
      simp only [indexOfLast, h, List.forall_mem_cons, ← ih]
      cases p a <;> simp
    | some i =>
      have hl : ¬ ∀ b ∈ l, p b = false := by rw [← ih, h]; simp
      simp only [indexOfLast, h, List.forall_mem_cons, reduceCtorEq, false_iff]
      exact fun hall => hl hall.2

/-- The list, split at its last item that satisfies `p`. -/
theorem indexOfLast_eq_some_iff {p : α → Bool} {l : List α} {i : ℕ} :
    indexOfLast p l = some i ↔ ∃ pre a post, l = pre ++ a :: post ∧ pre.length = i ∧ p a = true ∧
      ∀ b ∈ post, p b = false := by
  induction l generalizing i with
  | nil => simp [indexOfLast]
  | cons a l ih =>
    cases h : indexOfLast p l with
    | none =>
      have hnone := indexOfLast_eq_none_iff.1 h
      simp only [indexOfLast, h]
      constructor
      · intro hi
        split at hi
        · rename_i ha
          cases hi
          exact ⟨[], a, l, rfl, rfl, ha, hnone⟩
        · cases hi
      · rintro ⟨pre, b, post, hl, rfl, hb, hpost⟩
        cases pre with
        | nil =>
          obtain ⟨rfl, rfl⟩ := List.cons.inj hl
          simp [hb]
        | cons c pre =>
          obtain ⟨rfl, rfl⟩ := List.cons.inj hl
          rw [hnone b (by simp)] at hb
          cases hb
    | some j =>
      simp only [indexOfLast, h, Option.some.injEq]
      obtain ⟨pre₀, b₀, post₀, rfl, rfl, hb₀, hpost₀⟩ := ih.1 h
      constructor
      · rintro rfl
        exact ⟨a :: pre₀, b₀, post₀, rfl, rfl, hb₀, hpost₀⟩
      · rintro ⟨pre, b, post, hl, rfl, hb, hpost⟩
        cases pre with
        | nil =>
          obtain ⟨rfl, rfl⟩ := List.cons.inj hl
          rw [hpost b₀ (by simp)] at hb₀
          cases hb₀
        | cons c pre =>
          obtain ⟨-, htail⟩ := List.cons.inj hl
          have hsome : indexOfLast p (pre₀ ++ b₀ :: post₀) = some pre.length :=
            ih.2 ⟨pre, b, post, htail, rfl, hb, hpost⟩
          rw [h, Option.some.injEq] at hsome
          rw [hsome, List.length_cons]

theorem indexOfLast_map {p : β → Bool} {f : α → β} {l : List α} :
    indexOfLast p (l.map f) = indexOfLast (fun a => p (f a)) l := by
  induction l with
  | nil => rfl
  | cons a l ih => simp only [List.map_cons, indexOfLast, ih]

/-- A write at the place where a list is split. -/
theorem set_length_append (pre post : List α) (a b : α) :
    (pre ++ a :: post).set pre.length b = pre ++ b :: post := by
  simp

end Recent
