import Mathlib.Data.List.Basic

/-!
# Substitution of matches

A `Matcher` says how long the match at a place in a text is, by what stands before the place and after it.
`sub` replaces the matches from left to right, and `search` says whether there is one.

* `Clears m m' r stop`: what is needed so that no match of `m'` is left when the matches of `m` have been
  replaced by `r`; `search_sub` is the conclusion;
* `searchFrom_append_sep`: a separator that no match goes over divides the search;
* `prefix_of_subFrom`: what has been copied.
-/

namespace Substitution

variable {α : Type}

/-- The length of the match before this text, after that element; there is none if it is 0. -/
abbrev Matcher (α : Type) := Option α → List α → ℕ

section

variable (m : Matcher α) (r : List α)

/-- There is a match in the text, that follows an element. -/
def searchFrom : Option α → List α → Bool
  | _, [] => false
  | p, a :: s => m p (a :: s) ≠ 0 || searchFrom (some a) s

/-- There is a match in the text. -/
def search (s : List α) : Bool := searchFrom m none s

/-- The text with its matches replaced; the first argument counts the elements of the last match that are
still to be skipped. -/
def subFrom : ℕ → Option α → List α → List α
  | _, _, [] => []
  | k + 1, _, a :: s => subFrom k (some a) s
  | 0, p, a :: s =>
    match m p (a :: s) with
    | 0 => a :: subFrom 0 (some a) s
    | n + 1 => r ++ subFrom n (some a) s

/-- The text with its matches replaced. -/
def sub (s : List α) : List α := subFrom m r 0 none s

end

variable {m m' : Matcher α} {r s : List α} {stop : α → Bool} {p p' : Option α}

theorem searchFrom_cons (m : Matcher α) (p : Option α) (a : α) (s : List α) :
    searchFrom m p (a :: s) = (decide (m p (a :: s) ≠ 0) || searchFrom m (some a) s) := rfl

theorem subFrom_cons_of_none {a : α} (h : m p (a :: s) = 0) :
    subFrom m r 0 p (a :: s) = a :: subFrom m r 0 (some a) s := by
  rw [subFrom, h]

theorem subFrom_cons_of_match {a : α} {n : ℕ} (h : m p (a :: s) = n + 1) :
    subFrom m r 0 p (a :: s) = r ++ subFrom m r n (some a) s := by
  rw [subFrom, h]

/-- What the text after replacements starts with is there, or it is the replacement of a match. -/
theorem head_subFrom {d : α} {t : List α} (hr : r ≠ []) (h : subFrom m r 0 p s = d :: t) :
    (∃ s', s = d :: s' ∧ t = subFrom m r 0 (some d) s') ∨ m p s ≠ 0 ∧ r.head? = some d := by
  cases s with
  | nil => cases h
  | cons a s =>
    cases hmatch : m p (a :: s) with
    | zero =>
      rw [subFrom_cons_of_none hmatch] at h
      obtain ⟨rfl, rfl⟩ := List.cons.inj h
      exact Or.inl ⟨s, rfl, rfl⟩
    | succ n =>
      rw [subFrom_cons_of_match hmatch] at h
      obtain ⟨b, r, rfl⟩ := List.exists_cons_of_ne_nil hr
      obtain ⟨rfl, -⟩ := List.cons.inj h
      exact Or.inr ⟨Nat.succ_ne_zero n, rfl⟩

/-- An element that no replacement starts with has been copied. -/
theorem copied_of_subFrom {d : α} {t : List α} (hr : r ≠ []) (hd : r.head? ≠ some d)
    (h : subFrom m r 0 p s = d :: t) : ∃ s', s = d :: s' ∧ t = subFrom m r 0 (some d) s' :=
  (head_subFrom hr h).resolve_right fun hmatch => hd hmatch.2

/-! ### No match is left -/

/-- Replacing the matches of `m` by `r` makes no matches of `m'`. -/
structure Clears (m m' : Matcher α) (r : List α) (stop : α → Bool) : Prop where
  /-- A match goes on to a stop or to the end. -/
  ends : ∀ p s, m p s ≠ 0 → ∀ a, (s.drop (m p s)).head? = some a → stop a = true
  /-- There are no matches from within the replacement on. -/
  inner : ∀ p u a v w, r = u ++ a :: v → m' p (a :: (v ++ w)) = 0
  /-- There are no matches from a stop on. -/
  atStop : ∀ p a s, stop a = true → m' p (a :: s) = 0
  /-- A match that starts with a copied element was there before. -/
  copied : ∀ p a s, m' p (a :: s) = 0 → m' p (a :: subFrom m r 0 (some a) s) = 0

/-- The search goes over a text in which no match starts. -/
theorem searchFrom_append {u w : List α}
    (h : ∀ p v a v', u = v ++ a :: v' → m' p (a :: (v' ++ w)) = 0) :
    ∃ p', searchFrom m' p (u ++ w) = searchFrom m' p' w := by
  induction u generalizing p with
  | nil => exact ⟨p, rfl⟩
  | cons a u ih =>
    obtain ⟨p', hrest⟩ := ih (p := some a) fun p v b v' hu => h p (a :: v) b v' (by rw [hu]; rfl)
    refine ⟨p', ?_⟩
    rw [List.cons_append, searchFrom_cons, h p [] a u rfl, hrest]
    rfl

/-- The place after a match, where its last element or the replacement's comes before. -/
def AfterMatch (stop : α → Bool) (k : ℕ) (s : List α) : Prop :=
  ∀ a, (s.drop k).head? = some a → stop a = true

theorem searchFrom_subFrom (h : Clears m m' r stop) (k : ℕ)
    (hplace : k = 0 ∧ p' = p ∨ AfterMatch stop k s) (hnone : m = m' ∨ searchFrom m' p s = false) :
    searchFrom m' p' (subFrom m r k p s) = false := by
  induction s generalizing k p p' with
  | nil =>
    cases k with
    | zero => rfl
    | succ k => rfl
  | cons a s ih =>
    have hrest : m = m' ∨ searchFrom m' (some a) s = false := by
      refine hnone.imp_right fun hsearch => ?_
      rw [searchFrom_cons, Bool.or_eq_false_iff] at hsearch
      exact hsearch.2
    cases k with
    | succ k =>
      have hafter : AfterMatch stop (k + 1) (a :: s) := hplace.resolve_left fun h => absurd h.1 (by simp)
      exact ih k (Or.inr hafter) hrest
    | zero =>
      cases hmatch : m p (a :: s) with
      | zero =>
        rw [subFrom_cons_of_none hmatch, searchFrom_cons, ih 0 (Or.inl ⟨rfl, rfl⟩) hrest, Bool.or_false]
        rcases hplace with ⟨-, rfl⟩ | hafter
        · -- the element is copied, and stands after the same element as before
          have hzero : m' p' (a :: s) = 0 := by
            rcases hnone with rfl | hsearch
            · exact hmatch
            · rw [searchFrom_cons, Bool.or_eq_false_iff] at hsearch
              simpa using hsearch.1
          simp [h.copied p' a s hzero]
        · simp [h.atStop p' a _ (hafter a rfl)]
      | succ n =>
        have hafter : AfterMatch stop n s := by
          have hends := h.ends p (a :: s) (by rw [hmatch]; exact Nat.succ_ne_zero n)
          rw [hmatch] at hends
          exact hends
        obtain ⟨q, hq⟩ := @searchFrom_append _ m' p' r
          (subFrom m r n (some a) s) fun p v b v' hr => h.inner p v b v' _ hr
        rw [subFrom_cons_of_match hmatch, hq]
        exact ih n (Or.inr hafter) hrest

/-- No match is left. -/
theorem search_sub (h : Clears m m' r stop) (hnone : m = m' ∨ search m' s = false) :
    search m' (sub m r s) = false :=
  searchFrom_subFrom h 0 (Or.inl ⟨rfl, rfl⟩) hnone

/-! ### Parts of a text -/

/-- No match goes over the separator. -/
structure Divides (m : Matcher α) (sep : α) : Prop where
  nil : ∀ p, m p [] = 0
  before : ∀ p s t, m p (s ++ sep :: t) ≠ 0 ↔ m p s ≠ 0
  after : ∀ s, m (some sep) s ≠ 0 ↔ m none s ≠ 0

theorem searchFrom_sep {sep : α} (h : Divides m sep) (s : List α) :
    searchFrom m (some sep) s = search m s := by
  cases s with
  | nil => rfl
  | cons a s => rw [search, searchFrom_cons, searchFrom_cons, decide_eq_decide.2 (h.after (a :: s))]

/-- There is a match in a text if there is one in its parts. -/
theorem searchFrom_append_sep {sep : α} (h : Divides m sep) (s t : List α) :
    searchFrom m p (s ++ sep :: t) = (searchFrom m p s || search m t) := by
  induction s generalizing p with
  | nil =>
    have hnone : ¬ m p (sep :: t) ≠ 0 := fun hmatch => (h.before p [] t).1 hmatch (h.nil p)
    rw [List.nil_append, searchFrom_cons, decide_eq_false hnone, searchFrom_sep h]
    rfl
  | cons a s ih =>
    have hsame := h.before p (a :: s) t
    rw [List.cons_append] at hsame ⊢
    rw [searchFrom_cons, searchFrom_cons, decide_eq_decide.2 hsame, ih, Bool.or_assoc]

/-! ### The beginning of a text -/

/-- Where no match begins, the text is copied. -/
theorem subFrom_append {u : List α} (h : ∀ p v a v', u = v ++ a :: v' → m p (a :: (v' ++ s)) = 0) :
    ∃ q, subFrom m r 0 p (u ++ s) = u ++ subFrom m r 0 q s := by
  induction u generalizing p with
  | nil => exact ⟨p, rfl⟩
  | cons a u ih =>
    obtain ⟨q, hrest⟩ := ih (p := some a) fun p v b v' hu => h p (a :: v) b v' (by rw [hu]; rfl)
    refine ⟨q, ?_⟩
    rw [List.cons_append, subFrom_cons_of_none (h p [] a u rfl), hrest]
    rfl

/-- A beginning in which no replacement starts has been copied. -/
theorem prefix_of_subFrom {u w : List α}
    (hu : ∀ v v', u = v ++ v' → v' ≠ [] → ¬ r <+: v' ++ w) (h : subFrom m r 0 p s = u ++ w) :
    ∃ q s', s = u ++ s' ∧ w = subFrom m r 0 q s' := by
  induction u generalizing p s with
  | nil => exact ⟨p, s, rfl, h.symm⟩
  | cons a u ih =>
    cases s with
    | nil => cases h
    | cons b s =>
      cases hmatch : m p (b :: s) with
      | zero =>
        rw [subFrom_cons_of_none hmatch] at h
        obtain ⟨rfl, hrest⟩ := List.cons.inj h
        obtain ⟨q, s', rfl, hw⟩ := ih (fun v v' huv hne => hu (b :: v) v' (by rw [huv]; rfl) hne) hrest
        exact ⟨q, s', rfl, hw⟩
      | succ n =>
        rw [subFrom_cons_of_match hmatch] at h
        exact absurd ⟨_, h⟩ (hu [] (a :: u) rfl (List.cons_ne_nil a u))

/-- The elements of a text after replacements. -/
theorem mem_of_mem_subFrom {b : α} {k : ℕ} (h : b ∈ subFrom m r k p s) : b ∈ r ∨ b ∈ s := by
  induction s generalizing k p with
  | nil =>
    cases k with
    | zero => exact absurd h List.not_mem_nil
    | succ k => exact absurd h List.not_mem_nil
  | cons a s ih =>
    cases k with
    | succ k => exact (ih h).imp_right (List.mem_cons_of_mem _)
    | zero =>
      cases hmatch : m p (a :: s) with
      | zero =>
        rw [subFrom_cons_of_none hmatch] at h
        rcases List.mem_cons.1 h with rfl | h
        · exact Or.inr List.mem_cons_self
        · exact (ih h).imp_right (List.mem_cons_of_mem _)
      | succ n =>
        rw [subFrom_cons_of_match hmatch] at h
        rcases List.mem_append.1 h with h | h
        · exact Or.inl h
        · exact (ih h).imp_right (List.mem_cons_of_mem _)

theorem subFrom_eq_nil_iff (hr : r ≠ []) : subFrom m r 0 p s = [] ↔ s = [] := by
  cases s with
  | nil => exact iff_of_true rfl rfl
  | cons a s =>
    refine iff_of_false ?_ (List.cons_ne_nil a s)
    cases hmatch : m p (a :: s) with
    | zero =>
      rw [subFrom_cons_of_none hmatch]
      exact List.cons_ne_nil _ _
    | succ n =>
      rw [subFrom_cons_of_match hmatch]
      exact List.append_ne_nil_of_left_ne_nil hr _

end Substitution
