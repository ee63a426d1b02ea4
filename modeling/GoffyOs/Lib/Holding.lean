import Mathlib.Data.List.Basic

/-!
# Resources that are held at most once

The entries of a list `l` (processes, requests) hold resources of a type `κ`. `taken` says which
resources are no longer free; it is kept apart from the list, since a resource can be used up without
being held. `Held` says that what is held is taken, and by one entry only. An entry that takes a free
resource keeps this (`Held.set`), as does an entry that is added without a resource (`Held.append`).
-/

variable {β κ : Type*}

/-- What the entries of `l` hold is taken, and no two entries hold the same. -/
structure Held (holds : β → κ → Prop) (taken : κ → Prop) (l : List β) : Prop where
  isTaken : ∀ {i : ℕ} {x k}, l[i]? = some x → holds x k → taken k
  unique : ∀ {i j : ℕ} {x y k}, l[i]? = some x → l[j]? = some y → holds x k → holds y k → i = j

namespace Held

variable {holds : β → κ → Prop} {taken taken' : κ → Prop} {l : List β}

theorem nil : Held holds taken ([] : List β) where
  isTaken h := by simp at h
  unique h := by simp at h

theorem mono (h : Held holds taken l) (hkeep : ∀ k, taken k → taken' k) : Held holds taken' l where
  isTaken hx hk := hkeep _ (h.isTaken hx hk)
  unique := h.unique

theorem append {x : β} (h : Held holds taken l) (hx : ∀ k, ¬ holds x k) :
    Held holds taken (l ++ [x]) := by
  have hold : ∀ {i : ℕ} {y k}, (l ++ [x])[i]? = some y → holds y k → l[i]? = some y := by
    intro i y k hy hk
    by_cases hi : i < l.length
    · rwa [List.getElem?_append_left hi] at hy
    · rw [List.getElem?_append_right (by omega)] at hy
      have : y = x := by
        have := List.mem_of_getElem? hy
        simpa using this
      exact (hx k (this ▸ hk)).elim
  exact ⟨fun hy hk => h.isTaken (hold hy hk) hk,
    fun hy hz hk hk' => h.unique (hold hy hk) (hold hz hk') hk hk'⟩

/-- An entry changes: what it holds now, it held before, or it was free. -/
theorem set {i : ℕ} {x x' : β} (h : Held holds taken l) (hx : l[i]? = some x)
    (hkeep : ∀ k, taken k → taken' k)
    (hnew : ∀ k, holds x' k → taken' k ∧ (holds x k ∨ ¬ taken k)) :
    Held holds taken' (l.set i x') := by
  have hi : i < l.length := (List.getElem?_eq_some_iff.1 hx).1
  have hget : ∀ {j : ℕ} {y}, (l.set i x')[j]? = some y → j = i ∧ y = x' ∨ j ≠ i ∧ l[j]? = some y := by
    intro j y hy
    rw [List.getElem?_set] at hy
    by_cases hj : i = j
    · rw [if_pos hj, if_pos hi] at hy
      exact Or.inl ⟨hj.symm, (Option.some.inj hy).symm⟩
    · rw [if_neg hj] at hy
      exact Or.inr ⟨Ne.symm hj, hy⟩
  -- no other entry holds what the changed one holds now
  have hother : ∀ {j : ℕ} {y k}, j ≠ i → l[j]? = some y → holds y k → ¬ holds x' k := by
    intro j y k hj hy hk hk'
    rcases (hnew k hk').2 with hold | hfree
    · exact hj (h.unique hy hx hk hold)
    · exact hfree (h.isTaken hy hk)
  constructor
  · intro j y k hy hk
    rcases hget hy with ⟨-, rfl⟩ | ⟨-, hy⟩
    · exact (hnew k hk).1
    · exact hkeep k (h.isTaken hy hk)
  · intro j j' y y' k hy hy' hk hk'
    rcases hget hy with ⟨hj, rfl⟩ | ⟨hj, hold⟩ <;> rcases hget hy' with ⟨hj', rfl⟩ | ⟨hj', hold'⟩
    · rw [hj, hj']
    · exact (hother hj' hold' hk' hk).elim
    · exact (hother hj hold hk hk').elim
    · exact h.unique hold hold' hk hk'

end Held
