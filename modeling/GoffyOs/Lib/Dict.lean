import Mathlib.Data.List.Induction
import Mathlib.Data.List.Nodup

/-!
# Insertion-ordered dictionaries

`Dict κ ν` is a finite map that remembers the order in which its keys were first set, as Python's
`dict` does. The keys of the entries are distinct by construction.

* `get?`, `set`, `pop`, `filter` and `mapValues` are the operations; `get?_set`, `get?_pop`,
  `get?_filter` and `get?_mapValues` describe them through `get?`, which is all that proofs about
  contents use;
* `size_set_le`, `size_pop_le` and `size_filter_le` bound the number of entries.
-/

/-- A dictionary with keys in `κ` and values in `ν`. -/
structure Dict (κ ν : Type*) where
  entries : List (κ × ν)
  nodup : (entries.map Prod.fst).Nodup

namespace Dict

variable {κ ν : Type*} [DecidableEq κ]

def empty : Dict κ ν := ⟨[], List.nodup_nil⟩

def size (d : Dict κ ν) : ℕ := d.entries.length

/-- `d.get(k)`. -/
def get? (d : Dict κ ν) (k : κ) : Option ν := (d.entries.find? (·.1 = k)).map Prod.snd

/-- `d[k] = v`. A key that is present keeps its place. -/
def set (d : Dict κ ν) (k : κ) (v : ν) : Dict κ ν :=
  if h : k ∈ d.entries.map Prod.fst then
    { entries := d.entries.map fun e => if e.1 = k then (k, v) else e
      nodup := by
        rw [List.map_map]
        convert d.nodup using 2
        funext e
        simp only [Function.comp_apply]
        split
        · rename_i he
          exact he.symm
        · rfl }
  else
    { entries := d.entries ++ [(k, v)]
      nodup := by
        rw [List.map_append, List.nodup_append]
        refine ⟨d.nodup, List.nodup_singleton _, ?_⟩
        rintro a ha b hb rfl
        obtain rfl := List.mem_singleton.1 hb
        exact h ha }

/-- `d.pop(k, None)`. -/
def pop (d : Dict κ ν) (k : κ) : Dict κ ν where
  entries := d.entries.filter (·.1 ≠ k)
  nodup := d.nodup.sublist (List.filter_sublist.map _)

/-- The entries that satisfy `p`. -/
def filter (d : Dict κ ν) (p : κ → ν → Bool) : Dict κ ν where
  entries := d.entries.filter fun e => p e.1 e.2
  nodup := d.nodup.sublist (List.filter_sublist.map _)

/-- The same keys, in their order, with other values. -/
def mapValues {μ : Type*} (d : Dict κ ν) (f : ν → μ) : Dict κ μ where
  entries := d.entries.map fun e => (e.1, f e.2)
  nodup := by
    rw [List.map_map]
    exact d.nodup

variable {d : Dict κ ν} {k k' : κ} {v v' : ν}

theorem get?_eq_some_iff : d.get? k = some v ↔ (k, v) ∈ d.entries := by
  constructor
  · intro h
    obtain ⟨⟨k', v'⟩, hfind, rfl⟩ := Option.map_eq_some_iff.1 h
    have hk : k' = k := by simpa using List.find?_some hfind
    rw [← hk]
    exact List.mem_of_find?_eq_some hfind
  · intro h
    cases hfind : d.entries.find? (·.1 = k) with
    | none =>
      have := List.find?_eq_none.1 hfind (k, v) h
      simp at this
    | some e =>
      have hk : e.1 = k := by simpa using List.find?_some hfind
      have he : e = (k, v) :=
        List.inj_on_of_nodup_map d.nodup (List.mem_of_find?_eq_some hfind) h hk
      rw [get?, hfind, he]
      rfl

@[simp] theorem get?_empty : (empty : Dict κ ν).get? k = none := rfl

theorem mem_keys_iff : k ∈ d.entries.map Prod.fst ↔ ∃ v, d.get? k = some v := by
  simp [get?_eq_some_iff]

theorem mem_entries_set {e : κ × ν} :
    e ∈ (d.set k v).entries ↔ e = (k, v) ∨ e ∈ d.entries ∧ e.1 ≠ k := by
  unfold set
  split
  · rename_i hk
    obtain ⟨e₀, he₀, rfl⟩ := List.mem_map.1 hk
    constructor
    · intro he
      obtain ⟨old, hold, rfl⟩ := List.mem_map.1 he
      split
      · exact Or.inl rfl
      · rename_i hne
        exact Or.inr ⟨hold, hne⟩
    · rintro (rfl | ⟨he, hne⟩)
      · exact List.mem_map.2 ⟨e₀, he₀, if_pos rfl⟩
      · exact List.mem_map.2 ⟨e, he, if_neg hne⟩
  · rename_i hk
    have hne : ∀ e ∈ d.entries, e.1 ≠ k := by
      rintro e he rfl
      exact hk (List.mem_map_of_mem he)
    simp only [List.mem_append, List.mem_singleton]
    constructor
    · rintro (he | rfl)
      · exact Or.inr ⟨he, hne e he⟩
      · exact Or.inl rfl
    · rintro (rfl | ⟨he, -⟩)
      · exact Or.inr rfl
      · exact Or.inl he

theorem get?_set : (d.set k v).get? k' = if k = k' then some v else d.get? k' := by
  ext w
  rw [get?_eq_some_iff, mem_entries_set]
  split
  · rename_i h
    simp [h, eq_comm]
  · rename_i h
    simp [Ne.symm h, get?_eq_some_iff]

theorem get?_pop : (d.pop k).get? k' = if k = k' then none else d.get? k' := by
  ext w
  rw [get?_eq_some_iff]
  split
  · rename_i h
    simp [pop, h]
  · rename_i h
    simp [pop, Ne.symm h, get?_eq_some_iff]

theorem get?_of_get?_pop (h : (d.pop k).get? k' = some v) : d.get? k' = some v := by
  rw [get?_pop] at h
  split at h
  · cases h
  · exact h

theorem get?_filter {p : κ → ν → Bool} : (d.filter p).get? k = (d.get? k).filter (p k) := by
  ext w
  simp [get?_eq_some_iff, filter, Option.filter_eq_some_iff]

theorem get?_mapValues {μ : Type*} {f : ν → μ} : (d.mapValues f).get? k = (d.get? k).map f := by
  simp [get?, mapValues, List.find?_map, Function.comp_def]

/-- Setting a key commutes with a change of all values. -/
theorem entries_mapValues_set {μ : Type*} {f : ν → μ} :
    ((d.set k v).mapValues f).entries = ((d.mapValues f).set k (f v)).entries := by
  have hkeys : (d.mapValues f).entries.map Prod.fst = d.entries.map Prod.fst := by
    simp [mapValues]
  unfold set
  by_cases hk : k ∈ d.entries.map Prod.fst
  · rw [dif_pos hk, dif_pos (hkeys ▸ hk)]
    simp only [mapValues, List.map_map]
    refine List.map_congr_left fun e _ => ?_
    simp only [Function.comp_apply]
    split <;> rfl
  · rw [dif_neg hk, dif_neg (hkeys ▸ hk)]
    simp [mapValues]

omit [DecidableEq κ] in
/-- Dictionaries with the same entries are the same. -/
theorem ext {d' : Dict κ ν} (h : d.entries = d'.entries) : d = d' := by
  cases d
  cases d'
  cases h
  rfl

/-- Setting a key to its value changes nothing. -/
theorem set_eq_self (h : d.get? k = some v) : d.set k v = d := by
  have hk : k ∈ d.entries.map Prod.fst := mem_keys_iff.2 ⟨v, h⟩
  apply ext
  rw [set, dif_pos hk]
  refine (List.map_congr_left fun e he => ?_).trans (List.map_id _)
  split
  case isTrue heq =>
    have hvalue : d.get? e.1 = some e.2 := get?_eq_some_iff.2 he
    rw [heq, h] at hvalue
    exact Prod.ext heq.symm (Option.some.inj hvalue)
  case isFalse => rfl

/-- A new key comes last. -/
theorem entries_set_of_none (h : d.get? k = none) : (d.set k v).entries = d.entries ++ [(k, v)] := by
  have hk : k ∉ d.entries.map Prod.fst := by
    rw [mem_keys_iff]
    rintro ⟨v', hv'⟩
    rw [h] at hv'
    cases hv'
  simp [set, hk]

/-- The keys that are there keep their places. -/
theorem keys_set : (d.set k v).entries.map Prod.fst =
    if k ∈ d.entries.map Prod.fst then d.entries.map Prod.fst
    else d.entries.map Prod.fst ++ [k] := by
  unfold set
  by_cases hk : k ∈ d.entries.map Prod.fst
  · rw [dif_pos hk, if_pos hk, List.map_map]
    refine List.map_congr_left fun e _ => ?_
    simp only [Function.comp_apply]
    split
    · rename_i he
      exact he.symm
    · rfl
  · rw [dif_neg hk, if_neg hk]
    simp

/-- Of the values of a list with distinct keys, those with new keys come last, in their order. -/
theorem keys_foldl_set {l : List ν} {f : ν → κ} (hl : (l.map f).Nodup) :
    (l.foldl (fun d x => d.set (f x) x) d).entries.map Prod.fst =
      d.entries.map Prod.fst ++ (l.map f).filter (· ∉ d.entries.map Prod.fst) := by
  induction l generalizing d with
  | nil => simp
  | cons x l ih =>
    obtain ⟨hx, hl⟩ := List.nodup_cons.1 hl
    rw [List.foldl_cons, ih hl, keys_set, List.map_cons, List.filter_cons]
    by_cases hk : f x ∈ d.entries.map Prod.fst
    · simp only [hk, if_true, not_true_eq_false, decide_false, Bool.false_eq_true, if_false]
    · simp only [hk, if_false, not_false_eq_true, decide_true, if_true, List.append_assoc,
        List.singleton_append]
      congr 2
      refine List.filter_congr fun y hy => ?_
      have hne : y ≠ f x := by
        rintro rfl
        exact hx hy
      simp [hne]

/-- The keys of a map that is filled from a list, each at the place of its first value. -/
theorem keys_foldl_set_empty (l : List ν) (f : ν → κ) :
    (l.foldl (fun d x => d.set (f x) x) (empty : Dict κ ν)).entries.map Prod.fst =
      (l.map f).eraseDups := by
  induction l using List.reverseRecOn with
  | nil => rfl
  | append_singleton l x ih =>
    rw [List.foldl_append, List.foldl_cons, List.foldl_nil, keys_set, ih, List.map_append,
      List.eraseDups_append, List.map_singleton]
    by_cases hk : f x ∈ l.map f
    · rw [if_pos (List.mem_eraseDups.2 hk)]
      have hnone : [f x].removeAll (l.map f) = [] := by simpa [List.removeAll] using hk
      rw [hnone, List.eraseDups_nil, List.append_nil]
    · rw [if_neg fun hmem => hk (List.mem_eraseDups.1 hmem)]
      have hone : [f x].removeAll (l.map f) = [f x] := by simpa [List.removeAll] using hk
      rw [hone]
      rfl

theorem size_set_of_some (h : d.get? k = some v') : (d.set k v).size = d.size := by
  have hk : k ∈ d.entries.map Prod.fst := mem_keys_iff.2 ⟨v', h⟩
  simp [set, hk, size]

theorem size_set_le : (d.set k v).size ≤ d.size + 1 := by
  unfold set
  split <;> simp [size]

theorem size_pop_le : (d.pop k).size ≤ d.size := List.length_filter_le _ _

omit [DecidableEq κ] in
theorem size_filter_le {p : κ → ν → Bool} : (d.filter p).size ≤ d.size := List.length_filter_le _ _

/-- `dict(pairs)`: the last value of a key counts. -/
def ofList (l : List (κ × ν)) : Dict κ ν := l.foldl (fun d e => d.set e.1 e.2) empty

/-- Pairs with distinct keys are the entries of their dictionary. -/
theorem entries_ofList {l : List (κ × ν)} (hl : (l.map Prod.fst).Nodup) : (ofList l).entries = l := by
  induction l using List.reverseRecOn with
  | nil => rfl
  | append_singleton l e ih =>
    rw [List.map_append, List.nodup_append] at hl
    obtain ⟨hl, -, hne⟩ := hl
    have hnone : (ofList l).get? e.1 = none := by
      refine Option.eq_none_iff_forall_ne_some.2 fun v hv => ?_
      rw [get?_eq_some_iff, ih hl] at hv
      exact hne e.1 (List.mem_map.2 ⟨_, hv, rfl⟩) e.1 (by simp) rfl
    rw [ofList, List.foldl_append, List.foldl_cons, List.foldl_nil]
    rw [show l.foldl (fun d e => d.set e.1 e.2) empty = ofList l from rfl, entries_set_of_none hnone, ih hl]

end Dict
