import GoffyOs.Lib.Positional

/-!
# The order of texts

Texts are compared character by character. Parts of equal length are compared one after the other, and
numbers that are written with equally many digits have the order of their texts.
-/

namespace Lexicographic

section

variable {α : Type} [LT α] {s t u v : List α}

theorem append_lt_append_iff (h : u.length = v.length) :
    u ++ s < v ++ t ↔ u < v ∨ u = v ∧ s < t := by
  induction u generalizing v with
  | nil =>
    obtain rfl := List.length_eq_zero_iff.1 h.symm
    simp
  | cons a u ih =>
    obtain ⟨b, v, rfl⟩ := List.exists_cons_of_length_eq_add_one h.symm
    have hlength : u.length = v.length := Nat.succ.inj h
    rw [List.cons_append, List.cons_append, List.cons_lt_cons_iff, List.cons_lt_cons_iff, ih hlength,
      List.cons.injEq]
    tauto

end

/-! ### Numbers -/

open Positional

theorem value_lt {b : ℕ} (ds : List ℕ) (h : ∀ d ∈ ds, d < b) : value b ds < b ^ ds.length := by
  induction ds with
  | nil => exact Nat.one_pos
  | cons d ds ih =>
    have hrest := ih fun e he => h e (List.mem_cons_of_mem _ he)
    have hd := h d List.mem_cons_self
    rw [value_cons, List.length_cons, pow_succ]
    calc d * b ^ ds.length + value b ds < d * b ^ ds.length + b ^ ds.length := by omega
      _ = (d + 1) * b ^ ds.length := by ring
      _ ≤ b * b ^ ds.length := Nat.mul_le_mul_right _ hd
      _ = b ^ ds.length * b := mul_comm _ _

/-- Digits have the order of their number. -/
theorem map_digitChar_lt_iff {b : ℕ} (hb : b ≤ 10) {ds es : List ℕ} (hlength : ds.length = es.length)
    (hds : ∀ d ∈ ds, d < b) (hes : ∀ e ∈ es, e < b) :
    ds.map digitChar < es.map digitChar ↔ value b ds < value b es := by
  induction ds generalizing es with
  | nil =>
    obtain rfl := List.length_eq_zero_iff.1 hlength.symm
    simp
  | cons d ds ih =>
    obtain ⟨e, es, rfl⟩ := List.exists_cons_of_length_eq_add_one hlength.symm
    have hlength' : ds.length = es.length := Nat.succ.inj hlength
    have hrest := ih hlength' (fun x hx => hds x (List.mem_cons_of_mem _ hx))
      fun x hx => hes x (List.mem_cons_of_mem _ hx)
    have hd := hds d List.mem_cons_self
    have he := hes e List.mem_cons_self
    have hdigit : ∀ m < 10, ∀ n < 10, (digitChar m < digitChar n ↔ m < n) ∧
        (digitChar m = digitChar n ↔ m = n) := by decide
    obtain ⟨hlt, heq⟩ := hdigit d (by omega) e (by omega)
    have hvd := value_lt ds fun x hx => hds x (List.mem_cons_of_mem _ hx)
    have hve := value_lt es fun x hx => hes x (List.mem_cons_of_mem _ hx)
    rw [List.map_cons, List.map_cons, List.cons_lt_cons_iff, hlt, heq, hrest, value_cons, value_cons,
      hlength']
    rw [hlength'] at hvd
    constructor
    · rintro (h | ⟨rfl, h⟩)
      · have hmul : (d + 1) * b ^ es.length ≤ e * b ^ es.length := Nat.mul_le_mul_right _ h
        rw [Nat.add_mul, one_mul] at hmul
        omega
      · omega
    · intro h
      rcases Nat.lt_trichotomy d e with hlt | rfl | hgt
      · exact Or.inl hlt
      · exact Or.inr ⟨rfl, by omega⟩
      · have hmul : (e + 1) * b ^ es.length ≤ d * b ^ es.length := Nat.mul_le_mul_right _ hgt
        rw [Nat.add_mul, one_mul] at hmul
        omega

theorem write_lt_write_iff {w m n : ℕ} (hm : m < 10 ^ w) (hn : n < 10 ^ w) :
    write 10 w m < write 10 w n ↔ m < n := by
  have hten : (0 : ℕ) < 10 := by decide
  unfold write
  rw [map_digitChar_lt_iff le_rfl (by simp) (digits_lt hten w m) (digits_lt hten w n), value_digits,
    value_digits, Nat.mod_eq_of_lt hm, Nat.mod_eq_of_lt hn]

theorem write_eq_write_iff {w m n : ℕ} (hm : m < 10 ^ w) (hn : n < 10 ^ w) :
    write 10 w m = write 10 w n ↔ m = n := by
  constructor
  · intro h
    have hread := congrArg (read? 10) h
    rw [read?_write (by decide) (by decide) hm, read?_write (by decide) (by decide) hn] at hread
    exact Option.some.inj hread
  · exact congrArg _

end Lexicographic
