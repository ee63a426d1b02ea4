import Mathlib.Algebra.Order.Group.Nat
import Mathlib.Data.List.Basic
import Mathlib.Tactic.Ring

/-!
# Fixed-width positional notation

Timestamps, UUID texts, hexadecimal digests and length prefixes all write a natural number with a
fixed number of digits, most significant first. `digits b w n` is that notation, `value b` reads it
back, and `value_digits` says that reading recovers `n` modulo `b ^ w`; so the notation is
injective below `b ^ w` (`digits_inj`).

* `digitChar` writes a digit below sixteen as a character, `digitVal?` reads one;
* `readDigits b` reads a whole list of characters, failing on the first that is not a digit.
-/

namespace Positional

/-- The `w` lowest base-`b` digits of `n`, most significant first. -/
def digits (b : ℕ) : ℕ → ℕ → List ℕ
  | 0, _ => []
  | w + 1, n => n / b ^ w % b :: digits b w n

/-- The number written by a list of digits, most significant first. -/
def value (b : ℕ) (ds : List ℕ) : ℕ := ds.foldl (fun a d => a * b + d) 0

@[simp] theorem length_digits (b w n : ℕ) : (digits b w n).length = w := by
  induction w with
  | zero => rfl
  | succ w ih => simp [digits, ih]

theorem digits_lt {b : ℕ} (hb : 0 < b) (w n : ℕ) : ∀ d ∈ digits b w n, d < b := by
  induction w with
  | zero => simp [digits]
  | succ w ih =>
    intro d hd
    rcases List.mem_cons.1 hd with rfl | hd
    · exact Nat.mod_lt _ hb
    · exact ih d hd

theorem foldl_value (b a : ℕ) (ds : List ℕ) :
    ds.foldl (fun a d => a * b + d) a = a * b ^ ds.length + value b ds := by
  induction ds generalizing a with
  | nil => simp [value]
  | cons d ds ih =>
    rw [value, List.foldl_cons, List.foldl_cons, ih, ih, List.length_cons, pow_succ]
    ring

theorem value_cons (b d : ℕ) (ds : List ℕ) :
    value b (d :: ds) = d * b ^ ds.length + value b ds := by
  rw [value, List.foldl_cons, foldl_value]
  ring

/-- Reading the digits of `n` recovers `n`, up to what the width cuts off. -/
theorem value_digits (b w n : ℕ) : value b (digits b w n) = n % b ^ w := by
  induction w with
  | zero => simp [digits, value, Nat.mod_one]
  | succ w ih =>
    rw [digits, value_cons, ih, length_digits, Nat.mod_pow_succ]
    ring

theorem digits_inj {b w m n : ℕ} (hm : m < b ^ w) (hn : n < b ^ w)
    (h : digits b w m = digits b w n) : m = n := by
  have hv := congrArg (value b) h
  rwa [value_digits, value_digits, Nat.mod_eq_of_lt hm, Nat.mod_eq_of_lt hn] at hv

/-! ### Digits as characters -/

/-- The character of a digit below sixteen, lower case. -/
def digitChar (d : ℕ) : Char := Nat.digitChar d

/-- The value of a lower- or upper-case hexadecimal digit. -/
def digitVal? (c : Char) : Option ℕ :=
  if '0' ≤ c ∧ c ≤ '9' then some (c.toNat - '0'.toNat)
  else if 'a' ≤ c ∧ c ≤ 'f' then some (c.toNat - 'a'.toNat + 10)
  else if 'A' ≤ c ∧ c ≤ 'F' then some (c.toNat - 'A'.toNat + 10)
  else none

/-- The digits below `b` that a list of characters spells, if every character is one. -/
def readDigits (b : ℕ) (cs : List Char) : Option (List ℕ) :=
  cs.mapM fun c => (digitVal? c).filter (· < b)

/-- The characters of the `w` lowest base-`b` digits of `n`. -/
def write (b w n : ℕ) : List Char := (digits b w n).map digitChar

/-- The number a list of base-`b` digit characters denotes. -/
def read? (b : ℕ) (cs : List Char) : Option ℕ := (readDigits b cs).map (value b)

theorem digitVal?_digitChar {d : ℕ} (hd : d < 16) : digitVal? (digitChar d) = some d := by
  have h : ∀ d < 16, digitVal? (digitChar d) = some d := by decide
  exact h d hd

theorem readDigits_map {b : ℕ} (hb : b ≤ 16) {ds : List ℕ} (hds : ∀ d ∈ ds, d < b) :
    readDigits b (ds.map digitChar) = some ds := by
  induction ds with
  | nil => rfl
  | cons d ds ih =>
    have hd : d < b := hds d (by simp)
    have hrest := ih fun d' hd' => hds d' (by simp [hd'])
    unfold readDigits at hrest ⊢
    rw [List.map_cons, List.mapM_cons, digitVal?_digitChar (by omega), hrest]
    simp [Option.filter, hd]

@[simp] theorem length_write (b w n : ℕ) : (write b w n).length = w := by simp [write]

/-- A written number below `b ^ w` reads back as itself. -/
theorem read?_write {b w n : ℕ} (hb0 : 0 < b) (hb : b ≤ 16) (hn : n < b ^ w) :
    read? b (write b w n) = some n := by
  rw [read?, write, readDigits_map hb (digits_lt hb0 w n), Option.map_some, value_digits,
    Nat.mod_eq_of_lt hn]

/-- Every character of a written number is a digit character of a digit below the base. -/
theorem mem_write {b w n : ℕ} (hb0 : 0 < b) {c : Char} (hc : c ∈ write b w n) :
    ∃ d < b, c = digitChar d := by
  obtain ⟨d, hd, rfl⟩ := List.mem_map.1 hc
  exact ⟨d, digits_lt hb0 w n d hd, rfl⟩

end Positional
