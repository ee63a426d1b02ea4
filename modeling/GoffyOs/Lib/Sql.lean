import GoffyOs.Lib.Ranking
import Mathlib.Data.List.Nodup
import Mathlib.Data.List.Sort

/-!
# Tables with constraints

What a database checks of the rows of a table, and how a row is written into it.

* Values are `NULL`, integers and texts, and a condition has three truth values: it is `NULL`
  (`none`) where it depends on a `NULL`. A `CHECK` constraint refuses a row only for which its
  condition is false (`Cond.passes`);
* a row is of any type whose columns have values (`Schema.value`), so that `NOT NULL` is a matter of
  the row's type;
* a `Table` has rows that its constraints admit and that differ in their primary keys.
  `insertOrReplace` keeps both, or refuses the row.

The order of texts is that of their code points, which is the order of their bytes in UTF-8.
-/

namespace Sql

variable {κ ρ : Type}

/-! ### Values and conditions -/

inductive Value
  | null
  | integer (n : ℤ)
  | text (s : List Char)
  deriving DecidableEq

/-- Texts come after integers, and `NULL` comes first. -/
def Value.lt : Value → Value → Bool
  | .null, .null => false
  | .null, _ => true
  | .integer m, .integer n => m < n
  | .integer _, .text _ => true
  | .text s, .text t => s < t
  | _, _ => false

/-- `length(_)`: the number of characters before the first NUL. -/
def Value.length : Value → Value
  | .null => .null
  | .integer n => .integer (toString n).length
  | .text s => .integer (s.takeWhile (· ≠ '\x00')).length

inductive Expr (κ : Type)
  | column (c : κ)
  | value (v : Value)
  | length (e : Expr κ)

def Expr.eval (row : κ → Value) : Expr κ → Value
  | .column c => row c
  | .value v => v
  | .length e => (e.eval row).length

/-- A comparison, `NULL` if one side is. -/
def compare (r : Value → Value → Bool) : Value → Value → Option Bool
  | .null, _ => none
  | _, .null => none
  | a, b => some (r a b)

/-- `AND`: false as soon as one side is. -/
def conj : Option Bool → Option Bool → Option Bool
  | some false, _ => some false
  | _, some false => some false
  | some true, some true => some true
  | _, _ => none

/-- `OR`: true as soon as one side is. -/
def disj : Option Bool → Option Bool → Option Bool
  | some true, _ => some true
  | _, some true => some true
  | some false, some false => some false
  | _, _ => none

inductive Cond (κ : Type)
  | eq (a b : Expr κ)
  | lt (a b : Expr κ)
  | le (a b : Expr κ)
  | isNull (a : Expr κ)
  | and (p q : Cond κ)
  | or (p q : Cond κ)

def Cond.eval (row : κ → Value) : Cond κ → Option Bool
  | .eq a b => compare (fun v w => v = w) (a.eval row) (b.eval row)
  | .lt a b => compare Value.lt (a.eval row) (b.eval row)
  | .le a b => compare (fun v w => !w.lt v) (a.eval row) (b.eval row)
  | .isNull a => some (a.eval row = .null)
  | .and p q => conj (p.eval row) (q.eval row)
  | .or p q => disj (p.eval row) (q.eval row)

/-- `a IN (t, ts)`. -/
def Cond.isIn (a : Expr κ) (t : String) (ts : List String) : Cond κ :=
  ts.foldl (fun p s => p.or (.eq a (.value (.text s.toList)))) (.eq a (.value (.text t.toList)))

/-- `a BETWEEN low AND high`. -/
def Cond.between (a : Expr κ) (low high : ℤ) : Cond κ :=
  .and (.le (.value (.integer low)) a) (.le a (.value (.integer high)))

/-- A `CHECK` refuses a row only for which its condition is false. -/
def Cond.passes (row : κ → Value) (p : Cond κ) : Bool := p.eval row ≠ some false

theorem Cond.passes_of_eval {row : κ → Value} {p : Cond κ} (h : p.eval row = some true) :
    p.passes row = true := by
  rw [Cond.passes, h]
  rfl

/-! ### Tables -/

/-- The columns of a row, the primary key and the `CHECK` constraints. -/
structure Schema (ρ κ : Type) where
  value : ρ → κ → Value
  primaryKey : κ
  checks : List (Cond κ)

/-- The primary key of a row. -/
def Schema.key (s : Schema ρ κ) (row : ρ) : Value := s.value row s.primaryKey

/-- The row passes every `CHECK`. -/
def Schema.admits (s : Schema ρ κ) (row : ρ) : Bool := s.checks.all (Cond.passes (s.value row))

structure Table (s : Schema ρ κ) where
  rows : List ρ
  nodup : (rows.map s.key).Nodup
  admitted : ∀ row ∈ rows, s.admits row = true

namespace Table

variable {s : Schema ρ κ}

def empty : Table s := ⟨[], List.nodup_nil, by simp⟩

/-- `DELETE`: the rows that satisfy `p` go. -/
def delete (t : Table s) (p : ρ → Bool) : Table s where
  rows := t.rows.filter fun row => !p row
  nodup := t.nodup.sublist (List.filter_sublist.map _)
  admitted row hrow := t.admitted row (List.mem_of_mem_filter hrow)

/-- `INSERT OR REPLACE`: the row takes the place of one with its key; `none` is a violated `CHECK`. -/
def insertOrReplace (t : Table s) (row : ρ) : Option (Table s) :=
  if h : s.admits row = true then
    some {
      rows := (t.delete fun r => s.key r = s.key row).rows ++ [row]
      nodup := by
        have hnotMem : s.key row ∉ ((t.delete fun r => s.key r = s.key row).rows.map s.key) := by
          simp [delete]
        rw [List.map_append, List.map_singleton]
        exact List.nodup_append.2 ⟨(t.delete _).nodup, List.nodup_singleton _,
          fun a ha b hb hab => hnotMem (by rw [List.mem_singleton.1 hb] at hab; exact hab ▸ ha)⟩
      admitted := by
        intro r hr
        rcases List.mem_append.1 hr with hr | hr
        · exact (t.delete _).admitted r hr
        · exact List.mem_singleton.1 hr ▸ h }
  else none

/-- `SELECT … WHERE key = k`. -/
def find (t : Table s) (k : Value) : Option ρ := t.rows.find? fun row => s.key row = k

/-- The rows in an order. -/
def orderBy (t : Table s) (before : ρ → ρ → Bool) : List ρ :=
  t.rows.insertionSort fun a b => before a b

theorem insertOrReplace_eq_none_iff {t : Table s} {row : ρ} :
    t.insertOrReplace row = none ↔ s.admits row = false := by
  simp [insertOrReplace]

theorem insertOrReplace_of_admits {t : Table s} {row : ρ} (h : s.admits row = true) :
    ∃ t', t.insertOrReplace row = some t' ∧
      t'.rows = (t.delete fun r => s.key r = s.key row).rows ++ [row] := by
  rw [insertOrReplace, dif_pos h]
  exact ⟨_, rfl, rfl⟩

theorem length_delete_le (t : Table s) (p : ρ → Bool) : (t.delete p).rows.length ≤ t.rows.length :=
  List.length_filter_le _ _

/-- A row that was written is the one found under its key. -/
theorem find_insertOrReplace {t t' : Table s} {row : ρ}
    (h : t'.rows = (t.delete fun r => s.key r = s.key row).rows ++ [row]) :
    t'.find (s.key row) = some row := by
  have hnone : (t.delete fun r => s.key r = s.key row).rows.find?
      (fun r => s.key r = s.key row) = none := by
    rw [List.find?_eq_none]
    intro r hr
    simpa [delete] using (List.mem_filter.1 hr).2
  rw [find, h, List.find?_append, hnone]
  simp

/-- The primary key of a row tells it from the others. -/
theorem eq_of_key_eq (t : Table s) {row row' : ρ} (h : row ∈ t.rows) (h' : row' ∈ t.rows)
    (hkey : s.key row = s.key row') : row = row' :=
  List.inj_on_of_nodup_map t.nodup h h' hkey

theorem nodup_rows (t : Table s) : t.rows.Nodup := t.nodup.of_map _

theorem find_of_mem {t : Table s} {row : ρ} (h : row ∈ t.rows) :
    t.find (s.key row) = some row := by
  cases hfind : t.find (s.key row) with
  | none =>
    have hnone := List.find?_eq_none.1 hfind row h
    simp at hnone
  | some row' =>
    have hkey : s.key row' = s.key row := by simpa using List.find?_some hfind
    rw [t.eq_of_key_eq (List.mem_of_find?_eq_some hfind) h hkey]

/-- Rows deleted one after the other by a column of theirs. -/
theorem mem_foldl_delete {β : Type} [DecidableEq β] (f : ρ → β) {t : Table s} {l : List ρ}
    {row : ρ} : row ∈ (l.foldl (fun t r => t.delete fun r' => f r' = f r) t).rows ↔
      row ∈ t.rows ∧ f row ∉ l.map f := by
  induction l generalizing t with
  | nil => simp
  | cons r l ih =>
    rw [List.foldl_cons, ih, delete, List.mem_filter, List.map_cons, List.mem_cons, not_or, and_assoc]
    simp

theorem rows_foldl_delete {β : Type} [DecidableEq β] (f : ρ → β) {t : Table s} {l : List ρ} :
    (l.foldl (fun t r => t.delete fun r' => f r' = f r) t).rows =
      t.rows.filter fun row => f row ∉ l.map f := by
  induction l generalizing t with
  | nil => simp
  | cons r l ih =>
    rw [List.foldl_cons, ih, delete, List.filter_filter]
    refine List.filter_congr fun row _ => ?_
    rw [List.map_cons]
    by_cases h : f row = f r
    · simp [h]
    · simp [h]

theorem perm_orderBy (t : Table s) (before : ρ → ρ → Bool) : (t.orderBy before).Perm t.rows :=
  List.perm_insertionSort _ _

theorem length_orderBy (t : Table s) (before : ρ → ρ → Bool) :
    (t.orderBy before).length = t.rows.length := List.length_insertionSort _ _

section Newest

variable {β : Type} [DecidableEq β] {t : Table s} {before : ρ → ρ → Bool} {f : ρ → β} {n : ℕ}

/-- The first `n` rows in an order stay; the others are deleted one after the other, by a column. -/
def keepFirst (t : Table s) (before : ρ → ρ → Bool) (f : ρ → β) (n : ℕ) : Table s :=
  ((t.orderBy before).drop n).foldl (fun t r => t.delete fun r' => f r' = f r) t

theorem keepFirst_of_length_le (h : t.rows.length ≤ n) : t.keepFirst before f n = t := by
  rw [keepFirst, List.drop_eq_nil_of_le ((t.length_orderBy before).trans_le h), List.foldl_nil]

/-- With one row too many, the last one in the order goes. -/
theorem keepFirst_of_length_succ (htotal : ∀ a b, ¬ before a b = true → before b a = true)
    (htrans : ∀ a b c, before a b = true → before b c = true → before a c = true)
    (h : t.rows.length = n + 1) :
    ∃ last ∈ t.rows, (∀ row ∈ t.rows, row ≠ last → before row last = true) ∧
      (t.keepFirst before f n).rows = t.rows.filter fun row => f row ≠ f last := by
  have hperm := t.perm_orderBy before
  have hsorted : (t.orderBy before).Pairwise fun a b => before a b = true :=
    Ranking.pairwise_insertionSort (r := fun a b => before a b = true) htrans (fun _ _ hab => hab) htotal _
  have hlength := (t.length_orderBy before).trans h
  obtain ⟨last, hdrop⟩ : ∃ last, (t.orderBy before).drop n = [last] := by
    have hone : ((t.orderBy before).drop n).length = 1 := by
      rw [List.length_drop, hlength]
      omega
    exact List.length_eq_one_iff.1 hone
  have hsplit := List.take_append_drop n (t.orderBy before)
  rw [hdrop] at hsplit
  rw [← hsplit] at hsorted hperm
  refine ⟨last, hperm.mem_iff.1 (List.mem_append_right _ List.mem_cons_self), fun row hrow hne => ?_, ?_⟩
  · rcases List.mem_append.1 (hperm.mem_iff.2 hrow) with hfirst | hlast
    · exact (List.pairwise_append.1 hsorted).2.2 row hfirst last List.mem_cons_self
    · exact absurd (List.mem_singleton.1 hlast) hne
  · rw [keepFirst, hdrop, rows_foldl_delete]
    refine List.filter_congr fun row _ => ?_
    simp only [List.map_singleton, List.mem_singleton, ne_eq]

end Newest

end Table

end Sql
