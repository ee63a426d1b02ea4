import GoffyOs.Lib.Ranking
import GoffyOs.Python.Text

/-!
# SQLite as the Hub uses it

The Hub opens a connection for every operation and runs it as one `BEGIN IMMEDIATE` transaction, so
that operations of several processes are serialised and an exception rolls back what was written.

* `SqlText` is a stored text, which need not be UTF-8;
* `Fault` says where SQLite itself fails during a transaction;
* `textLE` is the order of the `BINARY` collation, `sortBy` an `ORDER BY` on texts.
-/

namespace Python

/-- A stored text; `none` stands for bytes that are not UTF-8. -/
abbrev SqlText := Option Str

/-- Where SQLite fails in a transaction, if it does. -/
inductive Fault
  | none
  | opening
  | writing
  | committing
  deriving DecidableEq

/-- `memcmp` order of two texts. -/
def textLE (a b : Str) : Prop := ¬ utf8 b < utf8 a

instance (a b : Str) : Decidable (textLE a b) := inferInstanceAs (Decidable (¬ _))

/-- `ORDER BY` the two keys. -/
def sortBy {α : Type} (key₁ key₂ : α → Str) (rows : List α) : List α :=
  rows.insertionSort fun a b =>
    if key₁ a = key₁ b then textLE (key₂ a) (key₂ b) else textLE (key₁ a) (key₁ b)

/-- `ORDER BY` the two keys, both `DESC`. -/
def sortByDesc {α : Type} (key₁ key₂ : α → Str) (rows : List α) : List α :=
  rows.insertionSort fun a b =>
    if key₁ a = key₁ b then textLE (key₂ b) (key₂ a) else textLE (key₁ b) (key₁ a)

theorem textLE_refl (a : Str) : textLE a a := List.lt_irrefl _

theorem textLE_trans {a b c : Str} (h : textLE a b) (h' : textLE b c) : textLE a c :=
  List.le_trans h h'

theorem textLE_of_not {a b : Str} (h : ¬ textLE a b) : textLE b a := by
  unfold textLE at h ⊢
  exact List.lt_asymm (not_not.1 h)

theorem sortBy_perm {α : Type} (key₁ key₂ : α → Str) (rows : List α) :
    (sortBy key₁ key₂ rows).Perm rows := List.perm_insertionSort _ _

theorem sortByDesc_perm {α : Type} (key₁ key₂ : α → Str) (rows : List α) :
    (sortByDesc key₁ key₂ rows).Perm rows := List.perm_insertionSort _ _

/-- Rows that are sorted by two keys are in the order of the first one. -/
theorem pairwise_byKeys {α : Type} {r : Str → Str → Prop} [DecidableRel r] (hrefl : ∀ a, r a a)
    (htrans : ∀ a b c, r a b → r b c → r a c) (htotal : ∀ a b, ¬ r a b → r b a)
    (key₁ key₂ : α → Str) (rows : List α) :
    (rows.insertionSort fun a b =>
      if key₁ a = key₁ b then r (key₂ a) (key₂ b) else r (key₁ a) (key₁ b)).Pairwise
        fun a b => r (key₁ a) (key₁ b) := by
  apply Ranking.pairwise_insertionSort
  · exact fun a b c => htrans _ _ _
  · intro a b h
    split at h
    case isTrue heq =>
      rw [heq]
      exact hrefl _
    case isFalse => exact h
  · intro a b h
    split at h
    case isTrue heq =>
      rw [heq]
      exact hrefl _
    case isFalse => exact htotal _ _ h

theorem pairwise_sortBy {α : Type} (key₁ key₂ : α → Str) (rows : List α) :
    (sortBy key₁ key₂ rows).Pairwise fun a b => textLE (key₁ a) (key₁ b) :=
  pairwise_byKeys textLE_refl (fun _ _ _ => textLE_trans) (fun _ _ => textLE_of_not) key₁ key₂ rows

theorem pairwise_sortByDesc {α : Type} (key₁ key₂ : α → Str) (rows : List α) :
    (sortByDesc key₁ key₂ rows).Pairwise fun a b => textLE (key₁ b) (key₁ a) :=
  pairwise_byKeys (r := fun a b => textLE b a) textLE_refl (fun _ _ _ h h' => textLE_trans h' h)
    (fun _ _ => textLE_of_not) key₁ key₂ rows

end Python
