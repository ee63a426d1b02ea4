import GoffyOs.Python.Json
import GoffyOs.Python.Utf8

/-!
# The size of a JSON text

The number of bytes of `json.dumps` in UTF-8, by the structure of the value. The order of the members
of an object has no part in it (`size_object`).
-/

namespace Python

-- `decide` looks at the members of a list one by one
attribute [local instance (high)] List.decidableBAll

/-- The bytes of a string between its quotes. -/
def escapedBytes (s : Str) : ℕ := byteLength (s.flatMap escapeChar)

/-- The bytes of the canonical text of a value. -/
def Json.size (j : Json) : ℕ := byteLength j.dumps

theorem byteLength_quote (s : Str) : byteLength (quote s) = 2 + escapedBytes s := by
  rw [quote, byteLength_cons_ascii (by decide), byteLength_append, byteLength_cons_ascii (by decide),
    byteLength_nil, escapedBytes]
  omega

/-- Texts with commas between them. -/
theorem byteLength_commaJoin (l : List Str) :
    byteLength (commaJoin l) = (l.map byteLength).sum + (l.length - 1) := by
  induction l with
  | nil => rfl
  | cons s l ih =>
    cases l with
    | nil => simp [commaJoin]
    | cons t l =>
      rw [commaJoin, byteLength_append, byteLength_cons_ascii (by decide), ih]
      simp only [List.map_cons, List.sum_cons, List.length_cons]
      omega

theorem dumpsItems_eq_map (items : List Json) : dumpsItems items = items.map Json.dumps := by
  induction items with
  | nil => rfl
  | cons item items ih => rw [dumpsItems, ih, List.map_cons]

theorem dumpsMembers_eq_map (members : List (Str × Json)) :
    dumpsMembers members = members.map fun m => (m.1, m.2.dumps) := by
  induction members with
  | nil => rfl
  | cons m members ih =>
    obtain ⟨key, value⟩ := m
    rw [dumpsMembers, ih, List.map_cons]

theorem size_str (s : Str) : (Json.str s).size = 2 + escapedBytes s := byteLength_quote s

theorem size_nat (n : ℕ) : (Json.int n).size = (natStr n).length := byteLength_natStr n

theorem size_bool (b : Bool) : (Json.bool b).size = if b then 4 else 5 := by
  cases b
  · exact byteLength_of_ascii (s := "false".toList) (by decide)
  · exact byteLength_of_ascii (s := "true".toList) (by decide)

theorem size_array (items : List Json) :
    (Json.array items).size = 2 + (items.map Json.size).sum + (items.length - 1) := by
  rw [Json.size, Json.dumps, byteLength_cons_ascii (by decide), byteLength_append,
    byteLength_cons_ascii (by decide), byteLength_nil, byteLength_commaJoin, dumpsItems_eq_map,
    List.map_map, List.length_map]
  have hsizes : items.map (byteLength ∘ Json.dumps) = items.map Json.size := rfl
  rw [hsizes]
  omega

theorem size_object (members : List (Str × Json)) :
    (Json.object members).size =
      2 + (members.map fun m => byteLength (quote m.1) + 1 + m.2.size).sum + (members.length - 1) := by
  have hperm : (sortMembers (dumpsMembers members)).Perm (members.map fun m => (m.1, m.2.dumps)) := by
    rw [← dumpsMembers_eq_map]
    exact List.perm_insertionSort _ _
  have hsum : (((sortMembers (dumpsMembers members)).map fun m => quote m.1 ++ ':' :: m.2).map
      byteLength).sum = (members.map fun m => byteLength (quote m.1) + 1 + m.2.size).sum := by
    rw [((hperm.map _).map _).sum_nat, List.map_map, List.map_map]
    congr 1
    apply List.map_congr_left
    intro m _
    simp only [Function.comp_apply]
    rw [byteLength_append, byteLength_cons_ascii (by decide), Json.size]
    omega
  rw [Json.size, Json.dumps, byteLength_cons_ascii (by decide), byteLength_append,
    byteLength_cons_ascii (by decide), byteLength_nil, byteLength_commaJoin, hsum, List.length_map,
    hperm.length_eq, List.length_map]
  omega

theorem escapeChar_ne_nil (c : Char) : escapeChar c ≠ [] := by
  unfold escapeChar
  split_ifs <;> exact List.cons_ne_nil _ _

/-- A character that stands for itself in a string. -/
def isPlain (c : Char) : Bool := 0x20 ≤ c.toNat && c ≠ '"' && c ≠ '\\'

theorem escapeChar_of_isPlain {c : Char} (hc : isPlain c = true) : escapeChar c = [c] := by
  simp only [isPlain, Bool.and_eq_true, decide_eq_true_eq] at hc
  obtain ⟨⟨hcontrol, hquote⟩, hbackslash⟩ := hc
  have hne : ∀ d : Char, d.toNat < 0x20 → c ≠ d := by
    rintro d hd rfl
    omega
  rw [escapeChar, if_neg hquote, if_neg hbackslash, if_neg (hne _ (by decide)),
    if_neg (hne _ (by decide)), if_neg (hne _ (by decide)), if_neg (by omega), if_neg (by omega),
    if_neg (by omega)]

theorem escapedBytes_of_isPlain {s : Str} (hs : ∀ c ∈ s, isPlain c = true) :
    escapedBytes s = byteLength s := by
  induction s with
  | nil => rfl
  | cons c s ih =>
    obtain ⟨hc, hs⟩ := List.forall_mem_cons.1 hs
    have hrest : byteLength (s.flatMap escapeChar) = byteLength s := ih hs
    rw [escapedBytes, List.flatMap_cons, escapeChar_of_isPlain hc, byteLength_append, hrest,
      ← byteLength_append]
    rfl

end Python
