import GoffyOs.Kotlin.Text

/-!
# Code units of whole characters

What the phone, which looks at single code units, sees of a text of characters: a character of the basic
plane is one unit, any other one two surrogates, which are neither letters nor white space nor control
characters to it.
-/

namespace Kotlin

/-- A test of a unit, of a character: those outside the basic plane fail it. -/
def basic (p : UInt16 → Bool) (c : Char) : Bool := c.toNat < 0x10000 && p c.toNat.toUInt16

section Units

variable {c d : Char} {s t : List Char} {u : UInt16}

theorem units_of_lt (h : c.toNat < 0x10000) : units c = [c.toNat.toUInt16] := if_pos h

theorem toNat_toUInt16 {n : ℕ} (h : n < 0x10000) : n.toUInt16.toNat = n := by
  rw [UInt16.toNat_ofNat']
  exact Nat.mod_eq_of_lt h

/-- The units of a character outside the basic plane are surrogates. -/
theorem surrogate_of_mem_units (h : 0x10000 ≤ c.toNat) (hu : u ∈ units c) :
    0xd800 ≤ u.toNat ∧ u.toNat ≤ 0xdfff := by
  have hvalid : c.toNat < 0xd800 ∨ 0xdfff < c.toNat ∧ c.toNat < 0x110000 := c.valid
  rw [units, if_neg (Nat.not_lt.2 h)] at hu
  rcases List.mem_cons.1 hu with rfl | hu
  · rw [toNat_toUInt16 (by omega)]
    omega
  · rw [List.mem_singleton.1 hu, toNat_toUInt16 (by omega)]
    omega

theorem length_units_of_ge (h : 0x10000 ≤ c.toNat) : (units c).length = 2 := by
  rw [units, if_neg (Nat.not_lt.2 h)]
  rfl

theorem mem_ofChars : u ∈ ofChars s ↔ ∃ c ∈ s, u ∈ units c := List.mem_flatMap

theorem ofChars_cons (c : Char) (s : List Char) : ofChars (c :: s) = units c ++ ofChars s :=
  List.flatMap_cons

theorem ofChars_injective : Function.Injective ofChars :=
  Function.LeftInverse.injective toChars_ofChars

theorem ofChars_eq_nil : ofChars s = [] ↔ s = [] :=
  ofChars_injective.eq_iff' rfl

/-- In the basic plane, lengths agree. -/
theorem length_ofChars (h : ∀ c ∈ s, c.toNat < 0x10000) : (ofChars s).length = s.length := by
  induction s with
  | nil => rfl
  | cons c s ih =>
    have hrest := ih fun d hd => h d (List.mem_cons_of_mem _ hd)
    rw [ofChars_cons, List.length_append, units_of_lt (h c List.mem_cons_self), hrest,
      List.length_singleton, List.length_cons, Nat.add_comm]

/-- Units of characters, where surrogates do not count. -/
theorem any_ofChars {p : UInt16 → Bool}
    (hp : ∀ u : UInt16, 0xd800 ≤ u.toNat → u.toNat ≤ 0xdfff → p u = false) (s : List Char) :
    (ofChars s).any p = s.any (basic p) := by
  induction s with
  | nil => rfl
  | cons c s ih =>
    rw [ofChars_cons, List.any_append, ih, List.any_cons]
    by_cases h : c.toNat < 0x10000
    · simp [units_of_lt h, h, basic]
    · have hnone : (units c).any p = false := by
        rw [List.any_eq_false]
        intro u hu
        obtain ⟨hlow, hhigh⟩ := surrogate_of_mem_units (Nat.not_lt.1 h) hu
        simp [hp u hlow hhigh]
      simp [hnone, h, basic]

/-- A text is blank when its characters are white space. -/
theorem isBlank_ofChars (s : List Char) : isBlank (ofChars s) = s.all (basic isWhitespace) := by
  induction s with
  | nil => rfl
  | cons c s ih =>
    unfold isBlank at ih ⊢
    rw [ofChars_cons, List.all_append, ih, List.all_cons]
    by_cases h : c.toNat < 0x10000
    · simp [units_of_lt h, h, basic]
    · obtain ⟨u, hu⟩ : ∃ u, u ∈ units c := by
        refine List.exists_mem_of_length_pos ?_
        rw [length_units_of_ge (Nat.not_lt.1 h)]
        exact Nat.two_pos
      obtain ⟨hlow, hhigh⟩ := surrogate_of_mem_units (Nat.not_lt.1 h) hu
      have hspace : isWhitespace u = false := by
        simp only [isWhitespace, Bool.or_eq_false_iff, Bool.and_eq_false_iff,
          decide_eq_false_iff_not, beq_eq_false_iff_ne]
        omega
      have hnot : (units c).all isWhitespace = false := by
        rw [List.all_eq_false]
        exact ⟨u, hu, by simp [hspace]⟩
      simp [hnot, h, basic]

/-! ### Texts of the basic plane -/

/-- The unit of a character of the basic plane. -/
def unit (c : Char) : UInt16 := c.toNat.toUInt16

theorem toNat_unit (hc : c.toNat < 0x10000) : (unit c).toNat = c.toNat := toNat_toUInt16 hc

theorem unit_inj (hc : c.toNat < 0x10000) (hd : d.toNat < 0x10000) : unit c = unit d ↔ c = d := by
  constructor
  · intro h
    have hnat := congrArg UInt16.toNat h
    rw [toNat_unit hc, toNat_unit hd] at hnat
    exact Char.toNat_inj.1 hnat
  · rintro rfl
    rfl

theorem ofChars_eq_map (hs : ∀ c ∈ s, c.toNat < 0x10000) : ofChars s = s.map unit := by
  induction s with
  | nil => rfl
  | cons c s ih =>
    rw [ofChars_cons, units_of_lt (hs c List.mem_cons_self),
      ih fun d hd => hs d (List.mem_cons_of_mem _ hd)]
    rfl

theorem prefix_ofChars (hs : ∀ c ∈ s, c.toNat < 0x10000) : ofChars t <+: ofChars s ↔ t <+: s := by
  constructor
  · intro h
    have htake := List.prefix_iff_eq_take.1 h
    rw [ofChars_eq_map hs, ← List.map_take,
      ← ofChars_eq_map fun c hc => hs c (List.mem_of_mem_take hc)] at htake
    rw [ofChars_injective htake]
    exact List.take_prefix _ _
  · rintro ⟨r, rfl⟩
    have happend : ofChars (t ++ r) = ofChars t ++ ofChars r := List.flatMap_append
    rw [happend]
    exact List.prefix_append _ _

/-! ### Separators -/

/-- No other character has the unit of one of the basic plane. -/
theorem toUInt16_mem_units (hd : d.toNat < 0xd800) : d.toNat.toUInt16 ∈ units c ↔ c = d := by
  have hd16 : d.toNat.toUInt16.toNat = d.toNat := toNat_toUInt16 (by omega)
  constructor
  · intro hu
    by_cases h : c.toNat < 0x10000
    · rw [units_of_lt h, List.mem_singleton] at hu
      have hnat := congrArg UInt16.toNat hu
      rw [hd16, toNat_toUInt16 h] at hnat
      exact Char.toNat_inj.1 hnat.symm
    · have hsurrogate := surrogate_of_mem_units (Nat.not_lt.1 h) hu
      omega
  · rintro rfl
    rw [units_of_lt (by omega)]
    exact List.mem_singleton.2 rfl

theorem toUInt16_mem_ofChars (hd : d.toNat < 0xd800) : d.toNat.toUInt16 ∈ ofChars s ↔ d ∈ s := by
  rw [mem_ofChars]
  constructor
  · rintro ⟨c, hc, hu⟩
    rw [toUInt16_mem_units hd] at hu
    exact hu ▸ hc
  · intro h
    exact ⟨d, h, (toUInt16_mem_units hd).2 rfl⟩

theorem units_ne_nil : units c ≠ [] := by
  by_cases h : c.toNat < 0x10000
  · rw [units_of_lt h]
    exact List.cons_ne_nil _ _
  · rw [← List.length_pos_iff, length_units_of_ge (Nat.not_lt.1 h)]
    exact Nat.two_pos

theorem head?_ofChars (hd : d.toNat < 0xd800) :
    (ofChars s).head? = some d.toNat.toUInt16 ↔ s.head? = some d := by
  cases s with
  | nil => simp [ofChars]
  | cons c s =>
    obtain ⟨u, us, hunits⟩ := List.exists_cons_of_ne_nil (units_ne_nil (c := c))
    rw [ofChars_cons, hunits, List.cons_append, List.head?_cons, List.head?_cons, Option.some_inj,
      Option.some_inj]
    constructor
    · rintro rfl
      rw [← toUInt16_mem_units hd, hunits]
      exact List.mem_cons_self
    · rintro rfl
      rw [units_of_lt (by omega)] at hunits
      exact (List.cons.inj hunits).1.symm

theorem splitOn_append_of_notMem {α : Type} [BEq α] [LawfulBEq α] {a : α} {l : List α} (h : a ∉ l)
    (m : List α) : (l ++ m).splitOn a = (m.splitOn a).modifyHead (l ++ ·) := by
  induction l with
  | nil =>
    cases hm : m.splitOn a with
    | nil => exact (List.splitOn_ne_nil a m hm).elim
    | cons part parts => rw [List.nil_append, hm]; rfl
  | cons x l ih =>
    have hx : (x == a) = false := by
      rw [beq_eq_false_iff_ne]
      rintro rfl
      exact h List.mem_cons_self
    have hrest := ih fun hl => h (List.mem_cons_of_mem _ hl)
    rw [List.cons_append, List.splitOn_cons_eq_if_modifyHead, if_neg (by simp [hx]), hrest]
    cases m.splitOn a <;> rfl

/-- The parts of a text between a separator of the basic plane. -/
theorem splitOn_ofChars (hd : d.toNat < 0xd800) (s : List Char) :
    (ofChars s).splitOn d.toNat.toUInt16 = (s.splitOn d).map ofChars := by
  induction s with
  | nil => rfl
  | cons c s ih =>
    rw [ofChars_cons, List.splitOn_cons_eq_if_modifyHead]
    by_cases hc : c = d
    · subst hc
      have hunits : units c = [c.toNat.toUInt16] := units_of_lt (by omega)
      rw [hunits, List.singleton_append, List.splitOn_cons_eq_if_modifyHead, if_pos (by simp),
        if_pos (by simp), ih]
      rfl
    · have hnot : d.toNat.toUInt16 ∉ units c := fun hu => hc ((toUInt16_mem_units hd).1 hu)
      rw [splitOn_append_of_notMem hnot, ih, if_neg (by simpa using hc)]
      cases s.splitOn d with
      | nil => rfl
      | cons part parts => simp [ofChars_cons]

end Units

end Kotlin
