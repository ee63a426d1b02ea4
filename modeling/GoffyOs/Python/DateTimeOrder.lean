import GoffyOs.Lib.Lexicographic
import GoffyOs.Python.DateTime
import GoffyOs.Python.Sqlite
import GoffyOs.Python.Utf8

/-!
# Stored timestamps in order

A column of timestamps is sorted by text. `isoformat` leaves out the microseconds where they are zero,
so that a whole second ends in `Z` where the others of the same second go on with `.`, and `Z` is the
greater character. `Clash` is this case; without it, texts have the order of their instants.
-/

namespace Python

-- `decide` looks at the members of a list one by one
attribute [local instance (high)] List.decidableBAll

/-! ### Texts as bytes -/

section Bytes

variable {s t : Str}

/-- Texts of ASCII have the order of their bytes. -/
theorem utf8_lt_utf8_iff (hs : ∀ c ∈ s, c.toNat < 0x80) (ht : ∀ c ∈ t, c.toNat < 0x80) :
    utf8 s < utf8 t ↔ s < t := by
  induction s generalizing t with
  | nil =>
    cases t with
    | nil => simp [utf8]
    | cons d t =>
      rw [utf8_cons_ascii (ht d List.mem_cons_self)]
      simp [utf8]
  | cons c s ih =>
    have hc := hs c List.mem_cons_self
    cases t with
    | nil => simp [utf8]
    | cons d t =>
      have hd := ht d List.mem_cons_self
      have hrest := ih (fun x hx => hs x (List.mem_cons_of_mem _ hx))
        fun x hx => ht x (List.mem_cons_of_mem _ hx)
      have hbyte : ∀ n < 0x80, (UInt8.ofNat n).toNat = n := fun n hn => by
        rw [UInt8.toNat_ofNat']
        omega
      have hlt : UInt8.ofNat c.toNat < UInt8.ofNat d.toNat ↔ c < d := by
        rw [UInt8.lt_iff_toNat_lt, hbyte _ hc, hbyte _ hd]
        rfl
      have heq : UInt8.ofNat c.toNat = UInt8.ofNat d.toNat ↔ c = d := by
        rw [← UInt8.toNat_inj, hbyte _ hc, hbyte _ hd, Char.toNat_inj]
      rw [utf8_cons_ascii hc, utf8_cons_ascii hd, List.cons_lt_cons_iff, List.cons_lt_cons_iff, hlt, heq,
        hrest]

end Bytes

/-! ### The calendar -/

/-- A multiple begins at `y` or none does. -/
theorem div_eq_div_pred_add {k y : ℕ} (hy : 1 ≤ y) :
    y / k = (y - 1) / k + if y % k = 0 then 1 else 0 := by
  obtain ⟨x, rfl⟩ := Nat.exists_eq_add_of_le' hy
  rw [Nat.add_sub_cancel, Nat.succ_div]
  congr 1
  simp only [Nat.dvd_iff_mod_eq_zero]

theorem daysBeforeYear_succ {y : ℕ} (hy : 1 ≤ y) :
    daysBeforeYear (y + 1) = daysBeforeYear y + 365 + if isLeap y then 1 else 0 := by
  have h4 := div_eq_div_pred_add (k := 4) hy
  have h100 := div_eq_div_pred_add (k := 100) hy
  have h400 := div_eq_div_pred_add (k := 400) hy
  have hle : (y - 1) / 100 ≤ (y - 1) / 4 := Nat.div_le_div_left (by decide) (by decide)
  have hdvd : y % 400 = 0 → y % 100 = 0 := by omega
  have hdvd' : y % 100 = 0 → y % 4 = 0 := by omega
  have hdays : (y + 1 - 1) * 365 = (y - 1) * 365 + 365 := by omega
  unfold daysBeforeYear isLeap
  rw [hdays, Nat.add_sub_cancel, h4, h100, h400]
  generalize (y - 1) / 4 = q at *
  generalize (y - 1) / 100 = r at *
  by_cases y4 : y % 4 = 0
  · by_cases y100 : y % 100 = 0
    · by_cases y400 : y % 400 = 0
      · simp only [y4, y100, y400, if_true]
        simp
        omega
      · simp only [y4, y100, y400, if_true, if_false]
        simp [y400]
        omega
    · simp only [y4, y100, mt hdvd y100, if_true, if_false]
      simp [y100]
      omega
  · simp only [y4, mt hdvd' y4, mt hdvd (mt hdvd' y4), if_false]
    simp [y4]
    omega

theorem daysBeforeYear_mono {y y' : ℕ} (hy : 1 ≤ y) (h : y ≤ y') :
    daysBeforeYear y ≤ daysBeforeYear y' := by
  induction y', h using Nat.le_induction with
  | base => exact le_rfl
  | succ n hn ih =>
    rw [daysBeforeYear_succ (hy.trans hn)]
    omega

theorem daysBeforeMonth_succ (y : ℕ) {m : ℕ} (hm : 1 ≤ m) :
    daysBeforeMonth y (m + 1) = daysBeforeMonth y m + daysInMonth y m := by
  obtain ⟨k, rfl⟩ := Nat.exists_eq_add_of_le' hm
  unfold daysBeforeMonth
  rw [Nat.add_sub_cancel, Nat.add_sub_cancel, List.range_succ, List.map_append, List.sum_append]
  rfl

theorem daysBeforeMonth_mono (y : ℕ) {m m' : ℕ} (hm : 1 ≤ m) (h : m ≤ m') :
    daysBeforeMonth y m ≤ daysBeforeMonth y m' := by
  induction m', h using Nat.le_induction with
  | base => exact le_rfl
  | succ n hn ih =>
    rw [daysBeforeMonth_succ y (hm.trans hn)]
    omega

theorem daysBeforeMonth_thirteen (y : ℕ) :
    daysBeforeMonth y 13 = 365 + if isLeap y then 1 else 0 := by
  by_cases h : isLeap y = true
  · simp [daysBeforeMonth, daysInMonth, List.range_succ, h]
  · simp [daysBeforeMonth, daysInMonth, List.range_succ, h]

/-- The days of a year come before the next year. -/
theorem toOrdinal_le {y m d : ℕ} (hy : 1 ≤ y) (hm : 1 ≤ m ∧ m ≤ 12) (hd : d ≤ daysInMonth y m) :
    toOrdinal y m d ≤ daysBeforeYear (y + 1) := by
  have hmonth := daysBeforeMonth_succ y hm.1
  have hle := daysBeforeMonth_mono y (Nat.le_add_left 1 m) (show m + 1 ≤ 13 by omega)
  rw [daysBeforeMonth_thirteen] at hle
  rw [toOrdinal, daysBeforeYear_succ hy]
  omega

/-- Dates in order. -/
theorem toOrdinal_lt {y m d y' m' d' : ℕ} (hy : 1 ≤ y) (hm : 1 ≤ m ∧ m ≤ 12)
    (hd : 1 ≤ d ∧ d ≤ daysInMonth y m) (hm' : 1 ≤ m') (hd' : 1 ≤ d')
    (h : y < y' ∨ y = y' ∧ (m < m' ∨ m = m' ∧ d < d')) : toOrdinal y m d < toOrdinal y' m' d' := by
  rcases h with h | ⟨rfl, h | ⟨rfl, h⟩⟩
  · have hle := toOrdinal_le hy hm hd.2
    have hmono := daysBeforeYear_mono (Nat.le_add_left 1 y) (show y + 1 ≤ y' from h)
    unfold toOrdinal at hle ⊢
    omega
  · have hmonth := daysBeforeMonth_succ y hm.1
    have hmono := daysBeforeMonth_mono y (Nat.le_add_left 1 m) (show m + 1 ≤ m' from h)
    unfold toOrdinal
    omega
  · unfold toOrdinal
    omega

/-! ### Instants and texts -/

/-- The order of the fields from the year down to the second, and then of `rest`. -/
def FieldsBefore (a b : Fields) (rest : Prop) : Prop :=
  a.year < b.year ∨ a.year = b.year ∧ (a.month < b.month ∨ a.month = b.month ∧
    (a.day < b.day ∨ a.day = b.day ∧ (a.hour < b.hour ∨ a.hour = b.hour ∧
      (a.minute < b.minute ∨ a.minute = b.minute ∧ (a.second < b.second ∨ a.second = b.second ∧
        rest)))))

theorem fieldsBefore_iff_of_iff {a b : Fields} {p q : Prop}
    (h : a.year = b.year → a.month = b.month → a.day = b.day → a.hour = b.hour →
      a.minute = b.minute → a.second = b.second → (p ↔ q)) :
    FieldsBefore a b p ↔ FieldsBefore a b q := by
  unfold FieldsBefore
  tauto

theorem micros_lt_of_fieldsBefore {a b : NaiveDateTime}
    (h : FieldsBefore a.val b.val (a.val.microsecond < b.val.microsecond)) : a.micros < b.micros := by
  obtain ⟨⟨hy, -⟩, hm, hd, hh, hmin, hs, hus⟩ := a.property
  obtain ⟨⟨hy', -⟩, hm', hd', hh', hmin', hs', hus'⟩ := b.property
  have hdate : (a.val.year < b.val.year ∨ a.val.year = b.val.year ∧ (a.val.month < b.val.month ∨
      a.val.month = b.val.month ∧ a.val.day < b.val.day)) →
      toOrdinal a.val.year a.val.month a.val.day < toOrdinal b.val.year b.val.month b.val.day :=
    toOrdinal_lt hy hm hd hm'.1 hd'.1
  unfold NaiveDateTime.micros
  unfold FieldsBefore at h
  rcases h with h | ⟨hyear, h | ⟨hmonth, h | ⟨hday, h⟩⟩⟩
  · have := hdate (Or.inl h)
    omega
  · have := hdate (Or.inr ⟨hyear, Or.inl h⟩)
    omega
  · have := hdate (Or.inr ⟨hyear, Or.inr ⟨hmonth, h⟩⟩)
    omega
  · rw [hyear, hmonth, hday]
    omega

/-- Two instants are the same, or one is before the other one. -/
theorem fieldsBefore_total {a b : NaiveDateTime} (hne : a ≠ b) :
    FieldsBefore a.val b.val (a.val.microsecond < b.val.microsecond) ∨
      FieldsBefore b.val a.val (b.val.microsecond < a.val.microsecond) := by
  have hfields : ¬ (a.val.year = b.val.year ∧ a.val.month = b.val.month ∧ a.val.day = b.val.day ∧
      a.val.hour = b.val.hour ∧ a.val.minute = b.val.minute ∧ a.val.second = b.val.second ∧
      a.val.microsecond = b.val.microsecond) := by
    rintro ⟨h1, h2, h3, h4, h5, h6, h7⟩
    refine hne (Subtype.ext ?_)
    cases ha : a.val
    cases hb : b.val
    simp_all
  unfold FieldsBefore
  omega

/-- The fields are compared from the year down. -/
theorem micros_lt_iff {a b : NaiveDateTime} : a.micros < b.micros ↔
    FieldsBefore a.val b.val (a.val.microsecond < b.val.microsecond) := by
  constructor
  · intro h
    have hne : a ≠ b := by
      rintro rfl
      exact lt_irrefl _ h
    refine (fieldsBefore_total hne).resolve_right fun hback => ?_
    exact absurd (micros_lt_of_fieldsBefore hback) (by omega)
  · exact micros_lt_of_fieldsBefore

theorem micros_injective : Function.Injective NaiveDateTime.micros := by
  intro a b h
  by_contra hne
  rcases fieldsBefore_total hne with hlt | hlt
  · exact absurd (micros_lt_of_fieldsBefore hlt) (by omega)
  · exact absurd (micros_lt_of_fieldsBefore hlt) (by omega)

/-- What follows the seconds in a stored timestamp. -/
def isoTail (d : NaiveDateTime) : Str :=
  (if d.val.microsecond = 0 then [] else '.' :: Positional.write 10 6 d.val.microsecond) ++ ['Z']

theorem serializeDatetime_lt_iff {a b : NaiveDateTime} : serializeDatetime a < serializeDatetime b ↔
    FieldsBefore a.val b.val (isoTail a < isoTail b) := by
  obtain ⟨⟨-, hy⟩, hm, hd, hh, hmin, hs, -⟩ := a.property
  obtain ⟨⟨-, hy'⟩, hm', hd', hh', hmin', hs', -⟩ := b.property
  have hdays : ∀ y m, daysInMonth y m ≤ 31 := by
    intro y m
    unfold daysInMonth
    repeat' split
    all_goals omega
  have hd31 := hdays a.val.year a.val.month
  have hd31' := hdays b.val.year b.val.month
  have hlength : ∀ w m n, (Positional.write 10 w m).length = (Positional.write 10 w n).length := by
    simp
  have hpart : ∀ {w m n : ℕ} {s t : Str}, m < 10 ^ w → n < 10 ^ w →
      (Positional.write 10 w m ++ s < Positional.write 10 w n ++ t ↔ m < n ∨ m = n ∧ s < t) := by
    intro w m n s t hm hn
    rw [Lexicographic.append_lt_append_iff (hlength w m n), Lexicographic.write_lt_write_iff hm hn,
      Lexicographic.write_eq_write_iff hm hn]
  rw [serializeDatetime_eq, serializeDatetime_eq]
  unfold isoDate isoTime
  simp only [List.append_assoc, List.cons_append]
  rw [hpart (by omega) (by omega), List.cons_lt_cons_self, hpart (by omega) (by omega),
    List.cons_lt_cons_self, hpart (by omega) (by omega), List.cons_lt_cons_self,
    hpart (by omega) (by omega), List.cons_lt_cons_self, hpart (by omega) (by omega),
    List.cons_lt_cons_self, hpart (by omega) (by omega)]
  rfl

/-- The second in which an instant lies. -/
def Fields.wholeSecond (f : Fields) : Fields := { f with microsecond := 0 }

theorem wholeSecond_eq_iff {f g : Fields} : f.wholeSecond = g.wholeSecond ↔
    f.year = g.year ∧ f.month = g.month ∧ f.day = g.day ∧ f.hour = g.hour ∧ f.minute = g.minute ∧
      f.second = g.second := by
  simp [Fields.wholeSecond]

/-- One of the two is a whole second, and the other one lies within it. -/
def Clash (a b : NaiveDateTime) : Prop :=
  a.val.wholeSecond = b.val.wholeSecond ∧
    ¬ (a.val.microsecond = 0 ↔ b.val.microsecond = 0)

instance (a b : NaiveDateTime) : Decidable (Clash a b) := inferInstanceAs (Decidable (_ ∧ _))

theorem Clash.symm {a b : NaiveDateTime} (h : Clash a b) : Clash b a :=
  ⟨h.1.symm, fun hiff => h.2 hiff.symm⟩

theorem isoTail_lt_iff {a b : NaiveDateTime} (h : a.val.microsecond = 0 ↔ b.val.microsecond = 0) :
    isoTail a < isoTail b ↔ a.val.microsecond < b.val.microsecond := by
  unfold isoTail
  by_cases ha : a.val.microsecond = 0
  · have hb := h.1 ha
    rw [if_pos ha, if_pos hb, ha, hb]
    exact iff_of_false (List.lt_irrefl _) (lt_irrefl _)
  · have hb := mt h.2 ha
    have hus := a.property.2.2.2.2.2.2
    have hus' := b.property.2.2.2.2.2.2
    rw [if_neg ha, if_neg hb, List.cons_append, List.cons_append, List.cons_lt_cons_self,
      Lexicographic.append_lt_append_iff (by simp),
      Lexicographic.write_lt_write_iff (by omega) (by omega)]
    constructor
    · rintro (hlt | ⟨-, hlt⟩)
      · exact hlt
      · exact absurd hlt (List.lt_irrefl _)
    · exact Or.inl

/-- Without a clash, texts have the order of their instants. -/
theorem serializeDatetime_lt_iff_micros {a b : NaiveDateTime} (h : ¬ Clash a b) :
    serializeDatetime a < serializeDatetime b ↔ a.micros < b.micros := by
  rw [serializeDatetime_lt_iff, micros_lt_iff]
  refine fieldsBefore_iff_of_iff fun h1 h2 h3 h4 h5 h6 => ?_
  refine isoTail_lt_iff ?_
  by_contra hnot
  exact h ⟨wholeSecond_eq_iff.2 ⟨h1, h2, h3, h4, h5, h6⟩, hnot⟩

/-- What holds of the digits and of the separators holds of all characters of a stored timestamp. -/
theorem of_mem_serializeDatetime {P : Char → Prop} {d : NaiveDateTime}
    (hdigit : ∀ n < 10, P (Positional.digitChar n)) (hother : ∀ c ∈ ['-', ':', '.', 'T', 'Z'], P c) :
    ∀ c ∈ serializeDatetime d, P c := by
  intro c hc
  rw [serializeDatetime_eq] at hc
  simp only [List.mem_append, List.mem_cons, List.not_mem_nil, or_false] at hc
  rcases hc with (hc | rfl | hc) | rfl
  · rcases mem_isoDate hc with ⟨n, hn, rfl⟩ | rfl
    · exact hdigit n hn
    · exact hother _ (by decide)
  · exact hother _ (by decide)
  · rcases mem_isoTime hc with ⟨n, hn, rfl⟩ | rfl | rfl
    · exact hdigit n hn
    · exact hother _ (by decide)
    · exact hother _ (by decide)
  · exact hother _ (by decide)

theorem ascii_serializeDatetime (d : NaiveDateTime) : ∀ c ∈ serializeDatetime d, c.toNat < 0x80 :=
  of_mem_serializeDatetime (by decide) (by decide)

/-- **Order of stored timestamps.** -/
theorem textLE_serializeDatetime_iff {a b : NaiveDateTime} (h : ¬ Clash a b) :
    textLE (serializeDatetime a) (serializeDatetime b) ↔ a.micros ≤ b.micros := by
  unfold textLE
  rw [utf8_lt_utf8_iff (ascii_serializeDatetime b) (ascii_serializeDatetime a),
    serializeDatetime_lt_iff_micros (mt Clash.symm h), not_lt]

/-- In a clash, the order of the texts is the other one. -/
theorem not_textLE_of_clash {a b : NaiveDateTime} (h : Clash a b) (hlt : a.micros < b.micros) :
    ¬ textLE (serializeDatetime a) (serializeDatetime b) := by
  obtain ⟨hsecond, hmixed⟩ := h
  obtain ⟨hyear, hmonth, hday, hhour, hminute, hsec⟩ := wholeSecond_eq_iff.1 hsecond
  have hus : a.val.microsecond < b.val.microsecond := by
    rw [micros_lt_iff] at hlt
    unfold FieldsBefore at hlt
    omega
  have ha : a.val.microsecond = 0 := by
    by_contra hne
    exact hmixed ⟨fun h0 => absurd h0 hne, fun h0 => by omega⟩
  have hb : b.val.microsecond ≠ 0 := by omega
  have htail : isoTail b < isoTail a := by
    unfold isoTail
    rw [if_pos ha, if_neg hb]
    exact List.cons_lt_cons_iff.2 (Or.inl (by decide))
  unfold textLE
  rw [not_not, utf8_lt_utf8_iff (ascii_serializeDatetime b) (ascii_serializeDatetime a),
    serializeDatetime_lt_iff]
  unfold FieldsBefore
  exact Or.inr ⟨hyear.symm, Or.inr ⟨hmonth.symm, Or.inr ⟨hday.symm, Or.inr ⟨hhour.symm,
    Or.inr ⟨hminute.symm, Or.inr ⟨hsec.symm, htail⟩⟩⟩⟩⟩⟩

end Python
