import GoffyOs.Python.Text
import Mathlib.Data.List.TakeDrop
import Mathlib.Tactic.Ring

/-!
# `datetime.datetime`

Calendar dates and times as Python has them, with the two texts the Hub exchanges with its
databases: `isoformatUtc` writes one (`datetime.isoformat` of a value in UTC) and `fromisoformat`
reads what the C parser of CPython reads (since Python 3.11): basic and extended forms, week dates,
any separator character, fractions and offsets, and with them what it lets pass, such as one stray
character before an offset, anything behind the sixth digit of a fraction there, or a NUL character
as the end of the text.

* `NaiveDateTime`: wall-clock fields in range, so that an impossible date cannot be built;
* `DateTime`: wall-clock fields with an optional UTC offset, in microseconds;
* `astimezoneUtc`: conversion to UTC. It needs the host's time zone for a value without an offset
  and fails with `OverflowError` when the result leaves the years 1 to 9999.

`fromisoformat_isoformatUtc` is the round trip and `serializeDatetime_injective` its consequence.
-/

namespace Python

/-- The built-in exceptions that reading a text can raise. -/
inductive Exn
  | valueError
  | overflowError
  deriving DecidableEq, Repr

/-! ### The calendar -/

def isLeap (y : ℕ) : Bool := y % 4 == 0 && (y % 100 != 0 || y % 400 == 0)

def daysInMonth (y m : ℕ) : ℕ :=
  if m = 2 then if isLeap y then 29 else 28
  else if m = 4 ∨ m = 6 ∨ m = 9 ∨ m = 11 then 30 else 31

/-- The fields of a `datetime`. -/
structure Fields where
  year : ℕ
  month : ℕ
  day : ℕ
  hour : ℕ
  minute : ℕ
  second : ℕ
  microsecond : ℕ
  deriving DecidableEq, Repr

/-- The ranges that the constructor of `datetime` enforces. -/
def Fields.Valid (f : Fields) : Prop :=
  (1 ≤ f.year ∧ f.year ≤ 9999) ∧ (1 ≤ f.month ∧ f.month ≤ 12) ∧
    (1 ≤ f.day ∧ f.day ≤ daysInMonth f.year f.month) ∧
    f.hour ≤ 23 ∧ f.minute ≤ 59 ∧ f.second ≤ 59 ∧ f.microsecond ≤ 999999

instance (f : Fields) : Decidable f.Valid := by unfold Fields.Valid; infer_instance

/-- A `datetime` without time zone, or one known to be in UTC. -/
abbrev NaiveDateTime := {f : Fields // f.Valid}

/-- The constructor of `datetime`; `none` is `ValueError`. -/
def Fields.construct (f : Fields) : Option NaiveDateTime := if h : f.Valid then some ⟨f, h⟩ else none

/-- A `datetime` with its UTC offset in microseconds, `none` for a naive value. -/
structure DateTime where
  wall : NaiveDateTime
  offset : Option ℤ
  deriving DecidableEq

def daysBeforeYear (y : ℕ) : ℕ := (y - 1) * 365 + (y - 1) / 4 - (y - 1) / 100 + (y - 1) / 400

def daysBeforeMonth (y m : ℕ) : ℕ := ((List.range (m - 1)).map fun i => daysInMonth y (i + 1)).sum

/-- `date.toordinal`: day 1 is 0001-01-01. -/
def toOrdinal (y m d : ℕ) : ℕ := daysBeforeYear y + daysBeforeMonth y m + d

/-- Month and day of the `n`-th day (from 0) of the months from `m` on. -/
def monthDay (y : ℕ) : ℕ → ℕ → ℕ → ℕ × ℕ
  | 0, m, n => (m, n + 1)
  | k + 1, m, n => if n < daysInMonth y m then (m, n + 1) else monthDay y k (m + 1) (n - daysInMonth y m)

/-- `date.fromordinal`, by 400-, 100-, 4- and 1-year cycles. -/
def ofOrdinal (n : ℕ) : ℕ × ℕ × ℕ :=
  let n := n - 1
  let n₄₀₀ := n / 146097
  let n := n % 146097
  let n₁₀₀ := n / 36524
  let n := n % 36524
  let n₄ := n / 1461
  let n := n % 1461
  let n₁ := n / 365
  let year := n₄₀₀ * 400 + 1 + n₁₀₀ * 100 + n₄ * 4 + n₁
  if n₁ = 4 ∨ n₁₀₀ = 4 then (year - 1, 12, 31)
  else
    let (m, d) := monthDay year 11 1 (n % 365)
    (year, m, d)

/-- Microseconds since day 0. -/
def NaiveDateTime.micros (d : NaiveDateTime) : ℕ :=
  (((toOrdinal d.val.year d.val.month d.val.day * 24 + d.val.hour) * 60 + d.val.minute) * 60 +
    d.val.second) * 1000000 + d.val.microsecond

/-- The date and time at a number of microseconds since day 0; `none` is `OverflowError`. -/
def ofMicros (t : ℤ) : Option NaiveDateTime :=
  if 86400000000 ≤ t then
    let n := t.toNat
    let (y, m, d) := ofOrdinal (n / 86400000000)
    Fields.construct
      { year := y, month := m, day := d, hour := n / 3600000000 % 24, minute := n / 60000000 % 60
        second := n / 1000000 % 60, microsecond := n % 1000000 }
  else none

/-- `value + timedelta(seconds=n)`; `none` is `OverflowError`. -/
def NaiveDateTime.addSeconds (d : NaiveDateTime) (n : ℕ) : Option NaiveDateTime :=
  ofMicros (d.micros + n * 1000000)

/-- `a < b`. -/
def NaiveDateTime.before (a b : NaiveDateTime) : Bool := a.micros < b.micros

/-- `value.astimezone(UTC)`. The offset of a naive value is the one of the host's time zone. -/
def astimezoneUtc (localOffset : NaiveDateTime → Except Exn ℤ) (d : DateTime) :
    Except Exn NaiveDateTime := do
  let offset ← match d.offset with
    | some o => pure o
    | none => localOffset d.wall
  if offset = 0 then return d.wall
  else match ofMicros (d.wall.micros - offset) with
    | some utc => return utc
    | none => throw .overflowError

/-! ### Writing -/

/-- `value.isoformat()` of a value in UTC. -/
def isoformatUtc (d : NaiveDateTime) : Str :=
  Positional.write 10 4 d.val.year ++ '-' :: (Positional.write 10 2 d.val.month ++
    '-' :: (Positional.write 10 2 d.val.day ++ 'T' :: (Positional.write 10 2 d.val.hour ++
    ':' :: (Positional.write 10 2 d.val.minute ++ ':' :: (Positional.write 10 2 d.val.second ++
    ((if d.val.microsecond = 0 then [] else '.' :: Positional.write 10 6 d.val.microsecond) ++
      "+00:00".toList))))))

/-- `value.isoformat().replace("+00:00", "Z")` of a value in UTC. -/
def serializeDatetime (d : NaiveDateTime) : Str :=
  replace "+00:00".toList "Z".toList (isoformatUtc d)

/-! ### Reading -/

/-- The number written by the next `n` characters, which must be ASCII digits. -/
def takeDigits (n : ℕ) (s : Str) : Option (ℕ × Str) :=
  if n ≤ s.length then (Positional.read? 10 (s.take n)).map fun v => (v, s.drop n) else none

def isAsciiDigit (c : Char) : Bool := '0' ≤ c && c ≤ '9'

/-- Where the date ends in an ISO 8601 text of at least seven characters. -/
def findSeparator (s : Str) : Option ℕ :=
  if s.length = 7 then some 7
  else if s[4]? = some '-' then
    if s[5]? = some 'W' then
      if s[8]? = some '-' then
        if s.length = 9 then none
        else if (s[10]?).any isAsciiDigit then some 8 else some 10
      else some 8
    else some 10
  else if s[4]? = some 'W' then
    let stop := 7 + ((s.drop 7).takeWhile isAsciiDigit).length
    if stop < 9 then some stop else if stop % 2 = 0 then some 7 else some 8
  else some 8

/-- The ordinal of the Monday that starts ISO week 1. -/
def isoWeek1Monday (y : ℕ) : ℕ :=
  let firstDay := toOrdinal y 1 1
  let firstWeekday := (firstDay + 6) % 7
  if 3 < firstWeekday then firstDay - firstWeekday + 7 else firstDay - firstWeekday

/-- Year, month and day of an ISO week date. -/
def isoToYmd (y w d : ℕ) : Option (ℕ × ℕ × ℕ) :=
  let firstWeekday := (toOrdinal y 1 1 + 6) % 7
  let weeks := if firstWeekday = 3 ∨ (firstWeekday = 2 ∧ isLeap y) then 53 else 52
  if 1 ≤ y ∧ y ≤ 9999 ∧ 1 ≤ w ∧ w ≤ weeks ∧ 1 ≤ d ∧ d ≤ 7 then
    some (ofOrdinal (isoWeek1Monday y + (w - 1) * 7 + (d - 1)))
  else none

/-- A separator that must be there exactly when the date uses separators. -/
def dropDash (extended : Bool) (s : Str) : Option Str :=
  if extended then
    match s with
    | '-' :: s => some s
    | _ => none
  else some s

def parseWeekDate (extended : Bool) (year : ℕ) (s : Str) : Option (ℕ × ℕ × ℕ) := do
  let (week, s) ← takeDigits 2 s
  if s = [] then isoToYmd year week 1
  else
    let s ← dropDash extended s
    let (day, _) ← takeDigits 1 s
    isoToYmd year week day

def parseMonthDay (extended : Bool) (year : ℕ) (s : Str) : Option (ℕ × ℕ × ℕ) := do
  let (month, s) ← takeDigits 2 s
  let s ← dropDash extended s
  let (day, s) ← takeDigits 2 s
  if s = [] then return (year, month, day) else none

/-- `YYYY[-]MM[-]DD`, `YYYY[-]Www` or `YYYY[-]Www[-]D`. -/
def parseDate (s : Str) : Option (ℕ × ℕ × ℕ) := do
  let (year, s) ← takeDigits 4 s
  match s with
  | '-' :: 'W' :: s => parseWeekDate true year s
  | '-' :: s => parseMonthDay true year s
  | 'W' :: s => parseWeekDate false year s
  | s => parseMonthDay false year s

/-- Whether the parser sees anything: a NUL character ends the text for it. -/
def leftOver : Str → Bool
  | [] => false
  | c :: _ => c ≠ Char.ofNat 0

/-- A fraction of a second in microseconds, and whether anything but digits is left over behind its
first six characters. -/
def parseFraction (s : Str) : Option (ℕ × Bool) := do
  let vs ← Positional.readDigits 10 (s.take 6)
  return (Positional.value 10 vs * 10 ^ (6 - vs.length), leftOver ((s.drop 6).dropWhile isAsciiDigit))

/-- What stands behind a component of a time. -/
inductive AfterComponent
  | stop (left : Bool)
  | fraction (s : Str)
  | component (s : Str)

/-- One character that ends the text is left over, whatever it is; it must be a single byte. -/
def afterComponent (hasSeparator : Bool) : Str → Option AfterComponent
  | [] => some (.stop false)
  | [c] => if c.toNat < 128 then some (.stop (leftOver [c])) else none
  | c :: s =>
    if hasSeparator ∧ c = ':' then some (.component s)
    else if c = '.' ∨ c = ',' then some (.fraction s)
    else if hasSeparator then none
    else some (.component (c :: s))

/-- The loop of `parse_hh_mm_ss_ff`: at most `n` more components and the microseconds. The first
component decides whether the others are separated by colons. -/
def parseComponents (hasSeparator : Option Bool) : ℕ → Str → Option (List ℕ × ℕ × Bool)
  | 0, s => do
    let (us, left) ← parseFraction s
    return ([], us, left)
  | n + 1, s => do
    let (v, s) ← takeDigits 2 s
    let hasSeparator := hasSeparator.getD (s.head? = some ':')
    match ← afterComponent hasSeparator s with
    | .stop left => return ([v], 0, left)
    | .fraction s =>
      let (us, left) ← parseFraction s
      return ([v], us, left)
    | .component s =>
      let (vs, us, left) ← parseComponents (some hasSeparator) n s
      return (v :: vs, us, left)

/-- Hour, minute, second and microsecond. -/
abbrev TimeOfDay := ℕ × ℕ × ℕ × ℕ

/-- `parse_hh_mm_ss_ff`, which reads `HH[:?MM[:?SS[{.,}f+]]]`, and whether anything is left over. -/
def parseTimeOfDay (s : Str) : Option (TimeOfDay × Bool) := do
  let (vs, us, left) ← parseComponents none 3 s
  return ((vs[0]?.getD 0, vs[1]?.getD 0, vs[2]?.getD 0, us), left)

/-- The characters that start a time zone. -/
def startsZone (c : Char) : Bool := c == '+' || c == '-' || c == 'Z'

/-- An offset, which must be shorter than a day. Microseconds alone do not count. -/
def parseZone : Str → Option (Option ℤ)
  | [] => some none
  | c :: s =>
    if c = 'Z' then
      if leftOver s then none else some (some 0)
    else do
      let ((h, m, sec, us), left) ← parseTimeOfDay s
      let seconds := (h * 60 + m) * 60 + sec
      let micros := seconds * 1000000 + us
      if left then none
      else if seconds = 0 then return some 0
      else if micros < 86400000000 then return some (if c = '-' then -(micros : ℤ) else micros)
      else none

/-- `parse_isoformat_time`: what is left over before an offset does not matter. -/
def parseTime (s : Str) : Option (TimeOfDay × Option ℤ) := do
  let (time, left) ← parseTimeOfDay (s.takeWhile fun c => !startsZone c)
  let zone ← parseZone (s.dropWhile fun c => !startsZone c)
  if left ∧ zone = none then none
  else return (time, zone)

/-- `datetime.fromisoformat(text)`; `none` is `ValueError`. -/
def fromisoformat (s : Str) : Option DateTime := do
  if s.length < 7 then none
  let sep ← findSeparator s
  let (y, mo, d) ← parseDate (s.take sep)
  let ((h, mi, sec, us), zone) ←
    if s.length ≤ sep then some ((0, 0, 0, 0), none) else parseTime (s.drop (sep + 1))
  let wall ← Fields.construct
    { year := y, month := mo, day := d, hour := h, minute := mi, second := sec, microsecond := us }
  return { wall := wall, offset := zone }

/-- `datetime.fromisoformat(text.replace("Z", "+00:00")).astimezone(UTC)`. -/
def parseDatetime (localOffset : NaiveDateTime → Except Exn ℤ) (s : Str) :
    Except Exn NaiveDateTime :=
  match fromisoformat (replace "Z".toList "+00:00".toList s) with
  | some d => astimezoneUtc localOffset d
  | none => throw .valueError

/-! ### The round trip -/

theorem takeDigits_write {w n : ℕ} (hn : n < 10 ^ w) (s : Str) :
    takeDigits w (Positional.write 10 w n ++ s) = some (n, s) := by
  have hlen : (Positional.write 10 w n).length = w := Positional.length_write 10 w n
  rw [takeDigits, if_pos (by simp), List.take_append_of_le_length (by simp),
    List.take_of_length_le (by simp), List.drop_append_of_le_length (by simp),
    List.drop_of_length_le (by simp), Positional.read?_write (by decide) (by decide) hn]
  rfl

/-- No digit starts a time zone or a week. -/
theorem digitChar_ne {d : ℕ} (hd : d < 10) :
    startsZone (Positional.digitChar d) = false ∧ Positional.digitChar d ≠ 'W' ∧
      Positional.digitChar d ≠ 'Z' ∧ Positional.digitChar d ≠ '+' := by
  have h : ∀ d < 10, startsZone (Positional.digitChar d) = false ∧ Positional.digitChar d ≠ 'W' ∧
      Positional.digitChar d ≠ 'Z' ∧ Positional.digitChar d ≠ '+' := by decide
  exact h d hd

theorem parseMonthDay_write {m d : ℕ} (hm : m < 100) (hd : d < 100) (y : ℕ) :
    parseMonthDay true y (Positional.write 10 2 m ++ '-' :: Positional.write 10 2 d) =
      some (y, m, d) := by
  have hday := takeDigits_write (w := 2) (by simpa using hd) []
  rw [List.append_nil] at hday
  simp [parseMonthDay, takeDigits_write (w := 2) (by simpa using hm), dropDash, hday]

theorem parseDate_write {y m d : ℕ} (hy : y < 10000) (hm : m < 100) (hd : d < 100) :
    parseDate (Positional.write 10 4 y ++ '-' :: (Positional.write 10 2 m ++
      '-' :: Positional.write 10 2 d)) = some (y, m, d) := by
  have hmonth := parseMonthDay_write hm hd y
  rw [parseDate, takeDigits_write (w := 4) (by simpa using hy)]
  simp only [Option.bind_eq_bind, Option.bind_some]
  have hdigit : m / 10 % 10 < 10 := Nat.mod_lt _ (by decide)
  simp only [Positional.write, Positional.digits, List.map_cons, List.cons_append] at hmonth ⊢
  split
  · rename_i h
    simp only [List.cons.injEq, true_and] at h
    exact absurd h.1 (digitChar_ne (by simpa using hdigit)).2.1
  · rename_i h
    simp only [List.cons.injEq, true_and] at h
    rwa [h] at hmonth
  · rename_i h
    simp at h
  · rename_i h _
    exact absurd rfl (h _)

theorem parseFraction_write {us : ℕ} (hus : us < 1000000) :
    parseFraction (Positional.write 10 6 us) = some (us, false) := by
  have hdigits : Positional.readDigits 10 (Positional.write 10 6 us) =
      some (Positional.digits 10 6 us) :=
    Positional.readDigits_map (by decide) (Positional.digits_lt (by decide) 6 us)
  have htake : (Positional.write 10 6 us).take 6 = Positional.write 10 6 us :=
    List.take_of_length_le (by simp)
  have hdrop : (Positional.write 10 6 us).drop 6 = [] := List.drop_of_length_le (by simp)
  rw [parseFraction, htake, hdigits, hdrop]
  simp [Positional.value_digits, hus, leftOver]

/-- A component and what follows it behind a colon. -/
theorem parseComponents_colon {hasSeparator : Option Bool} (hsep : hasSeparator ≠ some false)
    {v : ℕ} (hv : v < 100) (n : ℕ) {s : Str} (hs : s ≠ []) :
    parseComponents hasSeparator (n + 1) (Positional.write 10 2 v ++ ':' :: s) =
      (parseComponents (some true) n s).map fun r => (v :: r.1, r.2) := by
  have hafter : afterComponent true (':' :: s) = some (.component s) := by
    cases s with
    | nil => exact absurd rfl hs
    | cons c s => rfl
  have hgetD : hasSeparator.getD (decide ((':' :: s).head? = some ':')) = true := by
    match hasSeparator, hsep with
    | none, _ => simp
    | some true, _ => rfl
  rw [parseComponents, takeDigits_write (w := 2) (by simpa using hv)]
  simp only [Option.bind_eq_bind, Option.bind_some, hgetD, hafter]
  cases parseComponents (some true) n s <;> rfl

/-- The last component, with or without a fraction. -/
theorem parseComponents_last {sec us : ℕ} (hs : sec < 100) (hus : us < 1000000) :
    parseComponents (some true) 1 (Positional.write 10 2 sec ++
      (if us = 0 then [] else '.' :: Positional.write 10 6 us)) = some ([sec], us, false) := by
  rw [parseComponents, takeDigits_write (w := 2) (by simpa using hs)]
  by_cases h0 : us = 0
  · simp [h0, afterComponent]
  · have hafter : afterComponent true ('.' :: Positional.write 10 6 us) =
        some (.fraction (Positional.write 10 6 us)) := rfl
    simp [h0, hafter, parseFraction_write hus]

theorem parseTimeOfDay_write {h m sec us : ℕ} (hh : h < 100) (hm : m < 100) (hs : sec < 100)
    (hus : us < 1000000) :
    parseTimeOfDay (Positional.write 10 2 h ++ ':' :: (Positional.write 10 2 m ++
      ':' :: (Positional.write 10 2 sec ++
        (if us = 0 then [] else '.' :: Positional.write 10 6 us)))) =
      some ((h, m, sec, us), false) := by
  have hne : ∀ v (t : Str), Positional.write 10 2 v ++ t ≠ [] := by
    simp [Positional.write, Positional.digits]
  rw [parseTimeOfDay, parseComponents_colon (by simp) hh 2 (hne _ _),
    parseComponents_colon (by simp) hm 1 (hne _ _), parseComponents_last hs hus]
  rfl

/-- The time of day of a text that `isoformat` wrote, without the offset. -/
def isoTime (d : NaiveDateTime) : Str :=
  Positional.write 10 2 d.val.hour ++ ':' :: (Positional.write 10 2 d.val.minute ++
    ':' :: (Positional.write 10 2 d.val.second ++
      (if d.val.microsecond = 0 then [] else '.' :: Positional.write 10 6 d.val.microsecond)))

/-- The date of a text that `isoformat` wrote. -/
def isoDate (d : NaiveDateTime) : Str :=
  Positional.write 10 4 d.val.year ++ '-' :: (Positional.write 10 2 d.val.month ++
    '-' :: Positional.write 10 2 d.val.day)

theorem isoformatUtc_eq (d : NaiveDateTime) :
    isoformatUtc d = isoDate d ++ 'T' :: (isoTime d ++ "+00:00".toList) := by
  simp [isoformatUtc, isoDate, isoTime]

theorem mem_isoDate {d : NaiveDateTime} {c : Char} (hc : c ∈ isoDate d) :
    (∃ n < 10, c = Positional.digitChar n) ∨ c = '-' := by
  have hw : ∀ w n, c ∈ Positional.write 10 w n → ∃ n < 10, c = Positional.digitChar n :=
    fun w n h => Positional.mem_write (by decide) h
  simp only [isoDate, List.mem_append, List.mem_cons] at hc
  rcases hc with h | h | h | h | h
  · exact Or.inl (hw _ _ h)
  · exact Or.inr h
  · exact Or.inl (hw _ _ h)
  · exact Or.inr h
  · exact Or.inl (hw _ _ h)

theorem mem_isoTime {d : NaiveDateTime} {c : Char} (hc : c ∈ isoTime d) :
    (∃ n < 10, c = Positional.digitChar n) ∨ c = ':' ∨ c = '.' := by
  have hw : ∀ w n, c ∈ Positional.write 10 w n → ∃ n < 10, c = Positional.digitChar n :=
    fun w n h => Positional.mem_write (by decide) h
  simp only [isoTime, List.mem_append, List.mem_cons] at hc
  rcases hc with h | h | h | h | h | h
  · exact Or.inl (hw _ _ h)
  · exact Or.inr (Or.inl h)
  · exact Or.inl (hw _ _ h)
  · exact Or.inr (Or.inl h)
  · exact Or.inl (hw _ _ h)
  · split at h
    · simp at h
    · rcases List.mem_cons.1 h with h | h
      · exact Or.inr (Or.inr h)
      · exact Or.inl (hw _ _ h)

theorem length_isoDate (d : NaiveDateTime) : (isoDate d).length = 10 := by simp [isoDate]

theorem findSeparator_isoDate (d : NaiveDateTime) (t : Str) :
    findSeparator (isoDate d ++ 'T' :: t) = some 10 := by
  have hlen : (isoDate d ++ 'T' :: t).length ≠ 7 := by
    rw [List.length_append, length_isoDate]
    omega
  have h4 : (isoDate d ++ 'T' :: t)[4]? = some '-' := by
    simp [isoDate, Positional.write, Positional.digits]
  have h5 : (isoDate d ++ 'T' :: t)[5]? ≠ some 'W' := by
    have hdigit : d.val.month / 10 % 10 < 10 := Nat.mod_lt _ (by decide)
    have := (digitChar_ne hdigit).2.1
    simpa [isoDate, Positional.write, Positional.digits] using this
  rw [findSeparator, if_neg hlen, if_pos h4, if_neg h5]

theorem parseTime_isoTime (d : NaiveDateTime) :
    parseTime (isoTime d ++ "+00:00".toList) =
      some ((d.val.hour, d.val.minute, d.val.second, d.val.microsecond), some 0) := by
  obtain ⟨-, -, -, hh, hm, hs, hus⟩ := d.property
  have hnoZone : ∀ c ∈ isoTime d, (!startsZone c) = true := by
    intro c hc
    rcases mem_isoTime hc with ⟨n, hn, rfl⟩ | rfl | rfl
    · simp [(digitChar_ne hn).1]
    · rfl
    · rfl
  have htake : (isoTime d ++ "+00:00".toList).takeWhile (fun c => !startsZone c) = isoTime d := by
    rw [List.takeWhile_append_of_pos hnoZone]
    simp [startsZone]
  have hdrop : (isoTime d ++ "+00:00".toList).dropWhile (fun c => !startsZone c) =
      "+00:00".toList := by
    rw [List.dropWhile_append_of_pos hnoZone]
    simp [startsZone]
  have htime := parseTimeOfDay_write (show d.val.hour < 100 by omega)
    (show d.val.minute < 100 by omega) (show d.val.second < 100 by omega)
    (show d.val.microsecond < 1000000 by omega)
  have hzone : parseZone "+00:00".toList = some (some 0) := by decide
  rw [parseTime, htake, hdrop, isoTime, htime, hzone]
  rfl

/-- A value in UTC reads back from the text that `isoformat` wrote. -/
theorem fromisoformat_isoformatUtc (d : NaiveDateTime) :
    fromisoformat (isoformatUtc d) = some { wall := d, offset := some 0 } := by
  obtain ⟨⟨-, hy⟩, ⟨-, hmo⟩, ⟨-, hd⟩, -⟩ := d.property
  have hdim : daysInMonth d.val.year d.val.month ≤ 31 := by
    unfold daysInMonth
    split_ifs <;> omega
  have hdate : parseDate (isoDate d) = some (d.val.year, d.val.month, d.val.day) :=
    parseDate_write (by omega) (by omega) (by omega)
  have hlen : 10 < (isoDate d ++ 'T' :: (isoTime d ++ "+00:00".toList)).length := by
    rw [List.length_append, length_isoDate, List.length_cons]
    omega
  have htake : (isoDate d ++ 'T' :: (isoTime d ++ "+00:00".toList)).take 10 = isoDate d := by
    rw [List.take_append_of_le_length (by rw [length_isoDate]),
      List.take_of_length_le (by rw [length_isoDate])]
  have hdrop : (isoDate d ++ 'T' :: (isoTime d ++ "+00:00".toList)).drop (10 + 1) =
      isoTime d ++ "+00:00".toList := by
    rw [show isoDate d ++ 'T' :: (isoTime d ++ "+00:00".toList) =
      (isoDate d ++ ['T']) ++ (isoTime d ++ "+00:00".toList) by simp]
    exact List.drop_left' (by simp [length_isoDate])
  have hbuild : Fields.construct d.val = some d := by
    rw [Fields.construct, dif_pos d.property]
  rw [isoformatUtc_eq, fromisoformat, if_neg (by omega), findSeparator_isoDate]
  simp only [Option.bind_eq_bind, Option.bind_some, htake, hdate, hdrop, parseTime_isoTime]
  rw [if_neg (by omega)]
  simp [hbuild]

/-- The parser overlooks one character before an offset. -/
example : fromisoformat "2026-07-20T12:00:00 +00:00".toList =
    fromisoformat "2026-07-20T12:00:00+00:00".toList := by decide +kernel

/-- Neither `+` nor `Z` stands in a text before its offset. -/
theorem notMem_isoText {d : NaiveDateTime} {c : Char} (hc : c = '+' ∨ c = 'Z') :
    c ∉ isoDate d ++ 'T' :: isoTime d := by
  have hdigit : ¬ ∃ n < 10, c = Positional.digitChar n := by
    rintro ⟨n, hn, rfl⟩
    obtain ⟨-, -, hZ, hplus⟩ := digitChar_ne hn
    exact hc.elim hplus hZ
  intro h
  simp only [List.mem_append, List.mem_cons] at h
  rcases h with h | h | h
  · rcases mem_isoDate h with h | rfl
    · exact hdigit h
    · simp at hc
  · subst h
    simp at hc
  · rcases mem_isoTime h with h | rfl | rfl
    · exact hdigit h
    · simp at hc
    · simp at hc

theorem serializeDatetime_eq (d : NaiveDateTime) :
    serializeDatetime d = (isoDate d ++ 'T' :: isoTime d) ++ ['Z'] := by
  have hsplit : isoformatUtc d = (isoDate d ++ 'T' :: isoTime d) ++ "+00:00".toList := by
    simp [isoformatUtc_eq]
  have happ : replace ('+' :: "00:00".toList) "Z".toList
      ((isoDate d ++ 'T' :: isoTime d) ++ "+00:00".toList) =
        (isoDate d ++ 'T' :: isoTime d) ++
          replace ('+' :: "00:00".toList) "Z".toList "+00:00".toList :=
    replace_append (notMem_isoText (Or.inl rfl))
  rw [show ('+' :: "00:00".toList) = "+00:00".toList by decide] at happ
  rw [serializeDatetime, hsplit, happ,
    show replace "+00:00".toList "Z".toList "+00:00".toList = ['Z'] by decide]

/-- Undoing the replacement gives the text that `isoformat` wrote. -/
theorem replace_serializeDatetime (d : NaiveDateTime) :
    replace "Z".toList "+00:00".toList (serializeDatetime d) = isoformatUtc d := by
  have happ : replace ['Z'] "+00:00".toList ((isoDate d ++ 'T' :: isoTime d) ++ ['Z']) =
      (isoDate d ++ 'T' :: isoTime d) ++ replace ['Z'] "+00:00".toList ['Z'] :=
    replace_append (notMem_isoText (Or.inr rfl))
  rw [serializeDatetime_eq, show "Z".toList = ['Z'] by decide, happ,
    show replace ['Z'] "+00:00".toList ['Z'] = "+00:00".toList by decide, isoformatUtc_eq]
  simp

/-- A value in UTC reads back from the text the Hub stores, whatever the host's time zone. -/
theorem parseDatetime_serializeDatetime (localOffset : NaiveDateTime → Except Exn ℤ)
    (d : NaiveDateTime) : parseDatetime localOffset (serializeDatetime d) = .ok d := by
  rw [parseDatetime, replace_serializeDatetime, fromisoformat_isoformatUtc]
  rfl

theorem serializeDatetime_injective : Function.Injective serializeDatetime := by
  intro a b h
  have hp := congrArg (parseDatetime fun _ => .ok 0) h
  rw [parseDatetime_serializeDatetime, parseDatetime_serializeDatetime] at hp
  exact Except.ok.inj hp

end Python
