import GoffyOs.Hub.ToolSchema
import GoffyOs.Python.JsonLoads

/-!
# The canonical text of a JSON value

What the Hub hashes and what a device signs is `json.dumps` with sorted keys. The text says everything
about the value but the order of members: it reads back as the value with the keys in order.

* `scanString_escaped`, `scanNumber_parts`: the text of a string and that of a number read back, whatever
  follows them;
* `scanOnce_dumps` is the step over values, by the structure of the value, and `loads_dumps` the round
  trip of a whole text;
* `dumps_eq_iff`: two values with the same text differ at most in the order of their members.
-/

namespace Python

open GoffyHub.ToolSchema

variable {float : Str → Str}

/-! ### Texts -/

/-- A digit of `\u` escapes is its own lower case. -/
theorem toLower_digitChar {d : ℕ} (hd : d < 16) :
    (Positional.digitChar d).toLower = Positional.digitChar d := by
  have h : ∀ d < 16, (Positional.digitChar d).toLower = Positional.digitChar d := by decide
  exact h d hd

theorem hex4_write {n : ℕ} (hn : n < 16 ^ 4) (s : Str) :
    hex4 (Positional.write 16 4 n ++ s) = .ok (n, s) := by
  have hlower : (Positional.write 16 4 n).map Char.toLower = Positional.write 16 4 n := by
    unfold Positional.write
    rw [List.map_map]
    refine List.map_congr_left fun d hd => ?_
    exact toLower_digitChar (Positional.digits_lt (by decide) 4 n d hd)
  have hread := Positional.read?_write (b := 16) (by decide) (by decide) hn
  obtain ⟨a, b, c, d, hw⟩ : ∃ a b c d, Positional.write 16 4 n = [a, b, c, d] := ⟨_, _, _, _, rfl⟩
  rw [hw] at hlower hread ⊢
  simp only [hex4, List.cons_append, List.nil_append, hlower, hread]

/-- One character of a text is read in one step. -/
theorem scanStringAux_escapeChar (c : Char) (fuel : ℕ) (s : Str) :
    scanStringAux (fuel + 1) (escapeChar c ++ s) =
      (scanStringAux fuel s >>= fun read => .ok (c :: read.1, read.2)) := by
  -- what follows the backslash gives the character
  have hescape : ∀ {t : Str}, escape (t ++ s) = .ok (c, s) →
      scanStringAux (fuel + 1) ('\\' :: t ++ s) =
        (scanStringAux fuel s >>= fun read => .ok (c :: read.1, read.2)) := by
    intro t ht
    rw [List.cons_append, scanStringAux, if_neg (by decide), if_pos rfl, ht]
    rfl
  unfold escapeChar
  split_ifs with hquote hbackslash hn hr ht hb hf hlow
  · exact hescape (t := ['"']) (by rw [hquote]; rfl)
  · exact hescape (t := ['\\']) (by rw [hbackslash]; rfl)
  · exact hescape (t := ['n']) (by rw [hn]; rfl)
  · exact hescape (t := ['r']) (by rw [hr]; rfl)
  · exact hescape (t := ['t']) (by rw [ht]; rfl)
  · refine hescape (t := ['b']) ?_
    rw [← Char.ofNat_toNat c, hb]
    rfl
  · refine hescape (t := ['f']) ?_
    rw [← Char.ofNat_toNat c, hf]
    rfl
  · refine hescape (t := 'u' :: Positional.write 16 4 c.toNat) ?_
    have hread := hex4_write (n := c.toNat) (by omega) s
    simp only [List.cons_append, escape, unicodeEscape, hread, bind, Except.bind]
    rw [if_neg (by omega), if_neg (by omega), Char.ofNat_toNat]
    rfl
  · rw [List.singleton_append, scanStringAux, if_neg hquote, if_neg hbackslash, if_neg hlow]
    rfl

theorem scanStringAux_escaped (text rest : Str) : ∀ fuel, text.length < fuel →
    scanStringAux fuel (text.flatMap escapeChar ++ '"' :: rest) = .ok (text, rest) := by
  induction text with
  | nil =>
    intro fuel hfuel
    obtain ⟨fuel, rfl⟩ := Nat.exists_eq_add_of_lt hfuel
    rfl
  | cons c text ih =>
    intro fuel hfuel
    obtain ⟨fuel, rfl⟩ : ∃ n, fuel = n + 1 := ⟨fuel - 1, by omega⟩
    rw [List.flatMap_cons, List.append_assoc, scanStringAux_escapeChar,
      ih fuel (Nat.lt_of_succ_lt_succ hfuel)]
    rfl

theorem length_le_escaped (text : Str) : text.length ≤ (text.flatMap escapeChar).length := by
  induction text with
  | nil => exact Nat.le_refl _
  | cons c text ih =>
    have hpos := List.length_pos_iff.2 (escapeChar_ne_nil c)
    rw [List.flatMap_cons, List.length_append, List.length_cons]
    omega

/-- A text reads back from between its quotes. -/
theorem scanString_escaped (text rest : Str) :
    scanString (text.flatMap escapeChar ++ '"' :: rest) = .ok (text, rest) := by
  refine scanStringAux_escaped text rest _ ?_
  have hle := length_le_escaped text
  rw [List.length_append, List.length_cons]
  omega

/-! ### Numbers -/

/-- Nothing follows that could belong to a number. -/
def Ends (rest : Str) : Prop := ∀ c, rest.head? = some c → c = ',' ∨ c = ']' ∨ c = '}'

/-- The parts of a number: sign, digits, fraction and exponent. -/
structure NumberParts (sign digits decimals power : Str) : Prop where
  sign : sign = [] ∨ sign = ['-']
  digits : digits = ['0'] ∨
    (digits ≠ [] ∧ digits.head? ≠ some '0' ∧ ∀ c ∈ digits, isJsonDigit c = true)
  decimals : decimals = [] ∨ ∃ ds, ds ≠ [] ∧ (∀ c ∈ ds, isJsonDigit c = true) ∧ decimals = '.' :: ds
  power : power = [] ∨ ∃ mark ds, (mark = [] ∨ mark = ['-'] ∨ mark = ['+']) ∧ ds ≠ [] ∧
    (∀ c ∈ ds, isJsonDigit c = true) ∧ power = 'e' :: (mark ++ ds)

theorem takeWhile_digits {ds rest : Str} (hds : ∀ c ∈ ds, isJsonDigit c = true)
    (hrest : ∀ c, rest.head? = some c → isJsonDigit c = false) :
    (ds ++ rest).takeWhile isJsonDigit = ds := by
  rw [List.takeWhile_append_of_pos hds]
  cases rest with
  | nil => simp
  | cons c rest => simp [hrest c rfl]

section Numbers

variable {sign digits decimals power rest : Str}

theorem Ends.not_digit (hrest : Ends rest) : ∀ c, rest.head? = some c → isJsonDigit c = false := by
  intro c hc
  rcases hrest c hc with rfl | rfl | rfl <;> decide

/-- What follows the fraction is no digit and no point. -/
theorem NumberParts.head?_power (h : NumberParts sign digits decimals power) (hrest : Ends rest) :
    ∀ c, (power ++ rest).head? = some c → isJsonDigit c = false ∧ c ≠ '.' := by
  intro c hc
  rcases h.power with rfl | ⟨mark, ds, -, -, -, rfl⟩
  · rcases hrest c hc with rfl | rfl | rfl <;> decide
  · obtain rfl := Option.some.inj hc
    decide

theorem NumberParts.head?_decimals (h : NumberParts sign digits decimals power)
    (hrest : Ends rest) : ∀ c, (decimals ++ (power ++ rest)).head? = some c →
      isJsonDigit c = false := by
  intro c hc
  rcases h.decimals with rfl | ⟨ds, -, -, rfl⟩
  · exact (h.head?_power hrest c hc).1
  · obtain rfl := Option.some.inj hc
    decide

theorem NumberParts.fraction_eq (h : NumberParts sign digits decimals power) (hrest : Ends rest) :
    fraction (decimals ++ (power ++ rest)) = decimals := by
  rcases h.decimals with rfl | ⟨ds, hne, hds, rfl⟩
  · have hhead := h.head?_power hrest
    unfold fraction
    split
    · rename_i s hs
      exact absurd rfl (hhead '.' (by rw [← List.nil_append (power ++ rest), hs]; rfl)).2
    · rfl
  · have htake : (ds ++ (power ++ rest)).takeWhile isJsonDigit = ds :=
      takeWhile_digits hds fun c hc => (h.head?_power hrest c hc).1
    rw [List.cons_append, fraction]
    simp only [htake, if_neg hne]

theorem NumberParts.exponent_eq (h : NumberParts sign digits decimals power) (hrest : Ends rest) :
    exponent (power ++ rest) = power := by
  rcases h.power with rfl | ⟨mark, ds, hmark, hne, hds, rfl⟩
  · rw [List.nil_append]
    cases rest with
    | nil => rfl
    | cons c rest =>
      have hc := hrest c rfl
      rw [exponent, if_neg]
      rcases hc with rfl | rfl | rfl <;> decide
  · obtain ⟨d, ds', rfl⟩ := List.exists_cons_of_ne_nil hne
    have hd : isJsonDigit d = true := hds d List.mem_cons_self
    -- the mark is taken by itself, since a digit is no mark
    have hfilter : (((mark ++ d :: ds') ++ rest).take 1).filter
        (fun c => decide (c = '-' ∨ c = '+')) = mark := by
      rcases hmark with rfl | rfl | rfl
      · have hnot : ¬ (d = '-' ∨ d = '+') := by
          rintro (rfl | rfl) <;> cases hd
        simp [hnot]
      · rfl
      · rfl
    have htake : ((d :: ds') ++ rest).takeWhile isJsonDigit = d :: ds' :=
      takeWhile_digits hds hrest.not_digit
    have hdrop : ((mark ++ d :: ds') ++ rest).drop mark.length = (d :: ds') ++ rest := by
      rw [List.append_assoc, List.drop_left]
    rw [List.cons_append, exponent, if_pos (Or.inl rfl)]
    simp only [hfilter, hdrop, htake, if_neg hne]

theorem NumberParts.head?_digits (h : NumberParts sign digits decimals power) :
    ∃ d ds, digits = d :: ds ∧ isJsonDigit d = true := by
  rcases h.digits with rfl | ⟨hne, -, hds⟩
  · exact ⟨'0', [], rfl, rfl⟩
  · obtain ⟨d, ds, rfl⟩ := List.exists_cons_of_ne_nil hne
    exact ⟨d, ds, rfl, hds d List.mem_cons_self⟩

/-- A number is read up to its end. -/
theorem scanNumber_parts (h : NumberParts sign digits decimals power) (hrest : Ends rest) :
    scanNumber float (sign ++ (digits ++ (decimals ++ (power ++ rest)))) =
      if decimals = [] ∧ power = [] then
        (parseInt 10 (sign ++ digits)).elim (.error .valueError) fun n => .ok (.int n, rest)
      else .ok (.float (float (sign ++ digits ++ decimals ++ power)), rest) := by
  obtain ⟨d, ds, hdigits, hd⟩ := h.head?_digits
  have hsign : ((sign ++ (digits ++ (decimals ++ (power ++ rest)))).take 1).filter
      (fun c => decide (c = '-')) = sign := by
    rcases h.sign with rfl | rfl
    · have hnot : d ≠ '-' := by
        rintro rfl
        cases hd
      simp [hdigits, hnot]
    · rfl
  have hleading : (if (digits ++ (decimals ++ (power ++ rest))).head? = some '0' then ['0']
      else (digits ++ (decimals ++ (power ++ rest))).takeWhile isJsonDigit) = digits := by
    rcases h.digits with rfl | ⟨-, hzero, hall⟩
    · rfl
    · rw [if_neg, takeWhile_digits hall (h.head?_decimals hrest)]
      rw [hdigits] at hzero ⊢
      exact hzero
  have hne : digits ≠ [] := by
    rw [hdigits]
    exact List.cons_ne_nil _ _
  unfold scanNumber
  simp only [hsign, List.drop_left, hleading, h.fraction_eq hrest, h.exponent_eq hrest, if_neg hne]
  cases parseInt 10 (sign ++ digits) with
  | none => rfl
  | some n => rfl

end Numbers

/-! ### Integers -/

theorem isJsonDigit_of_mem_natStr {n : ℕ} {c : Char} (hc : c ∈ natStr n) : isJsonDigit c = true := by
  obtain ⟨hlow, hhigh⟩ := toNat_of_mem_natStr hc
  simp only [isJsonDigit, Bool.and_eq_true, decide_eq_true_eq]
  exact ⟨hlow, hhigh⟩

theorem digitChar_eq_zero {d : ℕ} (hd : d < 10) (h : Nat.digitChar d = '0') : d = 0 := by
  have hall : ∀ d < 10, Nat.digitChar d = '0' → d = 0 := by decide
  exact hall d hd h

/-- The text of a positive number has no leading zero. -/
theorem head?_natStr : ∀ n : ℕ, 0 < n → (natStr n).head? ≠ some '0' := by
  intro n
  induction n using Nat.strong_induction_on with
  | _ n ih =>
    intro hpos hhead
    unfold natStr at hhead ih
    rw [Nat.toDigits_eq_if (by decide)] at hhead
    split at hhead
    · rename_i hlt
      rw [List.head?_cons, Option.some_inj] at hhead
      exact absurd (digitChar_eq_zero hlt hhead) (Nat.ne_of_gt hpos)
    · rename_i hge
      rw [List.head?_append_of_ne_nil _ Nat.toDigits_ne_nil] at hhead
      exact ih (n / 10) (by omega) (by omega) hhead

theorem natStr_digits (n : ℕ) : natStr n = ['0'] ∨
    (natStr n ≠ [] ∧ (natStr n).head? ≠ some '0' ∧ ∀ c ∈ natStr n, isJsonDigit c = true) := by
  rcases Nat.eq_zero_or_pos n with rfl | hpos
  · exact Or.inl rfl
  · exact Or.inr ⟨Nat.toDigits_ne_nil, head?_natStr n hpos, fun c => isJsonDigit_of_mem_natStr⟩

theorem parts_natStr {sign : Str} (hsign : sign = [] ∨ sign = ['-']) (n : ℕ) :
    NumberParts sign (natStr n) [] [] :=
  ⟨hsign, natStr_digits n, Or.inl rfl, Or.inl rfl⟩

/-- A negative number reads back from its text. -/
theorem parseInt_minus {n : ℕ} (hn : (natStr n).length ≤ 4300) :
    parseInt 10 ('-' :: natStr n) = some (-(n : ℤ)) := by
  have hread := parseInt_natStr hn
  have hplain : ∀ c ∈ natStr n, toAsciiNumeral c = c ∧ isNumberSpace c = false ∧
      c ∉ ['-', '+', '_', 'x', 'X'] := by
    intro c hc
    rw [natStr_eq_map] at hc
    obtain ⟨d, hd, rfl⟩ := List.mem_map.1 hc
    obtain ⟨c', hc', rfl⟩ := List.mem_map.1 hd
    have h48 := toNat_of_mem_natStr hc'
    exact digitChar_plain (by omega)
  have hascii : (natStr n).map toAsciiNumeral = natStr n := by
    rw [List.map_congr_left fun c hc => (hplain c hc).1, List.map_id']
  have hspaces : ∀ c ∈ '-' :: natStr n, isNumberSpace c = false :=
    List.forall_mem_cons.2 ⟨rfl, fun c hc => (hplain c hc).2.1⟩
  have htrim := trim_eq_self hspaces
  have htrim' := trim_eq_self fun c hc => (hplain c hc).2.1
  have hsign : splitSign (natStr n) = (false, natStr n) := by
    unfold splitSign
    split
    · rename_i h
      exact absurd (hplain '-' (by simp [h])).2.2 (by simp)
    · rename_i h
      exact absurd (hplain '+' (by simp [h])).2.2 (by simp)
    · rfl
  have hminus : splitSign ('-' :: natStr n) = (true, natStr n) := rfl
  have hascii' : toAsciiNumeral '-' = '-' := rfl
  unfold parseInt at hread ⊢
  simp only [hascii, htrim', hsign, Option.bind_eq_bind, Option.bind_eq_some_iff] at hread
  simp only [List.map_cons, hascii, hascii', htrim, hminus, Option.bind_eq_bind,
    Option.bind_eq_some_iff]
  obtain ⟨ds, hds, hvalue⟩ := hread
  refine ⟨ds, hds, ?_⟩
  have hshort : ¬ (True ∧ 4300 < ds.length) := by
    intro hlong
    rw [if_pos hlong] at hvalue
    cases hvalue
  rw [if_neg hshort] at hvalue ⊢
  have hn : (Positional.value 10 ds : ℤ) = n := by simpa using hvalue
  simp [hn]

/-- An integer that is not too long is read up to its end. -/
theorem scanNumber_intStr {n : ℤ} {rest : Str} (hn : (natStr n.natAbs).length ≤ 4300)
    (hrest : Ends rest) : scanNumber float (intStr n ++ rest) = .ok (.int n, rest) := by
  cases n with
  | ofNat n =>
    have hread : parseInt 10 (natStr n) = some (n : ℤ) := parseInt_natStr hn
    have h := @scanNumber_parts float _ _ _ _ _ (parts_natStr (Or.inl rfl) n) hrest
    simp only [List.nil_append, and_self, if_true, hread, Option.elim_some] at h
    exact h
  | negSucc n =>
    have hread : parseInt 10 ('-' :: natStr (n + 1)) = some (-((n + 1 : ℕ) : ℤ)) := parseInt_minus hn
    have h := @scanNumber_parts float _ _ _ _ _ (parts_natStr (Or.inr rfl) (n + 1)) hrest
    simp only [List.nil_append, List.singleton_append, and_self, if_true, hread, Option.elim_some] at h
    exact h

/-! ### Values -/

/-- The text of a float: a number with a fraction or an exponent. -/
def IsFloatText (s : Str) : Prop :=
  ∃ sign digits decimals power, NumberParts sign digits decimals power ∧
    ¬ (decimals = [] ∧ power = []) ∧ s = sign ++ (digits ++ (decimals ++ power))

/-- A value whose text the decoder takes: no object has a key twice, no integer is longer than `int`
takes, and the text of a float reads as that float. -/
inductive Readable (float : Str → Str) : Json → Prop
  | null : Readable float .null
  | bool (b : Bool) : Readable float (.bool b)
  | int {n : ℤ} (h : (natStr n.natAbs).length ≤ 4300) : Readable float (.int n)
  | float {s : Str} (htext : IsFloatText s) (hread : float s = s) : Readable float (.float s)
  | str (s : Str) : Readable float (.str s)
  | array {items : List Json} (h : ∀ item ∈ items, Readable float item) :
      Readable float (.array items)
  | object {members : Members} (hkeys : (members.map Prod.fst).Nodup)
      (h : ∀ m ∈ members, Readable float m.2) : Readable float (.object members)

/-- A member of an object in its text. -/
def memberText (m : Str × Json) : Str := quote m.1 ++ ':' :: m.2.dumps

/-- The text of an object has the members in the order of their keys. -/
theorem dumps_object (members : Members) : (Json.object members).dumps =
    '{' :: (commaJoin ((sortKeys members).map memberText) ++ ['}']) := by
  have hsort : sortMembers (dumpsMembers members) =
      (sortKeys members).map fun m => (m.1, m.2.dumps) := by
    rw [dumpsMembers_eq_map]
    exact (List.map_insertionSort (fun a b : Str × Json => ¬ b.1 < a.1)
      (fun a b : Str × Str => ¬ b.1 < a.1) (fun m => (m.1, m.2.dumps)) members
      fun _ _ _ _ => Iff.rfl).symm
  rw [Json.dumps, hsort, List.map_map]
  rfl

theorem dumps_array (items : List Json) :
    (Json.array items).dumps = '[' :: (commaJoin (items.map Json.dumps) ++ [']']) := by
  rw [Json.dumps, dumpsItems_eq_map]

/-- Sorting the members and what is in them can be done in either order. -/
theorem sortJsonKeys_object (members : Members) : sortJsonKeys (.object members) =
    .object ((sortKeys members).map fun m => (m.1, sortJsonKeys m.2)) := by
  have hsort : sortKeys (members.map fun m => (m.1, sortJsonKeys m.2)) =
      (sortKeys members).map fun m => (m.1, sortJsonKeys m.2) :=
    (List.map_insertionSort (fun a b : Str × Json => ¬ b.1 < a.1)
      (fun a b : Str × Json => ¬ b.1 < a.1) (fun m => (m.1, sortJsonKeys m.2)) members
      fun _ _ _ _ => Iff.rfl).symm
  rw [sortJsonKeys, sortMemberKeys_eq, hsort]

theorem sortJsonKeys_array (items : List Json) :
    sortJsonKeys (.array items) = .array (items.map sortJsonKeys) := by
  rw [sortJsonKeys, sortItemKeys_eq]

/-- How a value begins: with ASCII, no white space and no closing bracket. -/
theorem exists_head_dumps {value : Json} (h : Readable float value) :
    ∃ c t, value.dumps = c :: t ∧ isJsonSpace c = false ∧ c ≠ ']' ∧ c.toNat < 128 := by
  have hdigit : ∀ c, isJsonDigit c = true → isJsonSpace c = false ∧ c ≠ ']' ∧ c.toNat < 128 := by
    intro c hc
    have hrange : ∀ n < 128, isJsonDigit (Char.ofNat n) = true →
        isJsonSpace (Char.ofNat n) = false ∧ Char.ofNat n ≠ ']' ∧
          (Char.ofNat n).toNat < 128 := by decide
    have hlow : c.toNat < 128 := by
      simp only [isJsonDigit, Bool.and_eq_true, decide_eq_true_eq] at hc
      have hle : c.toNat ≤ '9'.toNat := hc.2
      exact Nat.lt_of_le_of_lt hle (by decide)
    have := hrange c.toNat hlow
    rw [Char.ofNat_toNat] at this
    exact this hc
  have hnumber : ∀ {sign digits decimals power : Str}, NumberParts sign digits decimals power →
      ∃ c t, sign ++ (digits ++ (decimals ++ power)) = c :: t ∧ isJsonSpace c = false ∧ c ≠ ']' ∧ c.toNat < 128 := by
    intro sign digits decimals power hparts
    obtain ⟨d, ds, rfl, hd⟩ := hparts.head?_digits
    rcases hparts.sign with rfl | rfl
    · exact ⟨d, _, rfl, hdigit d hd⟩
    · exact ⟨'-', _, rfl, by decide⟩
  cases h with
  | null => exact ⟨'n', _, rfl, by decide⟩
  | bool b =>
    cases b with
    | true => exact ⟨'t', _, rfl, by decide⟩
    | false => exact ⟨'f', _, rfl, by decide⟩
  | @int n _ =>
    cases n with
    | ofNat n =>
      obtain ⟨c, t, htext, hc⟩ := hnumber (parts_natStr (Or.inl rfl) n)
      refine ⟨c, t, ?_, hc⟩
      rw [Json.dumps, intStr]
      simpa using htext
    | negSucc n => exact ⟨'-', _, rfl, by decide⟩
  | float htext _ =>
    obtain ⟨sign, digits, decimals, power, hparts, -, rfl⟩ := htext
    exact hnumber hparts
  | str s => exact ⟨'"', _, rfl, by decide⟩
  | array _ => exact ⟨'[', _, dumps_array _, by decide⟩
  | object _ _ => exact ⟨'{', _, dumps_object _, by decide⟩

/-- Any other character than a quote or an opening bracket begins a constant or a number. -/
theorem scanOnce_of_head {c : Char} {t : Str} (hquote : c ≠ '"') (hbrace : c ≠ '{')
    (hbracket : c ≠ '[') (fuel : ℕ) : scanOnce float (fuel + 1) (c :: t) =
      match constants.find? fun word => word.1.isPrefixOf (c :: t) with
      | some (word, value) => .ok (value, (c :: t).drop word.length)
      | none => scanNumber float (c :: t) := by
  have hnoQuote : ∀ t', c :: t = '"' :: t' → False := fun _ h => hquote (List.cons.inj h).1
  have hnoBrace : ∀ t', c :: t = '{' :: t' → False := fun _ h => hbrace (List.cons.inj h).1
  have hnoBracket : ∀ t', c :: t = '[' :: t' → False := fun _ h => hbracket (List.cons.inj h).1
  rw [scanOnce] <;> first | rfl | assumption

/-- A number is no constant. -/
theorem scanOnce_number {sign digits decimals power rest : Str}
    (h : NumberParts sign digits decimals power) (fuel : ℕ) :
    scanOnce float (fuel + 1) (sign ++ (digits ++ (decimals ++ (power ++ rest)))) =
      scanNumber float (sign ++ (digits ++ (decimals ++ (power ++ rest)))) := by
  obtain ⟨d, ds, rfl, hd⟩ := h.head?_digits
  have hne : ∀ c, isJsonDigit c = false → d ≠ c := by
    rintro c hc rfl
    rw [hc] at hd
    cases hd
  rcases h.sign with rfl | rfl
  · rw [List.nil_append, List.cons_append,
      scanOnce_of_head (hne _ (by decide)) (hne _ (by decide)) (hne _ (by decide))]
    have hnone : constants.find? (fun word => word.1.isPrefixOf
        (d :: (ds ++ (decimals ++ (power ++ rest))))) = none := by
      simp [constants, List.isPrefixOf, (hne _ _).symm, show isJsonDigit 'n' = false by decide,
        show isJsonDigit 't' = false by decide, show isJsonDigit 'f' = false by decide,
        show isJsonDigit 'N' = false by decide, show isJsonDigit 'I' = false by decide,
        show isJsonDigit '-' = false by decide]
    rw [hnone]
  · rw [List.singleton_append, List.cons_append,
      scanOnce_of_head (by decide) (by decide) (by decide)]
    have hnone : constants.find? (fun word => word.1.isPrefixOf
        ('-' :: d :: (ds ++ (decimals ++ (power ++ rest))))) = none := by
      simp [constants, List.isPrefixOf, (hne _ _).symm, show isJsonDigit 'I' = false by decide]
    rw [hnone]

/-- A value reads back, whatever follows it. -/
def ReadsBack (float : Str → Str) (value : Json) : Prop :=
  ∀ fuel rest, 2 * value.dumps.length ≤ fuel → Ends rest →
    scanOnce float fuel (value.dumps ++ rest) = .ok (sortJsonKeys value, rest)

theorem skipSpace_of_head {c : Char} {t : Str} (hc : isJsonSpace c = false) :
    skipSpace (c :: t) = c :: t := by
  rw [skipSpace, List.dropWhile_cons_of_neg (by simp [hc])]

/-- The items of an array from one on. -/
theorem parseArray_items {rest : Str} : ∀ (items acc : List Json) (fuel : ℕ), items ≠ [] →
    (∀ item ∈ items, Readable float item ∧ ReadsBack float item) →
    2 * (commaJoin (items.map Json.dumps)).length < fuel →
    parseArray float fuel acc (commaJoin (items.map Json.dumps) ++ ']' :: rest) =
      .ok (.array (acc ++ items.map sortJsonKeys), rest)
  | [item], acc, fuel, _, hitems, hfuel => by
    obtain ⟨hreadable, hback⟩ := hitems item List.mem_cons_self
    obtain ⟨fuel, rfl⟩ : ∃ n, fuel = n + 1 := ⟨fuel - 1, by omega⟩
    have hread := hback fuel (']' :: rest) (by simpa [commaJoin] using Nat.lt_succ_iff.1 hfuel)
      (by simp [Ends])
    simp only [List.map_cons, List.map_nil, commaJoin, parseArray, hread, bind, Except.bind]
    rw [skipSpace_of_head (by decide)]
    rfl
  | item :: item' :: items, acc, fuel, _, hitems, hfuel => by
    obtain ⟨hreadable, hback⟩ := hitems item List.mem_cons_self
    obtain ⟨fuel, rfl⟩ : ∃ n, fuel = n + 1 := ⟨fuel - 1, by omega⟩
    simp only [List.map_cons, commaJoin, List.length_append, List.length_cons] at hfuel
    have hread := hback fuel (',' :: (commaJoin ((item' :: items).map Json.dumps) ++ ']' :: rest))
      (by omega) (by simp [Ends])
    have ih := @parseArray_items rest (item' :: items) (acc ++ [sortJsonKeys item]) fuel
      (List.cons_ne_nil _ _) (fun i hi => hitems i (List.mem_cons_of_mem _ hi))
      (by simp only [List.map_cons]; omega)
    obtain ⟨c, t, hhead, hspace, -⟩ := exists_head_dumps (hitems item' (by simp)).1
    have hskip : skipSpace (commaJoin ((item' :: items).map Json.dumps) ++ ']' :: rest) =
        commaJoin ((item' :: items).map Json.dumps) ++ ']' :: rest := by
      cases items with
      | nil =>
        simp only [List.map_cons, List.map_nil, commaJoin, hhead, List.cons_append]
        exact skipSpace_of_head hspace
      | cons item'' items =>
        simp only [List.map_cons, commaJoin, hhead, List.cons_append]
        exact skipSpace_of_head hspace
    rw [List.map_cons, List.map_cons, commaJoin, List.append_assoc, List.cons_append, parseArray]
    rw [List.map_cons] at hread hskip ih
    simp only [hread, bind, Except.bind]
    rw [skipSpace_of_head (by decide)]
    simp only [hskip, ih, List.map_cons, List.append_assoc, List.singleton_append]

/-- A member of an object, up to what follows it. -/
theorem parseObject_memberText {m : Str × Json} {rest : Str} (hreadable : Readable float m.2)
    (hback : ReadsBack float m.2) {fuel : ℕ} (hfuel : 2 * m.2.dumps.length ≤ fuel)
    (hrest : Ends rest) (members : Dict Str Json) :
    parseObject float (fuel + 1) members (memberText m ++ rest) =
      match skipSpace rest with
      | '}' :: rest => .ok (.object (members.set m.1 (sortJsonKeys m.2)).entries, rest)
      | ',' :: rest =>
        parseObject float fuel (members.set m.1 (sortJsonKeys m.2)) (skipSpace rest)
      | _ => .error .jsonDecodeError := by
  obtain ⟨c, t, hhead, hspace, -⟩ := exists_head_dumps hreadable
  have hskip : skipSpace (m.2.dumps ++ rest) = m.2.dumps ++ rest := by
    rw [hhead, List.cons_append]
    exact skipSpace_of_head hspace
  have hkey : scanString (m.1.flatMap escapeChar ++ '"' :: (':' :: (m.2.dumps ++ rest))) =
      .ok (m.1, ':' :: (m.2.dumps ++ rest)) := scanString_escaped _ _
  have hcolon : skipSpace (':' :: (m.2.dumps ++ rest)) = ':' :: (m.2.dumps ++ rest) :=
    skipSpace_of_head (by decide)
  have htext : memberText m ++ rest =
      '"' :: (m.1.flatMap escapeChar ++ '"' :: (':' :: (m.2.dumps ++ rest))) := by
    simp [memberText, quote]
  rw [htext, parseObject]
  simp only [hkey, bind, Except.bind, hcolon, hskip, hback fuel rest hfuel hrest]
  rfl

theorem commaJoin_memberText (m : Str × Json) (l : List (Str × Json)) :
    ∃ t, commaJoin ((m :: l).map memberText) = '"' :: t := by
  cases l with
  | nil => exact ⟨_, rfl⟩
  | cons m' l => exact ⟨_, rfl⟩

/-- The members of an object from one on. -/
theorem parseObject_members {rest : Str} : ∀ (members : Members) (d : Dict Str Json) (fuel : ℕ),
    members ≠ [] → (∀ m ∈ members, Readable float m.2 ∧ ReadsBack float m.2) →
    2 * (commaJoin (members.map memberText)).length < fuel →
    parseObject float fuel d (commaJoin (members.map memberText) ++ '}' :: rest) =
      .ok (.object (members.foldl (fun d m => d.set m.1 (sortJsonKeys m.2)) d).entries, rest)
  | [m], d, fuel, _, hmembers, hfuel => by
    obtain ⟨hreadable, hback⟩ := hmembers m List.mem_cons_self
    obtain ⟨fuel, rfl⟩ : ∃ n, fuel = n + 1 := ⟨fuel - 1, by omega⟩
    simp only [List.map_cons, List.map_nil, commaJoin, memberText, List.length_append,
      List.length_cons] at hfuel
    have hread := @parseObject_memberText float m ('}' :: rest) hreadable hback fuel (by omega)
      (by simp [Ends]) d
    rw [skipSpace_of_head (by decide)] at hread
    exact hread
  | m :: m' :: members, d, fuel, _, hmembers, hfuel => by
    obtain ⟨hreadable, hback⟩ := hmembers m List.mem_cons_self
    obtain ⟨fuel, rfl⟩ : ∃ n, fuel = n + 1 := ⟨fuel - 1, by omega⟩
    simp only [List.map_cons, commaJoin, List.length_append, List.length_cons] at hfuel
    have hlength : m.2.dumps.length ≤ (memberText m).length := by
      simp only [memberText, List.length_append, List.length_cons]
      omega
    have hread := @parseObject_memberText float m
      (',' :: (commaJoin ((m' :: members).map memberText) ++ '}' :: rest)) hreadable hback fuel
      (by omega) (by simp [Ends]) d
    have ih := @parseObject_members rest (m' :: members) (d.set m.1 (sortJsonKeys m.2)) fuel
      (List.cons_ne_nil _ _) (fun i hi => hmembers i (List.mem_cons_of_mem _ hi))
      (by simp only [List.map_cons]; omega)
    obtain ⟨t, ht⟩ := commaJoin_memberText m' members
    rw [skipSpace_of_head (by decide)] at hread
    rw [List.map_cons, List.map_cons, commaJoin, List.append_assoc, List.cons_append]
    rw [ht, List.cons_append] at hread ih
    rw [List.map_cons] at ht
    rw [ht, List.cons_append, hread]
    simp only [skipSpace_of_head (show isJsonSpace '"' = false by decide)]
    exact ih

/-- An object reads back from its members in any order, in that order. -/
theorem scanOnce_members {members : Members} {rest : Str} {fuel : ℕ}
    (hmembers : ∀ m ∈ members, Readable float m.2 ∧ ReadsBack float m.2)
    (hkeys : (members.map Prod.fst).Nodup)
    (hfuel : 2 * (commaJoin (members.map memberText)).length + 2 ≤ fuel) :
    scanOnce float fuel ('{' :: (commaJoin (members.map memberText) ++ '}' :: rest)) =
      .ok (.object (members.map fun m => (m.1, sortJsonKeys m.2)), rest) := by
  obtain ⟨fuel, rfl⟩ : ∃ n, fuel = n + 1 := ⟨fuel - 1, by omega⟩
  rw [scanOnce]
  cases members with
  | nil =>
    simp only [List.map_nil, commaJoin, List.nil_append]
    rw [skipSpace_of_head (by decide)]
    rfl
  | cons m members =>
    have hparse := @parseObject_members float rest (m :: members) Dict.empty fuel
      (List.cons_ne_nil _ _) hmembers (by omega)
    have hnodup : (((m :: members).map fun m => (m.1, sortJsonKeys m.2)).map Prod.fst).Nodup := by
      rwa [List.map_map]
    have hentries := Dict.entries_ofList hnodup
    rw [Dict.ofList, List.foldl_map] at hentries
    obtain ⟨t, ht⟩ := commaJoin_memberText m members
    rw [hentries, ht, List.cons_append] at hparse
    rw [ht, List.cons_append, skipSpace_of_head (by decide)]
    exact hparse

/-- **Round trip of a value**, by its structure. -/
theorem scanOnce_dumps (value : Json) (h : Readable float value) : ReadsBack float value := by
  induction value using byMembers with
  | scalar value hscalar =>
    intro fuel rest hfuel hrest
    obtain ⟨c, t, hhead, -⟩ := exists_head_dumps h
    obtain ⟨fuel, rfl⟩ : ∃ n, fuel = n + 1 := by
      rw [hhead, List.length_cons] at hfuel
      exact ⟨fuel - 1, by omega⟩
    rw [sortJsonKeys_scalar hscalar]
    cases h with
    | null => rfl
    | bool b => cases b <;> rfl
    | @int n hn =>
      have hread := @scanNumber_intStr float n rest hn hrest
      rw [Json.dumps]
      cases n with
      | ofNat n =>
        have hscan := @scanOnce_number float _ _ _ _ rest (parts_natStr (Or.inl rfl) n) fuel
        exact hscan.trans hread
      | negSucc n =>
        have hscan := @scanOnce_number float _ _ _ _ rest (parts_natStr (Or.inr rfl) (n + 1)) fuel
        exact hscan.trans hread
    | @float s htext hfloat =>
      obtain ⟨sign, digits, decimals, power, hparts, hmarked, rfl⟩ := htext
      have hscan := @scanOnce_number float _ _ _ _ rest hparts fuel
      have hread := @scanNumber_parts float _ _ _ _ _ hparts hrest
      rw [if_neg hmarked] at hread
      rw [Json.dumps]
      simp only [List.append_assoc] at hfloat hread ⊢
      rw [hscan, hread, hfloat]
    | str s =>
      have hread := scanString_escaped s rest
      have htext : (Json.str s).dumps ++ rest = '"' :: (s.flatMap escapeChar ++ '"' :: rest) := by
        rw [Json.dumps, quote, List.cons_append, List.append_assoc]
        rfl
      rw [htext, scanOnce]
      simp only [hread, bind, Except.bind]
      rfl
    | array _ => cases hscalar
    | object _ _ => cases hscalar
  | array items ih =>
    intro fuel rest hfuel hrest
    cases h with
    | array hitems =>
    rw [dumps_array, List.length_cons, List.length_append, List.length_singleton] at hfuel
    obtain ⟨fuel, rfl⟩ : ∃ n, fuel = n + 1 := ⟨fuel - 1, by omega⟩
    rw [dumps_array, sortJsonKeys_array, List.cons_append, List.append_assoc, List.singleton_append,
      scanOnce]
    cases items with
    | nil =>
      simp only [List.map_nil, commaJoin, List.nil_append]
      rw [skipSpace_of_head (by decide)]
      rfl
    | cons item items =>
      have hparse := @parseArray_items float rest (item :: items) [] fuel
        (List.cons_ne_nil _ _) (fun i hi => ⟨hitems i hi, ih i hi (hitems i hi)⟩) (by omega)
      obtain ⟨c, t, hhead, hspace, hbracket, -⟩ := exists_head_dumps (hitems item List.mem_cons_self)
      obtain ⟨t', ht'⟩ : ∃ t', commaJoin ((item :: items).map Json.dumps) ++ ']' :: rest = c :: t' := by
        cases items with
        | nil => exact ⟨_, by simp [commaJoin, hhead]; rfl⟩
        | cons item' items => exact ⟨_, by simp [commaJoin, hhead]; rfl⟩
      rw [ht'] at hparse ⊢
      rw [skipSpace_of_head hspace]
      split
      · rename_i heq
        exact absurd (List.cons.inj heq).1 hbracket
      · exact hparse
  | object members ih =>
    intro fuel rest hfuel _
    cases h with
    | object hkeys hmembers =>
    rw [dumps_object, List.length_cons, List.length_append, List.length_singleton] at hfuel
    rw [dumps_object, sortJsonKeys_object, List.cons_append, List.append_assoc, List.singleton_append]
    refine scanOnce_members (fun m hm => ?_) ?_ (by omega)
    · have hmem := mem_sortKeys.1 hm
      exact ⟨hmembers m hmem, ih m hmem (hmembers m hmem)⟩
    · exact (((perm_sortKeys members).map _).nodup_iff).2 hkeys

/-- An object reads back from its text with the members in any order. -/
theorem loads_members {members : Members} (hmembers : ∀ m ∈ members, Readable float m.2)
    (hkeys : (members.map Prod.fst).Nodup) :
    loads float ('{' :: (commaJoin (members.map memberText) ++ ['}'])) =
      .ok (.object (members.map fun m => (m.1, sortJsonKeys m.2))) := by
  have hread := @scanOnce_members float members []
    (2 * ('{' :: (commaJoin (members.map memberText) ++ ['}'])).length + 1)
    (fun m hm => ⟨hmembers m hm, scanOnce_dumps m.2 (hmembers m hm)⟩) hkeys
    (by simp only [List.length_cons, List.length_append]; omega)
  have hskip : skipSpace ('{' :: (commaJoin (members.map memberText) ++ ['}'])) =
      '{' :: (commaJoin (members.map memberText) ++ ['}']) := skipSpace_of_head (by decide)
  rw [loads, if_neg (by simp), hskip, hread]
  rfl

/-- **Round trip.** A value reads back from its canonical text, with its keys in order. -/
theorem loads_dumps {value : Json} (h : Readable float value) :
    loads float value.dumps = .ok (sortJsonKeys value) := by
  obtain ⟨c, t, hhead, hspace, -, hascii⟩ := exists_head_dumps h
  have hmark : c ≠ Char.ofNat 0xfeff := by
    rintro rfl
    exact absurd hascii (by decide)
  have hskip : skipSpace value.dumps = value.dumps := by
    rw [hhead]
    exact skipSpace_of_head hspace
  have hread := scanOnce_dumps value h (2 * value.dumps.length + 1) [] (Nat.le_succ _) (by simp [Ends])
  rw [List.append_nil] at hread
  rw [loads, if_neg (by simpa [hhead] using hmark), hskip, hread]
  rfl

/-- The order of the members is not in the text. -/
theorem dumps_sortJsonKeys (value : Json) : (sortJsonKeys value).dumps = value.dumps := by
  induction value using byMembers with
  | scalar value h => rw [sortJsonKeys_scalar h]
  | array items ih =>
    rw [sortJsonKeys_array, dumps_array, dumps_array, List.map_map]
    exact congrArg (fun l => '[' :: (commaJoin l ++ [']'])) (List.map_congr_left ih)
  | object members ih =>
    have hsorted : sortKeys ((sortKeys members).map fun m => (m.1, sortJsonKeys m.2)) =
        (sortKeys members).map fun m => (m.1, sortJsonKeys m.2) := by
      refine sortKeys_of_pairwise (List.pairwise_map.2 ?_)
      exact pairwise_sortKeys members
    have htexts : ((sortKeys members).map fun m => (m.1, sortJsonKeys m.2)).map memberText =
        (sortKeys members).map memberText := by
      rw [List.map_map]
      refine List.map_congr_left fun m hm => ?_
      simp only [Function.comp_apply, memberText, ih m (mem_sortKeys.1 hm)]
    rw [sortJsonKeys_object, dumps_object, hsorted, htexts, dumps_object]

/-- Members with distinct keys are sorted in one way. -/
theorem sortKeys_of_perm {members members' : Members} (hkeys : (members.map Prod.fst).Nodup)
    (h : members.Perm members') : sortKeys members = sortKeys members' := by
  have hperm : (sortKeys members).Perm (sortKeys members') :=
    (perm_sortKeys members).trans (h.trans (perm_sortKeys members').symm)
  refine hperm.eq_of_pairwise (fun a b ha hb hab hba => ?_) (pairwise_sortKeys members)
    (pairwise_sortKeys members')
  have heq : a.1 = b.1 := le_antisymm (not_lt.1 hab) (not_lt.1 hba)
  exact List.inj_on_of_nodup_map hkeys (mem_sortKeys.1 ha) (h.mem_iff.2 (mem_sortKeys.1 hb)) heq

/-- **Two values have the same canonical text** exactly if they differ at most in the order of their
members. -/
theorem dumps_eq_iff {value value' : Json} (h : Readable float value) (h' : Readable float value') :
    value.dumps = value'.dumps ↔ sortJsonKeys value = sortJsonKeys value' := by
  constructor
  · intro heq
    have hread := loads_dumps h
    rw [heq, loads_dumps h'] at hread
    exact (Except.ok.inj hread).symm
  · intro heq
    rw [← dumps_sortJsonKeys value, heq, dumps_sortJsonKeys]

end Python
