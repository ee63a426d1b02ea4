import GoffyOs.Python.Text

/-!
# `uuid.UUID`

A UUID is a number below `2 ^ 128`. `uuidStr` is `str(uuid)` and `parseUuid` is `UUID(text)`, which
accepts more than `str` writes: the prefixes `urn:` and `uuid:`, braces, hyphens anywhere, and
whatever `int(_, 16)` accepts in the 32 characters that remain. `parseUuid_uuidStr` is the round
trip.
-/

namespace Python

/-- A `uuid.UUID`. -/
abbrev UUID := Fin (2 ^ 128)

instance instNeZeroUUID : NeZero (2 ^ 128 : ℕ) := ⟨by decide⟩
instance : LawfulBEq UUID := inferInstance

/-- The 32 hexadecimal digits of a UUID. -/
def uuidHex (u : UUID) : Str := Positional.write 16 32 u.val

/-- `str(uuid)`: the digits in groups of 8, 4, 4, 4 and 12. -/
def uuidStr (u : UUID) : Str :=
  let h := uuidHex u
  h.take 8 ++ '-' :: (h.drop 8).take 4 ++ '-' :: (h.drop 12).take 4 ++ '-' :: (h.drop 16).take 4 ++
    '-' :: h.drop 20

/-- `UUID(text)`; `none` is `ValueError`. -/
def parseUuid (s : Str) : Option UUID := do
  let s := replace "uuid:".toList [] (replace "urn:".toList [] s)
  let s := replace "-".toList [] (stripChars "{}".toList s)
  if s.length = 32 then
    let n ← parseInt 16 s
    if h : 0 ≤ n ∧ n.toNat < 2 ^ 128 then return ⟨n.toNat, h.2⟩ else none
  else none

theorem length_uuidHex (u : UUID) : (uuidHex u).length = 32 := by simp [uuidHex]

/-- The digits of a UUID are none of the characters that `UUID(text)` drops. -/
theorem mem_uuidHex {u : UUID} {c : Char} (hc : c ∈ uuidHex u) : c ∉ ['u', '{', '}', '-'] := by
  obtain ⟨d, hd, rfl⟩ := Positional.mem_write (by decide) hc
  have h : ∀ d < 16, Positional.digitChar d ∉ ['u', '{', '}', '-'] := by decide
  exact h d hd

theorem mem_uuidStr {u : UUID} {c : Char} (hc : c ∈ uuidStr u) : c ∈ uuidHex u ∨ c = '-' := by
  simp only [uuidStr, List.mem_append, List.mem_cons] at hc
  rcases hc with ((((h | h | h) | h | h) | h | h) | h | h) <;>
    first
    | exact Or.inr h
    | exact Or.inl (List.mem_of_mem_take h)
    | exact Or.inl (List.mem_of_mem_drop (List.mem_of_mem_take h))
    | exact Or.inl (List.mem_of_mem_drop h)

/-- Removing the hyphens of the text leaves the digits. -/
theorem replace_uuidStr (u : UUID) : replace "-".toList [] (uuidStr u) = uuidHex u := by
  have hno : ∀ n, '-' ∉ (uuidHex u).drop n := by
    intro n h
    exact absurd (mem_uuidHex (List.mem_of_mem_drop h)) (by simp)
  have htake : ∀ m n, '-' ∉ ((uuidHex u).drop n).take m := fun m n h =>
    hno n (List.mem_of_mem_take h)
  have hdash : ∀ t : Str, replace "-".toList [] ('-' :: t) = replace "-".toList [] t := by
    intro t
    simp [replace, replaceAux, List.isPrefixOf]
  have hparts : (uuidHex u).take 8 ++ (((uuidHex u).drop 8).take 4 ++ (((uuidHex u).drop 12).take 4
      ++ (((uuidHex u).drop 16).take 4 ++ (uuidHex u).drop 20))) = uuidHex u := by
    have h₁ := List.take_append_drop 4 ((uuidHex u).drop 16)
    have h₂ := List.take_append_drop 4 ((uuidHex u).drop 12)
    have h₃ := List.take_append_drop 4 ((uuidHex u).drop 8)
    rw [List.drop_drop] at h₁ h₂ h₃
    rw [h₁, h₂, h₃, List.take_append_drop]
  have hfirst : '-' ∉ (uuidHex u).take 8 := by simpa using htake 8 0
  simp only [uuidStr, List.append_assoc, List.cons_append]
  rw [show "-".toList = ['-'] from rfl] at hdash ⊢
  rw [replace_append hfirst, hdash, replace_append (htake 4 8), hdash, replace_append (htake 4 12),
    hdash, replace_append (htake 4 16), hdash, replace_of_notMem (hno 20), hparts]

/-- A UUID reads back from its text. -/
theorem parseUuid_uuidStr (u : UUID) : parseUuid (uuidStr u) = some u := by
  have hnone : ∀ c ∈ ['u', '{', '}'], c ∉ uuidStr u := by
    intro c hc h
    rcases mem_uuidStr h with h | rfl
    · exact mem_uuidHex h (by simp at hc ⊢; tauto)
    · simp at hc
  have hstrip : stripChars "{}".toList (uuidStr u) = uuidStr u := by
    apply trim_eq_self
    intro c hc
    have h₁ : c ≠ '{' := by rintro rfl; exact hnone _ (by simp) hc
    have h₂ : c ≠ '}' := by rintro rfl; exact hnone _ (by simp) hc
    simp [h₁, h₂]
  have hlt : u.val < 16 ^ 32 := lt_of_lt_of_eq u.isLt (by norm_num)
  have hne : Positional.digits 16 32 u.val ≠ [] := by
    intro h
    have := congrArg List.length h
    rw [Positional.length_digits] at this
    exact absurd this (by decide)
  have hread : parseInt 16 (uuidHex u) = some (u.val : ℤ) := by
    rw [uuidHex, Positional.write, parseInt_digits le_rfl hne (Positional.digits_lt (by decide) _ _)
      (by rw [Positional.length_digits]; decide), Positional.value_digits, Nat.mod_eq_of_lt hlt]
  have hurn : replace "urn:".toList [] (uuidStr u) = uuidStr u := replace_of_notMem (hnone 'u' (by simp))
  have huuid : replace "uuid:".toList [] (uuidStr u) = uuidStr u :=
    replace_of_notMem (hnone 'u' (by simp))
  have hrange : 0 ≤ (u.val : ℤ) ∧ (u.val : ℤ).toNat < 2 ^ 128 :=
    ⟨Int.natCast_nonneg _, lt_of_eq_of_lt (Int.toNat_natCast _) u.isLt⟩
  rw [parseUuid, hurn, huuid, hstrip, replace_uuidStr, length_uuidHex, if_pos rfl, hread,
    Option.bind_eq_bind, Option.bind_some, dif_pos hrange]
  rfl

theorem uuidStr_injective : Function.Injective uuidStr := by
  intro u v h
  have hp := congrArg parseUuid h
  rw [parseUuid_uuidStr, parseUuid_uuidStr] at hp
  exact Option.some.inj hp

theorem uuidStr_ne_nil (u : UUID) : uuidStr u ≠ [] := by simp [uuidStr]

end Python
