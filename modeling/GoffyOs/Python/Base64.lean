import GoffyOs.Python.Json

/-!
# URL-safe Base64

`base64.urlsafe_b64encode` and `base64.urlsafe_b64decode`. The decoder is the lenient one of `binascii`:
it skips characters that are not in the alphabet, and stops at a padding that fills a group of four.

* `urlsafeB64decode_padded`: bytes read back from their digits with the padding that fills the last group.
-/

namespace Python

/-! ### Writing -/

/-- A character of the URL-safe alphabet. -/
def urlsafeChar (d : ℕ) : Char :=
  if d < 26 then Char.ofNat (d + 65)
  else if d < 52 then Char.ofNat (d + 71)
  else if d < 62 then Char.ofNat (d - 4)
  else if d = 62 then '-'
  else '_'

/-- The six-bit groups of bytes; the last one is filled with zeros. -/
def base64Digits : List ℕ → List ℕ
  | a :: b :: c :: rest =>
    a / 4 :: (a % 4 * 16 + b / 16) :: (b % 16 * 4 + c / 64) :: c % 64 :: base64Digits rest
  | [a, b] => [a / 4, a % 4 * 16 + b / 16, b % 16 * 4]
  | [a] => [a / 4, a % 4 * 16]
  | [] => []

/-- The digits of bytes as characters, without padding. -/
def urlsafeDigits (b : Bytes) : Str := (base64Digits (b.map UInt8.toNat)).map urlsafeChar

/-- How many characters fill the last group of four. -/
def padding (s : Str) : Str := List.replicate ((4 - s.length % 4) % 4) '='

/-- `base64.urlsafe_b64encode(data).decode("ascii")`. -/
def urlsafeB64encode (b : Bytes) : Str := urlsafeDigits b ++ padding (urlsafeDigits b)

/-! ### Reading -/

/-- `binascii.a2b_base64`, with the digits of the group that is being read and the number of the padding
characters since the last digit; `none` is `binascii.Error`. -/
def a2bBase64 : List ℕ → ℕ → Str → Option Bytes
  | group, _, [] => if group = [] then some [] else none
  | group, pads, c :: s =>
    if c = '=' then
      if 2 ≤ group.length then
        if 4 ≤ group.length + (pads + 1) then some (base64Bytes group)
        else a2bBase64 group (pads + 1) s
      else a2bBase64 group pads s
    else match base64Value? c with
      | none => a2bBase64 group pads s
      | some d =>
        if group.length = 3 then
          (a2bBase64 [] 0 s).map fun rest => base64Bytes (group ++ [d]) ++ rest
        else a2bBase64 (group ++ [d]) 0 s

/-- The translation of the URL-safe alphabet. -/
def urlsafeDecodeChar (c : Char) : Char :=
  if c = '-' then '+' else if c = '_' then '/' else c

/-- `base64.urlsafe_b64decode(text)`; `none` is `ValueError`, of which `binascii.Error` is one. -/
def urlsafeB64decode (s : Str) : Option Bytes :=
  if s.all (fun c => c.toNat < 0x80) then a2bBase64 [] 0 (s.map urlsafeDecodeChar) else none

/-! ### The round trip -/

theorem base64Value?_urlsafeChar {d : ℕ} (hd : d < 64) :
    base64Value? (urlsafeDecodeChar (urlsafeChar d)) = some d := by
  have h : ∀ d < 64, base64Value? (urlsafeDecodeChar (urlsafeChar d)) = some d := by decide
  exact h d hd

/-- The characters are printable ASCII, and none of those that JSON escapes or that pad. -/
theorem urlsafeChar_plain {d : ℕ} (hd : d < 64) : urlsafeChar d ∉ ['=', '"', '\\'] ∧
    urlsafeDecodeChar (urlsafeChar d) ≠ '=' ∧ 0x20 ≤ (urlsafeChar d).toNat ∧
      (urlsafeChar d).toNat < 0x7f := by
  have h : ∀ d < 64, urlsafeChar d ∉ ['=', '"', '\\'] ∧
      urlsafeDecodeChar (urlsafeChar d) ≠ '=' ∧ 0x20 ≤ (urlsafeChar d).toNat ∧
        (urlsafeChar d).toNat < 0x7f := by decide
  exact h d hd

theorem lt_of_mem_base64Digits : ∀ {l : List ℕ}, (∀ b ∈ l, b < 256) → ∀ d ∈ base64Digits l, d < 64
  | a :: b :: c :: rest, hl, d, hd => by
    simp only [List.forall_mem_cons] at hl
    obtain ⟨ha, hb, hc, hrest⟩ := hl
    simp only [base64Digits, List.mem_cons] at hd
    rcases hd with rfl | rfl | rfl | rfl | hd
    · omega
    · omega
    · omega
    · omega
    · exact lt_of_mem_base64Digits hrest d hd
  | [a, b], hl, d, hd => by
    simp only [List.forall_mem_cons] at hl
    simp only [base64Digits, List.mem_cons, List.not_mem_nil, or_false] at hd
    omega
  | [a], hl, d, hd => by
    simp only [List.forall_mem_cons] at hl
    simp only [base64Digits, List.mem_cons, List.not_mem_nil, or_false] at hd
    omega
  | [], _, d, hd => by cases hd

section Groups

variable {group : List ℕ} {pads d : ℕ} {s : Str}

/-- A digit that does not fill its group. -/
theorem a2bBase64_digit (hd : d < 64) (hgroup : group.length < 3) :
    a2bBase64 group pads (urlsafeDecodeChar (urlsafeChar d) :: s) = a2bBase64 (group ++ [d]) 0 s := by
  rw [a2bBase64, if_neg (urlsafeChar_plain hd).2.1, base64Value?_urlsafeChar hd]
  exact if_neg (by omega)

/-- A digit that fills its group. -/
theorem a2bBase64_fourth (hd : d < 64) (hgroup : group.length = 3) :
    a2bBase64 group pads (urlsafeDecodeChar (urlsafeChar d) :: s) =
      (a2bBase64 [] 0 s).map fun rest => base64Bytes (group ++ [d]) ++ rest := by
  rw [a2bBase64, if_neg (urlsafeChar_plain hd).2.1, base64Value?_urlsafeChar hd]
  exact if_pos hgroup

end Groups

/-- Only the last eight bits of a number count. -/
theorem ofNat_eq_of_mod {m n : ℕ} (h : m % 256 = n % 256) : UInt8.ofNat m = UInt8.ofNat n := by
  rw [← UInt8.toNat_inj, UInt8.toNat_ofNat', UInt8.toNat_ofNat']
  exact h

/-- The digits of bytes and the padding that fills the last group. -/
theorem a2bBase64_digits : ∀ {l : List ℕ}, (∀ b ∈ l, b < 256) →
    a2bBase64 [] 0 ((base64Digits l).map (fun d => urlsafeDecodeChar (urlsafeChar d)) ++
      List.replicate ((4 - (base64Digits l).length % 4) % 4) '=') = some (l.map UInt8.ofNat)
  | a :: b :: c :: rest, hl => by
    have hlt := lt_of_mem_base64Digits hl
    simp only [base64Digits, List.forall_mem_cons] at hlt
    obtain ⟨h₁, h₂, h₃, h₄, -⟩ := hlt
    simp only [List.forall_mem_cons] at hl
    obtain ⟨ha, hb, hc, hrest⟩ := hl
    have ih := a2bBase64_digits hrest
    have hlength : (4 - (base64Digits (a :: b :: c :: rest)).length % 4) % 4 =
        (4 - (base64Digits rest).length % 4) % 4 := by
      simp only [base64Digits, List.length_cons]
      omega
    rw [hlength]
    simp only [base64Digits, List.map_cons, List.cons_append]
    rw [a2bBase64_digit h₁ (by simp), a2bBase64_digit h₂ (by simp), a2bBase64_digit h₃ (by simp),
      a2bBase64_fourth h₄ (by simp), ih, Option.map_some]
    simp only [List.nil_append, List.cons_append, base64Bytes, Option.some.injEq, List.cons.injEq,
      and_true]
    exact ⟨ofNat_eq_of_mod (by omega), ofNat_eq_of_mod (by omega), ofNat_eq_of_mod (by omega)⟩
  | [a, b], hl => by
    have hlt := lt_of_mem_base64Digits hl
    simp only [base64Digits, List.forall_mem_cons] at hlt hl
    obtain ⟨h₁, h₂, h₃, -⟩ := hlt
    simp only [base64Digits, List.map_cons, List.cons_append]
    rw [a2bBase64_digit h₁ (by simp), a2bBase64_digit h₂ (by simp), a2bBase64_digit h₃ (by simp)]
    simp only [List.length_cons, List.length_nil, List.map_nil, List.nil_append]
    rw [show List.replicate ((4 - (0 + 1 + 1 + 1) % 4) % 4) '=' = ['='] from rfl, a2bBase64,
      if_pos rfl, if_pos (by simp), if_pos (by simp)]
    simp only [List.cons_append, List.nil_append, base64Bytes, Option.some.injEq, List.cons.injEq,
      and_true]
    exact ⟨ofNat_eq_of_mod (by omega), ofNat_eq_of_mod (by omega)⟩
  | [a], hl => by
    have hlt := lt_of_mem_base64Digits hl
    simp only [base64Digits, List.forall_mem_cons] at hlt hl
    obtain ⟨h₁, h₂, -⟩ := hlt
    simp only [base64Digits, List.map_cons, List.cons_append]
    rw [a2bBase64_digit h₁ (by simp), a2bBase64_digit h₂ (by simp)]
    simp only [List.length_cons, List.length_nil, List.map_nil, List.nil_append]
    rw [show List.replicate ((4 - (0 + 1 + 1) % 4) % 4) '=' = ['=', '='] from rfl, a2bBase64,
      if_pos rfl, if_pos (by simp), if_neg (by simp), a2bBase64, if_pos rfl, if_pos (by simp),
      if_pos (by simp)]
    simp only [List.cons_append, List.nil_append, base64Bytes, Option.some.injEq, List.cons.injEq,
      and_true]
    exact ofNat_eq_of_mod (by omega)
  | [], _ => rfl

theorem length_base64Digits_le : ∀ l : List ℕ, 3 * (base64Digits l).length ≤ 4 * l.length + 2
  | a :: b :: c :: rest => by
    have := length_base64Digits_le rest
    simp only [base64Digits, List.length_cons]
    omega
  | [a, b] => by simp [base64Digits]
  | [a] => by simp [base64Digits]
  | [] => by simp [base64Digits]

theorem mem_urlsafeDigits {b : Bytes} {c : Char} (hc : c ∈ urlsafeDigits b) :
    ∃ d < 64, urlsafeChar d = c := by
  obtain ⟨d, hd, rfl⟩ := List.mem_map.1 hc
  refine ⟨d, lt_of_mem_base64Digits (fun n hn => ?_) d hd, rfl⟩
  obtain ⟨x, -, rfl⟩ := List.mem_map.1 hn
  exact x.toNat_lt

/-- **Bytes read back**, with the padding that their digits need. -/
theorem urlsafeB64decode_padded (b : Bytes) :
    urlsafeB64decode (urlsafeDigits b ++ padding (urlsafeDigits b)) = some b := by
  have hascii : (urlsafeDigits b ++ padding (urlsafeDigits b)).all (fun c => c.toNat < 0x80) := by
    rw [List.all_eq_true]
    intro c hc
    rcases List.mem_append.1 hc with hc | hc
    · obtain ⟨d, hd, rfl⟩ := mem_urlsafeDigits hc
      exact decide_eq_true ((urlsafeChar_plain hd).2.2.2.trans (by decide))
    · rw [(List.mem_replicate.1 hc).2]
      rfl
  have hbytes : ∀ n ∈ b.map UInt8.toNat, n < 256 := by
    intro n hn
    obtain ⟨x, -, rfl⟩ := List.mem_map.1 hn
    exact x.toNat_lt
  have hdigits := a2bBase64_digits hbytes
  have hsame : (b.map UInt8.toNat).map UInt8.ofNat = b := by
    rw [List.map_map]
    exact (List.map_congr_left fun x _ => UInt8.ofNat_toNat).trans (List.map_id b)
  rw [urlsafeB64decode, if_pos hascii, List.map_append, padding, List.map_replicate, urlsafeDigits,
    List.map_map, List.length_map, show urlsafeDecodeChar '=' = '=' by decide]
  rw [hsame] at hdigits
  exact hdigits

/-- The digits stand without padding in `base64.urlsafe_b64encode(data).rstrip("=")`. -/
theorem rstrip_urlsafeB64encode (b : Bytes) :
    ((urlsafeB64encode b).reverse.dropWhile (· = '=')).reverse = urlsafeDigits b := by
  have hlast : ∀ c ∈ (urlsafeDigits b).reverse, decide (c = '=') = false := by
    intro c hc
    obtain ⟨d, hd, rfl⟩ := mem_urlsafeDigits (List.mem_reverse.1 hc)
    exact decide_eq_false fun h => (urlsafeChar_plain hd).1 (h ▸ List.mem_cons_self)
  rw [urlsafeB64encode, List.reverse_append, padding, List.reverse_replicate]
  rw [List.dropWhile_append_of_pos (fun c hc => decide_eq_true (List.eq_of_mem_replicate hc))]
  cases h : (urlsafeDigits b).reverse with
  | nil => rw [List.dropWhile_nil, ← h, List.reverse_reverse]
  | cons c t =>
    have hc : decide (c = '=') = false := hlast c (h ▸ List.mem_cons_self)
    rw [List.dropWhile_cons_of_neg (by rw [hc]; nofun), ← h, List.reverse_reverse]

end Python
