import GoffyOs.Python.Text

/-!
# Bytes of a text

How many bytes `str.encode("utf-8")` makes of a text.
-/

namespace Python

variable {s t : Str} {c : Char}

theorem utf8_cons_ascii (hc : c.toNat < 0x80) : utf8 (c :: s) = UInt8.ofNat c.toNat :: utf8 s := by
  have hsize : c.utf8Size = 1 := by
    rw [Char.utf8Size_eq_one_iff, UInt32.le_iff_toNat_le]
    exact Nat.le_of_lt_succ hc
  rw [utf8, List.flatMap_cons, String.utf8EncodeChar_eq_singleton hsize]
  rfl

/-- `len(_.encode("utf-8"))`. -/
def byteLength (s : Str) : ℕ := (utf8 s).length

@[simp] theorem byteLength_nil : byteLength [] = 0 := rfl

theorem byteLength_cons_ascii (hc : c.toNat < 0x80) : byteLength (c :: s) = byteLength s + 1 := by
  rw [byteLength, utf8_cons_ascii hc, List.length_cons]
  rfl

theorem byteLength_append (s t : Str) : byteLength (s ++ t) = byteLength s + byteLength t := by
  rw [byteLength, utf8, List.flatMap_append, List.length_append]
  rfl

theorem byteLength_of_ascii (hs : ∀ c ∈ s, c.toNat < 0x80) : byteLength s = s.length := by
  induction s with
  | nil => rfl
  | cons c s ih =>
    obtain ⟨hc, hs⟩ := List.forall_mem_cons.1 hs
    rw [byteLength_cons_ascii hc, ih hs, List.length_cons]

theorem byteLength_natStr (n : ℕ) : byteLength (natStr n) = (natStr n).length := by
  apply byteLength_of_ascii
  intro c hc
  have hdigit := toNat_of_mem_natStr hc
  omega

/-- `bytes.decode("utf-8")`; `none` is `UnicodeDecodeError`. -/
def decodeUtf8 (b : Bytes) : Option Str := (ByteArray.utf8Decode? b.toByteArray).map Array.toList

theorem decodeUtf8_utf8 (s : Str) : decodeUtf8 (utf8 s) = some s := by
  have h : ByteArray.utf8Decode? (utf8 s).toByteArray = some s.toArray := List.utf8Decode?_utf8Encode
  rw [decodeUtf8, h]
  rfl

end Python
