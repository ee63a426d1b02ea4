import GoffyOs.Lib.Positional

/-!
# `hashlib.sha256`

SHA-256 as FIPS 180-4 defines it, on lists of bytes. Words are natural numbers below `2 ^ 32`, so
that a digest can be evaluated by the kernel. `Digest` carries the width of a digest in its type.
-/

namespace Python

/-- A byte string. -/
abbrev Bytes := List UInt8

/-- A byte string of exactly 32 bytes. -/
abbrev Digest := {b : Bytes // b.length = 32}

namespace Sha256

/-- The word size. -/
def word : ℕ := 2 ^ 32

/-- Rotate a word right. -/
def rotr (n x : ℕ) : ℕ := (x >>> n ||| x <<< (32 - n)) % word

def smallSigma0 (x : ℕ) : ℕ := rotr 7 x ^^^ rotr 18 x ^^^ (x >>> 3)
def smallSigma1 (x : ℕ) : ℕ := rotr 17 x ^^^ rotr 19 x ^^^ (x >>> 10)
def bigSigma0 (x : ℕ) : ℕ := rotr 2 x ^^^ rotr 13 x ^^^ rotr 22 x
def bigSigma1 (x : ℕ) : ℕ := rotr 6 x ^^^ rotr 11 x ^^^ rotr 25 x
def choose (x y z : ℕ) : ℕ := (x &&& y) ^^^ ((word - 1 - x) &&& z)
def majority (x y z : ℕ) : ℕ := (x &&& y) ^^^ (x &&& z) ^^^ (y &&& z)

/-- The round constants. -/
def roundConstants : List ℕ :=
  [0x428a2f98, 0x71374491, 0xb5c0fbcf, 0xe9b5dba5, 0x3956c25b, 0x59f111f1, 0x923f82a4, 0xab1c5ed5,
   0xd807aa98, 0x12835b01, 0x243185be, 0x550c7dc3, 0x72be5d74, 0x80deb1fe, 0x9bdc06a7, 0xc19bf174,
   0xe49b69c1, 0xefbe4786, 0x0fc19dc6, 0x240ca1cc, 0x2de92c6f, 0x4a7484aa, 0x5cb0a9dc, 0x76f988da,
   0x983e5152, 0xa831c66d, 0xb00327c8, 0xbf597fc7, 0xc6e00bf3, 0xd5a79147, 0x06ca6351, 0x14292967,
   0x27b70a85, 0x2e1b2138, 0x4d2c6dfc, 0x53380d13, 0x650a7354, 0x766a0abb, 0x81c2c92e, 0x92722c85,
   0xa2bfe8a1, 0xa81a664b, 0xc24b8b70, 0xc76c51a3, 0xd192e819, 0xd6990624, 0xf40e3585, 0x106aa070,
   0x19a4c116, 0x1e376c08, 0x2748774c, 0x34b0bcb5, 0x391c0cb3, 0x4ed8aa4a, 0x5b9cca4f, 0x682e6ff3,
   0x748f82ee, 0x78a5636f, 0x84c87814, 0x8cc70208, 0x90befffa, 0xa4506ceb, 0xbef9a3f7, 0xc67178f2]

/-- The eight chaining words. -/
structure Chain where
  (a b c d e f g h : ℕ)

/-- The initial chaining words. -/
def initialChain : Chain :=
  ⟨0x6a09e667, 0xbb67ae85, 0x3c6ef372, 0xa54ff53a, 0x510e527f, 0x9b05688c, 0x1f83d9ab, 0x5be0cd19⟩

/-- Extend a reversed message schedule by `n` words. -/
def extendSchedule : ℕ → List ℕ → List ℕ
  | 0, w => w
  | n + 1, w =>
    extendSchedule n
      ((smallSigma1 (w.getD 1 0) + w.getD 6 0 + smallSigma0 (w.getD 14 0) + w.getD 15 0) % word :: w)

/-- One round. -/
def round (s : Chain) (kw : ℕ × ℕ) : Chain :=
  let t₁ := s.h + bigSigma1 s.e + choose s.e s.f s.g + kw.1 + kw.2
  let t₂ := bigSigma0 s.a + majority s.a s.b s.c
  ⟨(t₁ + t₂) % word, s.a, s.b, s.c, (s.d + t₁) % word, s.e, s.f, s.g⟩

/-- Compress one block of sixteen words into the chain. -/
def compress (s : Chain) (block : List ℕ) : Chain :=
  let schedule := (extendSchedule 48 block.reverse).reverse
  let t := (roundConstants.zip schedule).foldl round s
  ⟨(s.a + t.a) % word, (s.b + t.b) % word, (s.c + t.c) % word, (s.d + t.d) % word,
   (s.e + t.e) % word, (s.f + t.f) % word, (s.g + t.g) % word, (s.h + t.h) % word⟩

/-- A delimiter bit, zeros up to a whole block, and the bit length. -/
def pad (message : List ℕ) : List ℕ :=
  message ++ 0x80 :: List.replicate ((119 - message.length % 64) % 64) 0 ++
    Positional.digits 256 8 (8 * message.length)

/-- Big-endian words of a byte list. -/
def toWords : List ℕ → List ℕ
  | w₀ :: w₁ :: w₂ :: w₃ :: rest => Positional.value 256 [w₀, w₁, w₂, w₃] :: toWords rest
  | _ => []

/-- Compress all blocks of a word list, at most `n` of them. -/
def compressAll : ℕ → Chain → List ℕ → Chain
  | 0, s, _ => s
  | n + 1, s, ws => compressAll n (compress s (ws.take 16)) (ws.drop 16)

/-- The 32 bytes of a chain. -/
def Chain.bytes (s : Chain) : Bytes :=
  [s.a, s.b, s.c, s.d, s.e, s.f, s.g, s.h].flatMap fun w =>
    (Positional.digits 256 4 w).map UInt8.ofNat

end Sha256

/-- `hashlib.sha256(message).digest()`. -/
def sha256 (message : Bytes) : Digest :=
  let words := Sha256.toWords (Sha256.pad (message.map UInt8.toNat))
  ⟨(Sha256.compressAll (words.length / 16) Sha256.initialChain words).bytes, by
    simp [Sha256.Chain.bytes, List.flatMap]⟩

/-- The digest of `abc` given in the standard. -/
example : (sha256 [0x61, 0x62, 0x63]).val =
    [0xba, 0x78, 0x16, 0xbf, 0x8f, 0x01, 0xcf, 0xea, 0x41, 0x41, 0x40, 0xde, 0x5d, 0xae, 0x22, 0x23,
     0xb0, 0x03, 0x61, 0xa3, 0x96, 0x17, 0x7a, 0x9c, 0xb4, 0x10, 0xff, 0x61, 0xf2, 0x00, 0x15, 0xad] := by
  decide +kernel

/-- `bytes.hex()`. -/
def hex (b : Bytes) : List Char := b.flatMap fun x => Positional.write 16 2 x.toNat

end Python
