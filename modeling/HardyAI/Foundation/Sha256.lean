import HardyAI.Foundation.Text
import HardyAI.Foundation.Transaction

/-! UTF-8 and SHA-256: `hashlib.sha256(text.encode("utf-8")).hexdigest()`. -/

namespace Foundation

section Utf8

def utf8Char (c : CodePoint) : List Nat :=
  let n := c.val
  if n < 0x80 then [n]
  else if n < 0x800 then [0xC0 + n / 0x40, 0x80 + n % 0x40]
  else if n < 0x10000 then [0xE0 + n / 0x1000, 0x80 + n / 0x40 % 0x40, 0x80 + n % 0x40]
  else [0xF0 + n / 0x40000, 0x80 + n / 0x1000 % 0x40, 0x80 + n / 0x40 % 0x40, 0x80 + n % 0x40]

/-- `text.encode("utf-8")`, which refuses lone surrogates. -/
def utf8 (s : Str) : Except PyError (List Nat) :=
  if encodable s then .ok (s.flatMap utf8Char) else .error .unicodeEncodeError

end Utf8

namespace Sha256

def mask (n : Nat) : Nat := n % 0x100000000

def rotr (x n : Nat) : Nat := mask (x >>> n ||| x <<< (32 - n))

/-- The first 32 bits of the fractions of the cube roots of the first 64 primes. -/
def roundConstants : List Nat :=
  [0x428a2f98, 0x71374491, 0xb5c0fbcf, 0xe9b5dba5, 0x3956c25b, 0x59f111f1, 0x923f82a4, 0xab1c5ed5,
    0xd807aa98, 0x12835b01, 0x243185be, 0x550c7dc3, 0x72be5d74, 0x80deb1fe, 0x9bdc06a7, 0xc19bf174,
    0xe49b69c1, 0xefbe4786, 0x0fc19dc6, 0x240ca1cc, 0x2de92c6f, 0x4a7484aa, 0x5cb0a9dc, 0x76f988da,
    0x983e5152, 0xa831c66d, 0xb00327c8, 0xbf597fc7, 0xc6e00bf3, 0xd5a79147, 0x06ca6351, 0x14292967,
    0x27b70a85, 0x2e1b2138, 0x4d2c6dfc, 0x53380d13, 0x650a7354, 0x766a0abb, 0x81c2c92e, 0x92722c85,
    0xa2bfe8a1, 0xa81a664b, 0xc24b8b70, 0xc76c51a3, 0xd192e819, 0xd6990624, 0xf40e3585, 0x106aa070,
    0x19a4c116, 0x1e376c08, 0x2748774c, 0x34b0bcb5, 0x391c0cb3, 0x4ed8aa4a, 0x5b9cca4f, 0x682e6ff3,
    0x748f82ee, 0x78a5636f, 0x84c87814, 0x8cc70208, 0x90befffa, 0xa4506ceb, 0xbef9a3f7, 0xc67178f2]

structure Digest where
  a : Nat
  b : Nat
  c : Nat
  d : Nat
  e : Nat
  f : Nat
  g : Nat
  h : Nat

def initial : Digest :=
  ⟨0x6a09e667, 0xbb67ae85, 0x3c6ef372, 0xa54ff53a, 0x510e527f, 0x9b05688c, 0x1f83d9ab, 0x5be0cd19⟩

/-- One word of the schedule from the 16 before it, the latest first. -/
def nextWord (words : List Nat) : Nat :=
  let w2 := words.getD 1 0
  let w7 := words.getD 6 0
  let w15 := words.getD 14 0
  let w16 := words.getD 15 0
  let s0 := rotr w15 7 ^^^ rotr w15 18 ^^^ w15 >>> 3
  let s1 := rotr w2 17 ^^^ rotr w2 19 ^^^ w2 >>> 10
  mask (w16 + s0 + w7 + s1)

def extend : Nat → List Nat → List Nat
  | 0, words => words
  | n + 1, words => extend n (nextWord words :: words)

def schedule (block : List Nat) : List Nat := (extend 48 block.reverse).reverse

def round (d : Digest) (kw : Nat × Nat) : Digest :=
  let s1 := rotr d.e 6 ^^^ rotr d.e 11 ^^^ rotr d.e 25
  let ch := d.e &&& d.f ^^^ (0xffffffff - d.e) &&& d.g
  let t1 := d.h + s1 + ch + kw.1 + kw.2
  let s0 := rotr d.a 2 ^^^ rotr d.a 13 ^^^ rotr d.a 22
  let maj := d.a &&& d.b ^^^ d.a &&& d.c ^^^ d.b &&& d.c
  ⟨mask (t1 + s0 + maj), d.a, d.b, d.c, mask (d.d + t1), d.e, d.f, d.g⟩

def compress (d : Digest) (block : List Nat) : Digest :=
  let r := (roundConstants.zip (schedule block)).foldl round d
  ⟨mask (d.a + r.a), mask (d.b + r.b), mask (d.c + r.c), mask (d.d + r.d), mask (d.e + r.e),
    mask (d.f + r.f), mask (d.g + r.g), mask (d.h + r.h)⟩

/-- The length of the message in bits, as eight bytes. -/
def lengthBytes (n : Nat) : List Nat :=
  [56, 48, 40, 32, 24, 16, 8, 0].map fun shift => (8 * n) >>> shift % 256

def pad (bytes : List Nat) : List Nat :=
  bytes ++ 0x80 :: List.replicate ((119 - bytes.length % 64) % 64) 0 ++ lengthBytes bytes.length

def words : List Nat → List Nat
  | a :: b :: c :: d :: rest => (a <<< 24 + b <<< 16 + c <<< 8 + d) :: words rest
  | _ => []

def blocks : Nat → List Nat → List (List Nat)
  | 0, _ => []
  | n + 1, ws => ws.take 16 :: blocks n (ws.drop 16)

def digest (bytes : List Nat) : Digest :=
  let ws := words (pad bytes)
  (blocks (ws.length / 16) ws).foldl compress initial

theorem hexDigit_lt {n : Nat} (h : n % 16 < 10) : 48 + n % 16 < 0x110000 := by omega

theorem hexLetter_lt (n : Nat) : 87 + n % 16 < 0x110000 := by omega

def hexDigits : Nat → Nat → Str
  | 0, _ => []
  | width + 1, n =>
    hexDigits width (n / 16) ++ [if h : n % 16 < 10 then ⟨48 + n % 16, hexDigit_lt h⟩
      else ⟨87 + n % 16, hexLetter_lt n⟩]

def hexdigest (bytes : List Nat) : Str :=
  let d := digest bytes
  [d.a, d.b, d.c, d.d, d.e, d.f, d.g, d.h].flatMap (hexDigits 8)

example : hexdigest [0x61, 0x62, 0x63] =
    text "ba7816bf8f01cfea414140de5dae2223b00361a396177a9cb410ff61f20015ad" := by
  decide +kernel

theorem length_hexDigits (width n : Nat) : (hexDigits width n).length = width := by
  induction width generalizing n with
  | zero => rfl
  | succ width ih => rw [hexDigits, List.length_append, ih, List.length_singleton]

theorem hexDigits_hex (width n : Nat) : ∀ c ∈ hexDigits width n,
    48 ≤ c.val ∧ c.val ≤ 57 ∨ 97 ≤ c.val ∧ c.val ≤ 102 := by
  induction width generalizing n with
  | zero => simp [hexDigits]
  | succ width ih =>
    intro c hc
    rw [hexDigits, List.mem_append, List.mem_singleton] at hc
    obtain hc | rfl := hc
    · exact ih _ c hc
    · split <;> simp only <;> omega

theorem hexdigest_hex (bytes : List Nat) : ∀ c ∈ hexdigest bytes,
    48 ≤ c.val ∧ c.val ≤ 57 ∨ 97 ≤ c.val ∧ c.val ≤ 102 := by
  intro c hc
  obtain ⟨n, -, hn⟩ := List.mem_flatMap.1 hc
  exact hexDigits_hex 8 n c hn

end Sha256

end Foundation
