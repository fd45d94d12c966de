import Mathlib

/-!
# SHA-1 and SHA-256

The two hash functions as their standard defines them, on lists of bytes. Words are natural
numbers below 2^32, so that a closed hash is evaluated by arithmetic on numerals. Both
expand a block of sixteen words to a schedule and run one round for each word of it.
-/

namespace MiddleWhere.Sha

def word (n : ℕ) : ℕ := n % 2 ^ 32

def rotl (n k : ℕ) : ℕ := word (n <<< k) ||| (n >>> (32 - k))

def rotr (n k : ℕ) : ℕ := rotl n (32 - k)

def complement (n : ℕ) : ℕ := 2 ^ 32 - 1 - n

def bytesOf (n : ℕ) : List UInt8 :=
  [UInt8.ofNat (n >>> 24), UInt8.ofNat (n >>> 16), UInt8.ofNat (n >>> 8), UInt8.ofNat n]

/-- A one bit, zeros up to 56 bytes of a block, and the length in bits. -/
def padding (len : ℕ) : List UInt8 :=
  0x80 :: List.replicate ((119 - len % 64) % 64) 0 ++ bytesOf (len * 8 / 2 ^ 32) ++ bytesOf (len * 8)

def words : List UInt8 → List ℕ
  | a :: b :: c :: d :: rest =>
    (((a.toNat * 256 + b.toNat) * 256 + c.toNat) * 256 + d.toNat) :: words rest
  | _ => []

/-- The blocks of sixteen words; `n` bounds their number. -/
def blocks : ℕ → List ℕ → List (List ℕ)
  | 0, _ => []
  | n + 1, ws => if ws.isEmpty then [] else ws.take 16 :: blocks n (ws.drop 16)

def messageBlocks (message : List UInt8) : List (List ℕ) :=
  let ws := words (message ++ padding message.length)
  blocks ws.length ws

/-- The next words of a schedule, which is kept newest first. -/
def expand (next : List ℕ → ℕ) : ℕ → List ℕ → List ℕ
  | 0, schedule => schedule
  | n + 1, schedule => expand next n (next schedule :: schedule)

/-- The state words added up, after the rounds over one block. -/
def compress (round : List ℕ → ℕ × ℕ → List ℕ) (schedule : List ℕ → List ℕ) (state : List ℕ)
    (block : List ℕ) : List ℕ :=
  let final := (schedule block).zipIdx.foldl round state
  List.zipWith (fun a b => word (a + b)) state final

/-! ## SHA-1 -/

def schedule1 (block : List ℕ) : List ℕ :=
  (expand (fun w => rotl (w.getD 2 0 ^^^ w.getD 7 0 ^^^ w.getD 13 0 ^^^ w.getD 15 0) 1) 64
    block.reverse).reverse

def round1 : List ℕ → ℕ × ℕ → List ℕ
  | [a, b, c, d, e], (w, t) =>
    let (f, k) :=
      if t < 20 then ((b &&& c) ||| (complement b &&& d), 0x5A827999)
      else if t < 40 then (b ^^^ c ^^^ d, 0x6ED9EBA1)
      else if t < 60 then ((b &&& c) ||| (b &&& d) ||| (c &&& d), 0x8F1BBCDC)
      else (b ^^^ c ^^^ d, 0xCA62C1D6)
    [word (rotl a 5 + f + e + k + w), a, rotl b 30, c, d]
  | state, _ => state

def initial1 : List ℕ := [0x67452301, 0xEFCDAB89, 0x98BADCFE, 0x10325476, 0xC3D2E1F0]

def sha1 (message : List UInt8) : List UInt8 :=
  ((messageBlocks message).foldl (compress round1 schedule1) initial1).flatMap bytesOf

/-! ## SHA-256 -/

def schedule256 (block : List ℕ) : List ℕ :=
  let next (w : List ℕ) :=
    let w15 := w.getD 14 0
    let w2 := w.getD 1 0
    let s0 := rotr w15 7 ^^^ rotr w15 18 ^^^ (w15 >>> 3)
    let s1 := rotr w2 17 ^^^ rotr w2 19 ^^^ (w2 >>> 10)
    word (w.getD 15 0 + s0 + w.getD 6 0 + s1)
  (expand next 48 block.reverse).reverse

def roundConstants : List ℕ :=
  [0x428a2f98, 0x71374491, 0xb5c0fbcf, 0xe9b5dba5, 0x3956c25b, 0x59f111f1, 0x923f82a4, 0xab1c5ed5,
   0xd807aa98, 0x12835b01, 0x243185be, 0x550c7dc3, 0x72be5d74, 0x80deb1fe, 0x9bdc06a7, 0xc19bf174,
   0xe49b69c1, 0xefbe4786, 0x0fc19dc6, 0x240ca1cc, 0x2de92c6f, 0x4a7484aa, 0x5cb0a9dc, 0x76f988da,
   0x983e5152, 0xa831c66d, 0xb00327c8, 0xbf597fc7, 0xc6e00bf3, 0xd5a79147, 0x06ca6351, 0x14292967,
   0x27b70a85, 0x2e1b2138, 0x4d2c6dfc, 0x53380d13, 0x650a7354, 0x766a0abb, 0x81c2c92e, 0x92722c85,
   0xa2bfe8a1, 0xa81a664b, 0xc24b8b70, 0xc76c51a3, 0xd192e819, 0xd6990624, 0xf40e3585, 0x106aa070,
   0x19a4c116, 0x1e376c08, 0x2748774c, 0x34b0bcb5, 0x391c0cb3, 0x4ed8aa4a, 0x5b9cca4f, 0x682e6ff3,
   0x748f82ee, 0x78a5636f, 0x84c87814, 0x8cc70208, 0x90befffa, 0xa4506ceb, 0xbef9a3f7, 0xc67178f2]

def round256 : List ℕ → ℕ × ℕ → List ℕ
  | [a, b, c, d, e, f, g, h], (w, t) =>
    let s1 := rotr e 6 ^^^ rotr e 11 ^^^ rotr e 25
    let ch := (e &&& f) ^^^ (complement e &&& g)
    let t1 := h + s1 + ch + roundConstants.getD t 0 + w
    let s0 := rotr a 2 ^^^ rotr a 13 ^^^ rotr a 22
    let maj := (a &&& b) ^^^ (a &&& c) ^^^ (b &&& c)
    [word (t1 + s0 + maj), a, b, c, word (d + t1), e, f, g]
  | state, _ => state

def initial256 : List ℕ :=
  [0x6a09e667, 0xbb67ae85, 0x3c6ef372, 0xa54ff53a, 0x510e527f, 0x9b05688c, 0x1f83d9ab, 0x5be0cd19]

def sha256 (message : List UInt8) : List UInt8 :=
  ((messageBlocks message).foldl (compress round256 schedule256) initial256).flatMap bytesOf

/-! ## Lengths -/

theorem round1_length {state : List ℕ} {w : ℕ × ℕ} (h : state.length = 5) :
    (round1 state w).length = 5 := by
  match state, w with
  | [a, b, c, d, e], (w, t) => rfl

theorem rounds1_length {ws : List (ℕ × ℕ)} {state : List ℕ} (h : state.length = 5) :
    (ws.foldl round1 state).length = 5 := by
  induction ws generalizing state with
  | nil => exact h
  | cons w ws ih => exact ih (round1_length h)

theorem sha1_length (message : List UInt8) : (sha1 message).length = 20 := by
  have hblocks : ∀ (bs : List (List ℕ)) (state : List ℕ), state.length = 5 →
      (bs.foldl (compress round1 schedule1) state).length = 5 := by
    intro bs
    induction bs with
    | nil => exact fun state h => h
    | cons block bs ih =>
      intro state h
      apply ih
      simp [compress, rounds1_length h, h]
  have hbytes : ∀ n, (bytesOf n).length = 4 := fun _ => rfl
  simp [sha1, List.length_flatMap, hbytes, hblocks _ _ (show initial1.length = 5 from rfl)]

example : sha1 [0x61, 0x62, 0x63] = [0xa9, 0x99, 0x3e, 0x36, 0x47, 0x06, 0x81, 0x6a, 0xba, 0x3e,
    0x25, 0x71, 0x78, 0x50, 0xc2, 0x6c, 0x9c, 0xd0, 0xd8, 0x9d] := by decide +kernel

example : (sha256 [0x61, 0x62, 0x63]).take 8 = [0xba, 0x78, 0x16, 0xbf, 0x8f, 0x01, 0xcf, 0xea] := by
  decide +kernel

end MiddleWhere.Sha
