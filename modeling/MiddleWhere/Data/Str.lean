import MiddleWhere.Effects.Outcome

/-!
# Strings as bytes

A string is a sequence of characters, and the programs modelled here take lengths, indices
and slices of its UTF-8 bytes. A slice panics unless both its ends are character
boundaries. Bytes that are not UTF-8 become a string by replacing each maximal ill-formed
part with U+FFFD.
-/

namespace MiddleWhere.Str

def asBytes (s : String) : List UInt8 := s.toList.flatMap String.utf8EncodeChar

/-- The length in bytes. -/
def len (s : String) : ℕ := (asBytes s).length

def isContinuation (b : UInt8) : Bool := 0x80 ≤ b && b < 0xC0

def isCharBoundary (text : List UInt8) (i : ℕ) : Bool :=
  i == 0 || i == text.length ||
    match text[i]? with
    | some b => !isContinuation b
    | none => false

/-- `&s[i..j]`, as bytes. -/
def strSlice {ε : Type} (s : String) (i j : ℕ) : Outcome ε (List UInt8) :=
  let text := asBytes s
  if i ≤ j ∧ isCharBoundary text i = true ∧ isCharBoundary text j = true then
    .ok ((text.drop i).take (j - i))
  else .panic

@[simp] theorem isCharBoundary_zero (text : List UInt8) : isCharBoundary text 0 = true := rfl

@[simp] theorem isCharBoundary_length (text : List UInt8) :
    isCharBoundary text text.length = true := by
  simp [isCharBoundary]

theorem strSlice_prefix {ε : Type} (s : String) (j : ℕ) :
    (strSlice s 0 j : Outcome ε (List UInt8)) =
      if isCharBoundary (asBytes s) j = true then .ok ((asBytes s).take j) else .panic := by
  simp only [strSlice, Nat.zero_le, isCharBoundary_zero, true_and, List.drop_zero, Nat.sub_zero]

/-! ## Characters of a string -/

theorem ofNat_lt {n k : ℕ} (hn : n < 256) (hk : k < 256) :
    UInt8.ofNat n < UInt8.ofNat k ↔ n < k := by
  rw [UInt8.lt_iff_toNat_lt, UInt8.toNat_ofNat_of_lt' hn, UInt8.toNat_ofNat_of_lt' hk]

theorem isContinuation_ofNat {n : ℕ} (hn : n < 256) :
    isContinuation (UInt8.ofNat n) = true ↔ 128 ≤ n ∧ n < 192 := by
  have h128 : (0x80 ≤ UInt8.ofNat n) ↔ 128 ≤ n := by
    have hlt : UInt8.ofNat n < 0x80 ↔ n < 128 := ofNat_lt (k := 128) hn (by omega)
    rw [← UInt8.not_lt, hlt, not_lt]
  have h192 : (UInt8.ofNat n < 0xC0) ↔ n < 192 := ofNat_lt (k := 192) hn (by omega)
  simp [isContinuation, h128, h192]

theorem isContinuation_low (n : ℕ) : isContinuation (UInt8.ofNat (n % 64 + 128)) = true :=
  (isContinuation_ofNat (by omega)).mpr (by omega)

/-- A lead byte of a longer character is neither a continuation nor ASCII. -/
theorem lead_shape {n : ℕ} (hlo : 192 ≤ n) (hhi : n < 256) :
    isContinuation (UInt8.ofNat n) = false ∧ ¬ UInt8.ofNat n < 0x80 := by
  constructor
  · rw [← Bool.not_eq_true, isContinuation_ofNat hhi]
    omega
  · have := (ofNat_lt (k := 128) hhi (by omega)).not
    exact this.mpr (by omega)

theorem encode_shape (c : Char) : ∃ b tail, String.utf8EncodeChar c = b :: tail ∧
    isContinuation b = false ∧ (b < 0x80 → tail = []) ∧ ∀ x ∈ tail, isContinuation x = true := by
  have hmax : c.val.toNat < 0x110000 := by
    have := c.valid
    unfold UInt32.isValidChar Nat.isValidChar at this
    omega
  simp only [String.utf8EncodeChar]
  split_ifs with h1 h2 h3
  · refine ⟨_, [], rfl, ?_, fun _ => rfl, by simp⟩
    rw [← Bool.not_eq_true, isContinuation_ofNat (by omega)]
    omega
  · have hlead := lead_shape (n := c.val.toNat / 64 % 32 + 192) (by omega) (by omega)
    exact ⟨_, _, rfl, hlead.1, fun h => absurd h hlead.2, by
      simp only [List.forall_mem_cons, isContinuation_low, List.not_mem_nil]; simp⟩
  · have hlead := lead_shape (n := c.val.toNat / 4096 % 16 + 224) (by omega) (by omega)
    exact ⟨_, _, rfl, hlead.1, fun h => absurd h hlead.2, by
      simp only [List.forall_mem_cons, isContinuation_low, List.not_mem_nil]; simp⟩
  · have hlead := lead_shape (n := c.val.toNat / 262144 % 8 + 240) (by omega) (by omega)
    exact ⟨_, _, rfl, hlead.1, fun h => absurd h hlead.2, by
      simp only [List.forall_mem_cons, isContinuation_low, List.not_mem_nil]; simp⟩

/-- After a character that is one byte long, another one begins. -/
theorem boundary_after_ascii {cs : List Char} {i : ℕ} {a b : UInt8}
    (ha : (cs.flatMap String.utf8EncodeChar)[i]? = some a) (hascii : a < 0x80)
    (hb : (cs.flatMap String.utf8EncodeChar)[i + 1]? = some b) : isContinuation b = false := by
  induction cs generalizing i with
  | nil => simp at ha
  | cons c cs ih =>
    obtain ⟨lead, tail, henc, hlead, hshort, hcont⟩ := encode_shape c
    rw [List.flatMap_cons, henc, List.cons_append] at ha hb
    by_cases hi : tail.length < i
    · -- the pair lies in the characters that follow
      have hia : i = (i - tail.length - 1) + tail.length + 1 := by omega
      rw [hia, List.getElem?_cons_succ, List.getElem?_append_right (by omega)] at ha
      rw [List.getElem?_cons_succ, List.getElem?_append_right (by omega)] at hb
      refine ih (i := i - tail.length - 1) ?_ ?_
      · simpa using ha
      · rw [show i - tail.length - 1 + 1 = i - tail.length by omega]
        exact hb
    · cases i with
      | zero =>
        obtain rfl : lead = a := by simpa using ha
        obtain rfl := hshort hascii
        cases cs with
        | nil => simp at hb
        | cons c' cs =>
          obtain ⟨lead', tail', henc', hlead', -⟩ := encode_shape c'
          rw [List.flatMap_cons, henc'] at hb
          obtain rfl : lead' = b := by simpa using hb
          exact hlead'
      | succ i =>
        rw [List.getElem?_cons_succ, List.getElem?_append_left (by omega)] at ha
        have hmem := hcont a (List.mem_of_getElem? ha)
        simp [isContinuation] at hmem
        exact absurd hascii (UInt8.not_lt.mpr hmem.1)

/-! ## Strings from bytes -/

def replacement : Char := Char.ofNat 0xFFFD

/-- The second bytes that the lead byte of a longer character admits. -/
def secondAllowed (lead second : UInt8) : Bool :=
  if lead = 0xE0 then 0xA0 ≤ second && second ≤ 0xBF
  else if lead = 0xED then 0x80 ≤ second && second ≤ 0x9F
  else if lead = 0xF0 then 0x90 ≤ second && second ≤ 0xBF
  else if lead = 0xF4 then 0x80 ≤ second && second ≤ 0x8F
  else isContinuation second

def low (b : UInt8) : ℕ := b.toNat % 64

/-- `String::from_utf8_lossy`. -/
def lossyChars : List UInt8 → List Char
  | [] => []
  | b :: rest =>
    if b < 0x80 then Char.ofNat b.toNat :: lossyChars rest
    else if b < 0xC2 || 0xF4 < b then replacement :: lossyChars rest
    else match rest with
      | [] => [replacement]
      | c :: rest₂ =>
        if !secondAllowed b c then replacement :: lossyChars (c :: rest₂)
        else if b < 0xE0 then Char.ofNat (b.toNat % 32 * 64 + low c) :: lossyChars rest₂
        else match rest₂ with
          | [] => [replacement]
          | d :: rest₃ =>
            if !isContinuation d then replacement :: lossyChars (d :: rest₃)
            else if b < 0xF0 then
              Char.ofNat ((b.toNat % 16 * 64 + low c) * 64 + low d) :: lossyChars rest₃
            else match rest₃ with
              | [] => [replacement]
              | e :: rest₄ =>
                if !isContinuation e then replacement :: lossyChars (e :: rest₄)
                else
                  Char.ofNat (((b.toNat % 8 * 64 + low c) * 64 + low d) * 64 + low e) ::
                    lossyChars rest₄

def fromUtf8Lossy (bytes : List UInt8) : String := String.ofList (lossyChars bytes)

example : lossyChars [0x61, 0xC3, 0xA9, 0xFF, 0xE2, 0x82, 0x62] =
    ['a', Char.ofNat 0xE9, replacement, replacement, 'b'] := by decide

/-! ## White space -/

/-- The Unicode property `White_Space`. -/
def isWhitespace (c : Char) : Bool :=
  let n := c.toNat
  (9 ≤ n && n ≤ 13) || n == 32 || n == 0x85 || n == 0xA0 || n == 0x1680 ||
    (0x2000 ≤ n && n ≤ 0x200A) || n == 0x2028 || n == 0x2029 || n == 0x202F || n == 0x205F ||
    n == 0x3000

def trimStart (cs : List Char) : List Char := cs.dropWhile isWhitespace

def trim (cs : List Char) : List Char := ((trimStart cs).reverse.dropWhile isWhitespace).reverse

end MiddleWhere.Str
