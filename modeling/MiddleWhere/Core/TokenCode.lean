import MiddleWhere.Core.Token

/-!
# A token carries every bit of its random bytes

Each character of a token stands for six bits. Reading the characters back gives the bytes
the random generator filled in, also those of the last, short group.
-/

namespace MiddleWhere.Token

/-- The place of a character in the alphabet. -/
def digitValue (c : Char) : ℕ := alphabet.idxOf c

theorem digitValue_digit (n : ℕ) : digitValue (digit n) = n % 64 := by
  have h : ∀ k : Fin 64, digitValue (alphabet.getD k.val 'A') = k.val := by decide +kernel
  exact h ⟨n % 64, Nat.mod_lt n (by decide)⟩

/-- `c.is_ascii_alphanumeric() || c == '_' || c == '-'` -/
def isTokenChar (c : Char) : Bool := c.isAlphanum || c == '_' || c == '-'

theorem isTokenChar_digit (n : ℕ) : isTokenChar (digit n) = true := by
  have h : ∀ k : Fin 64, isTokenChar (alphabet.getD k.val 'A') = true := by decide +kernel
  exact h ⟨n % 64, Nat.mod_lt n (by decide)⟩

theorem isTokenChar_encode (raw : Bytes) : ∀ c ∈ encode raw, isTokenChar c = true := by
  induction raw using encode.induct with
  | case1 a b c rest ih =>
    intro x hx
    simp only [encode, List.mem_cons] at hx
    rcases hx with rfl | rfl | rfl | rfl | hx
    · exact isTokenChar_digit _
    · exact isTokenChar_digit _
    · exact isTokenChar_digit _
    · exact isTokenChar_digit _
    · exact ih x hx
  | case2 a b => simp [encode, isTokenChar_digit]
  | case3 a => simp [encode, isTokenChar_digit]
  | case4 => simp [encode]

theorem length_encode (raw : Bytes) : (encode raw).length = (4 * raw.length + 2) / 3 := by
  induction raw using encode.induct with
  | case1 a b c rest ih =>
    simp only [encode, List.length_cons, ih]
    omega
  | case2 a b => simp [encode]
  | case3 a => simp [encode]
  | case4 => simp [encode]

/-- Four characters give three bytes back; three or two that are left give two or one. -/
def decode : List Char → Bytes
  | p :: q :: r :: s :: rest =>
    let n := digitValue p * 2 ^ 18 + digitValue q * 2 ^ 12 + digitValue r * 2 ^ 6 + digitValue s
    UInt8.ofNat (n / 2 ^ 16) :: UInt8.ofNat (n / 2 ^ 8) :: UInt8.ofNat n :: decode rest
  | [p, q, r] =>
    let n := digitValue p * 2 ^ 18 + digitValue q * 2 ^ 12 + digitValue r * 2 ^ 6
    [UInt8.ofNat (n / 2 ^ 16), UInt8.ofNat (n / 2 ^ 8)]
  | [p, q] => [UInt8.ofNat ((digitValue p * 2 ^ 18 + digitValue q * 2 ^ 12) / 2 ^ 16)]
  | _ => []

/-- Six bits at a time, a number of three bytes is put together again. -/
theorem sextets (n : ℕ) (hn : n < 2 ^ 24) :
    n / 2 ^ 18 % 64 * 2 ^ 18 + n / 2 ^ 12 % 64 * 2 ^ 12 + n / 2 ^ 6 % 64 * 2 ^ 6 + n % 64 = n := by
  omega

theorem ofNat_eq {a : UInt8} {n : ℕ} (h : n % 256 = a.toNat) : UInt8.ofNat n = a := by
  apply UInt8.toNat_inj.mp
  rw [UInt8.toNat_ofNat']
  exact h

theorem decode_encode (raw : Bytes) : decode (encode raw) = raw := by
  induction raw using encode.induct with
  | case1 a b c rest ih =>
    have ha := a.toNat_lt
    have hb := b.toNat_lt
    have hc := c.toNat_lt
    simp only [encode, decode, digitValue_digit, ih]
    rw [sextets _ (by omega)]
    congr 1
    · exact ofNat_eq (by omega)
    congr 1
    · exact ofNat_eq (by omega)
    congr 1
    · exact ofNat_eq (by omega)
  | case2 a b =>
    have ha := a.toNat_lt
    have hb := b.toNat_lt
    simp only [encode, decode, digitValue_digit]
    congr 1
    · exact ofNat_eq (by omega)
    congr 1
    · exact ofNat_eq (by omega)
  | case3 a =>
    have ha := a.toNat_lt
    simp only [encode, decode, digitValue_digit]
    congr 1
    · exact ofNat_eq (by omega)
  | case4 => rfl

/-- `[u8; TOKEN_RAND_BYTES]` -/
structure Raw where
  bytes : Bytes
  length_eq : bytes.length = tokenRandBytes

theorem Raw.ext {raw raw' : Raw} (h : raw.bytes = raw'.bytes) : raw = raw' := by
  cases raw
  cases raw'
  cases h
  rfl

/-- No two fillings of the random bytes give one token, and every token is 43 characters that
need no escaping. -/
theorem generateToken_keeps :
    (fun raw : Raw => generateToken raw.bytes).Injective ∧
      ∀ raw : Raw, (generateToken raw.bytes).length = 43 ∧
        ∀ c ∈ (generateToken raw.bytes).toList, isTokenChar c = true := by
  constructor
  · intro raw raw' h
    have hcode : encode raw.bytes = encode raw'.bytes := String.ofList_injective h
    have hread := congrArg decode hcode
    rw [decode_encode, decode_encode] at hread
    exact Raw.ext hread
  · intro raw
    constructor
    · rw [generateToken, String.length_ofList, length_encode, raw.length_eq]
      rfl
    · rw [generateToken, String.toList_ofList]
      exact isTokenChar_encode raw.bytes

end MiddleWhere.Token
