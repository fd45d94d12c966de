import MiddleWhere.Data.Utf8

/-!
# Percent-encoding

Each byte of a text that is not an unreserved character is written as `%` and two hexadecimal
digits. The decoder gives the bytes back; what is no escape it copies.
-/

namespace MiddleWhere.Percent
open Str

/-- The unreserved characters of RFC 3986. -/
def isUnreserved (c : Char) : Bool :=
  c.isAlphanum || c == '-' || c == '.' || c == '_' || c == '~'

def hexDigit (n : ℕ) : Char := "0123456789ABCDEF".toList.getD n '0'

def hexValue (c : Char) : Option ℕ :=
  if c.isDigit then some (c.toNat - 0x30)
  else if 'A' ≤ c ∧ c ≤ 'F' then some (c.toNat - 0x41 + 10)
  else if 'a' ≤ c ∧ c ≤ 'f' then some (c.toNat - 0x61 + 10)
  else none

def charOf (b : UInt8) : Char := Char.ofNat b.toNat

/-- A byte as it stands in the encoded text. -/
def encodeByte (b : UInt8) : List Char :=
  if isUnreserved (charOf b) then [charOf b]
  else ['%', hexDigit (b.toNat / 16), hexDigit (b.toNat % 16)]

def encode (bytes : List UInt8) : List Char := bytes.flatMap encodeByte

/-- `%` with two hexadecimal digits after it stands for a byte. -/
def decode : List UInt8 → List UInt8
  | 0x25 :: hi :: lo :: rest =>
    match hexValue (charOf hi), hexValue (charOf lo) with
    | some h, some l => UInt8.ofNat (h * 16 + l) :: decode rest
    | _, _ => 0x25 :: decode (hi :: lo :: rest)
  | b :: rest => b :: decode rest
  | [] => []

/-- Unreserved characters and escapes only. -/
inductive Escaped : List Char → Prop
  | nil : Escaped []
  | plain {c : Char} {rest : List Char} : isUnreserved c = true → Escaped rest →
      Escaped (c :: rest)
  | escape {hi lo : Char} {rest : List Char} : (hexValue hi).isSome → (hexValue lo).isSome →
      Escaped rest → Escaped ('%' :: hi :: lo :: rest)

variable {b : UInt8} {bytes rest : List UInt8} {text : List Char} {c : Char}

theorem Escaped.append {more : List Char} (h : Escaped text) (hmore : Escaped more) :
    Escaped (text ++ more) := by
  induction h with
  | nil => exact hmore
  | plain hc _ ih => exact .plain hc ih
  | escape hhi hlo _ ih => exact .escape hhi hlo ih

theorem hexValue_hexDigit {n : ℕ} (hn : n < 16) : hexValue (hexDigit n) = some n := by
  have h : ∀ k : Fin 16, hexValue (hexDigit k.val) = some k.val := by decide
  exact h ⟨n, hn⟩

theorem encodeByte_escaped (b : UInt8) : Escaped (encodeByte b) := by
  have hb := b.toNat_lt
  unfold encodeByte
  split_ifs with hplain
  · exact .plain hplain .nil
  · refine .escape ?_ ?_ .nil
    · rw [hexValue_hexDigit (by omega)]
      rfl
    · rw [hexValue_hexDigit (by omega)]
      rfl

theorem encode_escaped (bytes : List UInt8) : Escaped (encode bytes) := by
  induction bytes with
  | nil => exact .nil
  | cons b bytes ih => exact (encodeByte_escaped b).append ih

/-! ## The characters of an encoded text -/

/-- The characters that an encoded text consists of. -/
def isEscapedChar (c : Char) : Bool := isUnreserved c || c == '%'

theorem hexValue_unreserved (h : (hexValue c).isSome) : isUnreserved c = true := by
  unfold hexValue at h
  split_ifs at h with hdigit hupper hlower
  · simp [isUnreserved, Char.isAlphanum, hdigit]
  · have halpha : c.isUpper = true := by
      simp only [Char.isUpper, decide_eq_true_eq]
      exact ⟨hupper.1, le_trans hupper.2 (by decide)⟩
    simp [isUnreserved, Char.isAlphanum, Char.isAlpha, halpha]
  · have halpha : c.isLower = true := by
      have hle : c ≤ 'z' := le_trans hlower.2 (by decide)
      rw [Char.isLower, Bool.and_eq_true, decide_eq_true_eq, decide_eq_true_eq]
      exact ⟨Char.le_def.mp hlower.1, Char.le_def.mp hle⟩
    simp [isUnreserved, Char.isAlphanum, Char.isAlpha, halpha]
  · cases h

theorem Escaped.chars (h : Escaped text) : ∀ c ∈ text, isEscapedChar c = true := by
  induction h with
  | nil => exact nofun
  | plain hc _ ih =>
    refine List.forall_mem_cons.mpr ⟨?_, ih⟩
    simp [isEscapedChar, hc]
  | escape hhi hlo _ ih =>
    refine List.forall_mem_cons.mpr ⟨rfl, List.forall_mem_cons.mpr ⟨?_, ?_⟩⟩
    · simp [isEscapedChar, hexValue_unreserved hhi]
    · refine List.forall_mem_cons.mpr ⟨?_, ih⟩
      simp [isEscapedChar, hexValue_unreserved hlo]

theorem Escaped.not_mem (h : Escaped text) (hc : isEscapedChar c = false) : c ∉ text := by
  intro hmem
  rw [h.chars c hmem] at hc
  cases hc

/-! ## Decoding -/

/-- The bytes of one encoded byte. -/
def bytesOf (b : UInt8) : List UInt8 :=
  if isUnreserved (charOf b) then [b]
  else [0x25, UInt8.ofNat (hexDigit (b.toNat / 16)).toNat, UInt8.ofNat (hexDigit (b.toNat % 16)).toNat]

theorem hexDigit_ascii (n : ℕ) : (hexDigit n).toNat < 0x80 := by
  by_cases hn : n < 16
  · have h : ∀ k : Fin 16, (hexDigit k.val).toNat < 0x80 := by decide
    exact h ⟨n, hn⟩
  · have hout : hexDigit n = '0' := List.getD_eq_default _ _ (by
      have hlen : "0123456789ABCDEF".toList.length = 16 := by decide
      omega)
    rw [hout]
    decide

theorem unreserved_ascii (h : isUnreserved (charOf b) = true) : b < 0x80 := by
  have hall : ∀ k : Fin 256, isUnreserved (charOf (UInt8.ofNat k.val)) = true →
      UInt8.ofNat k.val < 0x80 := by decide +kernel
  have hb := hall ⟨b.toNat, b.toNat_lt⟩
  rw [UInt8.ofNat_toNat] at hb
  exact hb h

theorem encodeByte_bytes (b : UInt8) :
    (encodeByte b).flatMap String.utf8EncodeChar = bytesOf b := by
  unfold encodeByte bytesOf
  split_ifs with hplain
  · rw [List.flatMap_singleton]
    exact encode_ofNat_ascii (unreserved_ascii hplain)
  · rw [List.flatMap_cons, List.flatMap_cons, List.flatMap_cons, List.flatMap_nil,
      encode_ascii (hexDigit_ascii _), encode_ascii (hexDigit_ascii _)]
    rfl

theorem charOf_hexDigit (n : ℕ) : charOf (UInt8.ofNat (hexDigit n).toNat) = hexDigit n := by
  have hlt := hexDigit_ascii n
  rw [charOf, UInt8.toNat_ofNat_of_lt' (lt_trans hlt (by decide)), Char.ofNat_toNat]

theorem decode_cons (hb : b ≠ 0x25) : decode (b :: rest) = b :: decode rest := by
  rw [decode]
  intro hi lo tail h
  exact absurd h hb

theorem decode_bytesOf (b : UInt8) (rest : List UInt8) :
    decode (bytesOf b ++ rest) = b :: decode rest := by
  have hb := b.toNat_lt
  unfold bytesOf
  split_ifs with hplain
  · refine decode_cons fun h => ?_
    rw [h] at hplain
    exact absurd hplain (by decide)
  · rw [List.cons_append, List.cons_append, List.cons_append, List.nil_append, decode]
    simp only [charOf_hexDigit, hexValue_hexDigit (show b.toNat / 16 < 16 by omega),
      hexValue_hexDigit (show b.toNat % 16 < 16 by omega)]
    congr 1
    rw [show b.toNat / 16 * 16 + b.toNat % 16 = b.toNat by omega, UInt8.ofNat_toNat]

/-! ## Texts -/

def encodeText (s : String) : String := String.ofList (encode (asBytes s))

/-- The bytes that are decoded may be no UTF-8, and are read leniently. -/
def decodeText (s : String) : String := fromUtf8Lossy (decode (asBytes s))

theorem asBytes_encodeText (s : String) :
    asBytes (encodeText s) = (asBytes s).flatMap bytesOf := by
  rw [encodeText, asBytes, String.toList_ofList, encode, List.flatMap_assoc]
  congr 1
  funext b
  exact encodeByte_bytes b

theorem decode_encoded (bytes : List UInt8) : decode (bytes.flatMap bytesOf) = bytes := by
  induction bytes with
  | nil => rfl
  | cons b bytes ih => rw [List.flatMap_cons, decode_bytesOf, ih]

theorem decodeText_encodeText (s : String) : decodeText (encodeText s) = s := by
  rw [decodeText, asBytes_encodeText, decode_encoded, fromUtf8Lossy_asBytes]

theorem encodeText_injective : encodeText.Injective :=
  Function.LeftInverse.injective decodeText_encodeText

theorem encodeText_escaped (s : String) : Escaped (encodeText s).toList := by
  rw [encodeText, String.toList_ofList]
  exact encode_escaped _

theorem encodeText_ne {s : String} (hs : s ≠ "") : encodeText s ≠ "" := fun h =>
  hs (encodeText_injective (h.trans rfl))

end MiddleWhere.Percent
