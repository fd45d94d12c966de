import MiddleWhere.Net.PgNumeric
import MiddleWhere.Sql.PgValue

/-!
# The values of parameters

The literal that a parameter becomes should stand for the value that the server reads of the
payload itself. It does for the payloads that clients commonly send; the spellings of truth,
numbers outside their type, oids from 2^31 on, payloads of a wrong length and bytes that are
not text come out as other values.
-/

namespace MiddleWhere.Net

open Sql.Pg (DataType denotes input receive readInteger SpellsNumber)

def typeOid : DataType → ℤ
  | .bool => oidBool
  | .int2 => oidInt2
  | .int4 => oidInt4
  | .int8 => oidInt8
  | .oid => oidOid
  | .text => 25
  | .varchar => 1043

inductive Format
  | text
  | binary

def Format.code : Format → ℤ
  | .text => 0
  | .binary => 1

/-- The value that the client sends, if the server takes the payload. -/
def sentValue (type : DataType) : Format → Option Bytes → Option Sql.Pg.Value
  | _, none => some .null
  | .text, some b => input type b
  | .binary, some b => receive type b

/-- A literal with the given value; where there is no value, an error will do as well. -/
def Stands (type : DataType) (value : Option Sql.Pg.Value) : Outcome String String → Prop
  | .ok literal => denotes type (Str.asBytes literal) = value
  | .err _ => value = none
  | .panic => False

def Faithful (deps : SessionDeps) (type : DataType) (format : Format)
    (payload : Option Bytes) : Prop :=
  Stands type (sentValue type format payload) (renderScalar deps (typeOid type) format.code payload)

/-! ## Values of literals -/

variable {type : DataType} {value : Option Sql.Pg.Value} {b : Bytes}

theorem digitsValue_text (n : ℕ) : Sql.Pg.digitsValue (Str.asBytes (toString n)) = n := by
  have hdigit : ∀ c ∈ Nat.toDigits 10 n, c.isDigit := fun c hc =>
    Nat.isDigit_of_mem_toDigits (by decide) (by decide) hc
  have hfold : ∀ (cs : List Char) (m : ℕ), (∀ c ∈ cs, c.isDigit) →
      (cs.flatMap String.utf8EncodeChar).foldl (fun n d => 10 * n + (d.toNat - 48)) m =
        Nat.ofDigitChars 10 cs m := by
    intro cs
    induction cs with
    | nil => exact fun m _ => Nat.ofDigitChars_nil.symm
    | cons c cs ih =>
      intro m hcs
      have hascii : c.toNat < 128 := by
        have hc := hcs c List.mem_cons_self
        rw [Char.isDigit, Bool.and_eq_true, decide_eq_true_eq, decide_eq_true_eq] at hc
        exact lt_of_le_of_lt (UInt32.le_iff_toNat_le.mp hc.2) (by decide)
      rw [List.flatMap_cons, Str.encode_ascii hascii, List.singleton_append, List.foldl_cons,
        Str.toNat_byte (by omega), ih _ fun d hd => hcs d (List.mem_cons_of_mem c hd),
        Nat.ofDigitChars_cons]
      rfl
  rw [Sql.Pg.digitsValue, Str.asBytes, Nat.toString_eq_ofList_toDigits, String.toList_ofList,
    hfold _ 0 hdigit, Nat.ofDigitChars_ten_toDigits]

/-- The text of an integer spells it. -/
theorem intText_spells (z : ℤ) : ∃ sign ds, SpellsNumber sign ds (Str.asBytes (toString z)) ∧
    (∀ b ∈ ds, Sql.Pg.isDigit b) ∧ z = Sql.Pg.signedValue sign ds := by
  have hspells : ∀ (sign : Bytes) (n : ℕ) (text : String), sign ∈ Sql.Pg.signs →
      Str.asBytes text = sign ++ Str.asBytes (toString n) →
      SpellsNumber sign (Str.asBytes (toString n)) (Str.asBytes text) := by
    intro sign n text hsign htext
    refine ⟨hsign, (natText_decimal n).number, [], [], ?_, by simp, by simp⟩
    simpa using htext
  cases z with
  | ofNat n =>
    refine ⟨[], _, hspells [] n _ (by decide) rfl, (natText_digits n).2, ?_⟩
    rw [Sql.Pg.signedValue, if_neg (by decide), digitsValue_text]
    rfl
  | negSucc n =>
    have htext : toString (Int.negSucc n) = "-" ++ toString (n + 1) := rfl
    have hbytes : Str.asBytes (toString (Int.negSucc n)) =
        [0x2D] ++ Str.asBytes (toString (n + 1)) := by
      rw [htext, Str.asBytes_append]
      rfl
    refine ⟨[0x2D], _, hspells [0x2D] (n + 1) _ (by decide) hbytes, (natText_digits (n + 1)).2, ?_⟩
    rw [Sql.Pg.signedValue, if_pos rfl, digitsValue_text]
    rfl

theorem stands_integer {z : ℤ} (hz : z.natAbs < 10 ^ 131072) :
    Stands type value (.ok (toString z)) ↔ some (.number z) = value := by
  obtain ⟨sign, ds, hspells, hds, hvalue⟩ := intText_spells z
  have hsmall : Sql.Pg.digitsValue ds < 10 ^ 131072 := by
    rwa [hvalue, Sql.Pg.natAbs_signedValue] at hz
  rw [Stands, hspells.denotes_integer hds hsmall, ← hvalue]

theorem stands_quoteLit {s : String} :
    Stands type value (.ok (quoteLit s)) ↔ input type (Str.asBytes s) = value := by
  rw [Stands, asBytes_quoteLit, Sql.Pg.denotes_quoted]

theorem stands_bool {truth : Bool} :
    Stands type value (.ok (if truth then "TRUE" else "FALSE")) ↔ some (.bool truth) = value := by
  have hword : denotes type (Str.asBytes (if truth then "TRUE" else "FALSE")) =
      some (.bool truth) := by
    cases truth <;> rfl
  rw [Stands, hword]

/-! ## Payloads of numeric types -/

/-- A number that the check lets through and the server takes for a number. -/
structure ServerNumber (text : String) : Prop where
  plain : PlainNumber text
  fits : (Sql.Pg.numeral (digitsOf text)).Fits

/-- The bytes of white space. -/
theorem whitespace_bytes {c : Char} (h : Str.isWhitespace c) :
    ∀ b ∈ String.utf8EncodeChar c, Sql.Pg.isBlank b ∨ ¬ b < 0x80 := by
  by_cases hascii : c.toNat < 0x80
  · rw [Str.encode_ascii hascii]
    simp only [Str.isWhitespace, Bool.or_eq_true, Bool.and_eq_true, decide_eq_true_eq,
      beq_iff_eq] at h
    intro b hb
    obtain rfl := List.mem_singleton.mp hb
    simp only [Sql.Pg.isBlank, Bool.or_eq_true, Bool.and_eq_true, beq_iff_eq, decide_eq_true_eq,
      UInt8.le_iff_toNat_le, Sql.Pg.eq_byte_iff, Str.toNat_byte (show c.toNat < 256 by omega),
      UInt8.reduceToNat]
    omega
  · exact fun b hb => .inr (Str.encode_high hascii b hb)

set_option maxRecDepth 4000 in
/-- What the check lets through has no byte of which the other constants have one. -/
theorem isSafeNumeric_plain {text : String} (h : isSafeNumeric text = true) :
    ∀ b ∈ Str.asBytes text, b ∉ 0 :: Sql.Pg.markBytes := by
  have hplain : ∀ b ∈ 0 :: Sql.Pg.markBytes,
      ¬ Sql.Pg.isNumeral b ∧ ¬ Sql.Pg.isBlank b ∧ b < 0x80 := by
    decide
  have hword : ∀ w ∈ ["NaN", "Infinity", "-Infinity", "+Infinity"], ∀ b ∈ Str.asBytes w,
      b ∉ 0 :: Sql.Pg.markBytes := by
    decide
  refine isSafeNumeric_bytes (fun b hb hmem => (hplain b hmem).1 hb) hword h ?_
  intro c hc b hb hmem
  have hbyte := hplain b hmem
  exact (whitespace_bytes hc b hb).elim hbyte.2.1 fun hhigh => hhigh hbyte.2.2

/-- The server takes what the check lets through for a number, or rejects it. -/
theorem denotes_safe_iff {text : String} (hsafe : isSafeNumeric text = true) :
    (∃ v, denotes type (Str.asBytes text) = some v) ↔ ServerNumber text := by
  constructor
  · rintro ⟨v, hvalue⟩
    rcases Sql.Pg.denotes_mark hvalue with hall | ⟨b, hb, hmark⟩
    · have hplain : PlainNumber text := .of_numerals hall
      obtain ⟨sign, hspells⟩ := hplain.spells hsafe
      refine ⟨hplain, ?_⟩
      by_contra hfits
      rw [hspells.denotes, Sql.Pg.numberOf, if_neg hfits] at hvalue
      simp at hvalue
    · exact absurd (List.mem_cons_of_mem 0 hmark) (isSafeNumeric_plain hsafe b hb)
  · intro hnumber
    obtain ⟨sign, hspells⟩ := hnumber.plain.spells hsafe
    rw [hspells.denotes, Sql.Pg.numberOf, if_pos hnumber.fits]
    exact ⟨_, rfl⟩

/-- A number for the server is read as it was sent. -/
theorem ServerNumber.ascii (hsafe : isSafeNumeric (Str.fromUtf8Lossy b) = true)
    (h : ServerNumber (Str.fromUtf8Lossy b)) :
    Str.Valid b ∧ Str.asBytes (Str.fromUtf8Lossy b) = b ∧ 0x0B ∉ b := by
  obtain ⟨sign, hspells⟩ := h.plain.spells hsafe
  have hbytes : ∀ a, Sql.Pg.isSpace a ∨ Sql.Pg.isNumeral a → a < 0x80 ∧ a ≠ 0x0B := by
    intro a ha
    simp only [Sql.Pg.isNumeral, Bool.or_eq_true, beq_iff_eq, Sql.Pg.isSpace_iff,
      Sql.Pg.isDigit_iff, Sql.Pg.isSign_iff, ne_eq, Sql.Pg.eq_byte_iff, UInt8.lt_iff_toNat_lt,
      UInt8.reduceToNat] at ha ⊢
    omega
  have hvalid : Str.Valid b := Str.valid_of_ascii fun a ha => (hbytes a (hspells.numerals a ha)).1
  have hsame := Str.asBytes_lossy_iff.mpr hvalid
  refine ⟨hvalid, hsame, fun htab => ?_⟩
  exact (hbytes 0x0B (hspells.numerals 0x0B (hsame.symm ▸ htab))).2 rfl

/-- The payload is an integer that its type holds, in blanks that the scanner skips. -/
def HeldInteger (type : DataType) (b : Bytes) : Prop :=
  ∃ n, readInteger b = some n ∧ type.Holds n ∧ 0x0B ∉ b

/-- A text payload that is spliced in as it came: an integer that the type holds, or what is
neither a value of the type nor a number. -/
def SplicedMeant (type : DataType) (b : Bytes) : Prop :=
  HeldInteger type b ∨ (input type b = none ∧ ¬ ServerNumber (Str.fromUtf8Lossy b))

theorem HeldInteger.denotes (h : HeldInteger type b) :
    ∃ n : ℤ, readInteger b = some n ∧ type.ofInteger n = some n ∧ Str.Valid b ∧
      denotes type b = some (.number n) := by
  obtain ⟨n, hread, hholds, htab⟩ := h
  have hint := Sql.Pg.ofInteger_eq_some_iff.mpr hholds
  exact ⟨n, hread, hint, Str.valid_ascii (Sql.Pg.readInteger_ascii hread),
    Sql.Pg.denotes_readInteger hread htab (Sql.Pg.ofInteger_small hint)⟩

theorem stands_spliced_iff (htype : type.width.isSome)
    (hsafe : isSafeNumeric (Str.fromUtf8Lossy b) = true) :
    Stands type (input type b) (.ok (Str.fromUtf8Lossy b)) ↔ SplicedMeant type b := by
  rw [Stands]
  by_cases hnumber : ServerNumber (Str.fromUtf8Lossy b)
  · obtain ⟨hvalid, hsame, htab⟩ := hnumber.ascii hsafe
    have hnul : 0 ∉ b := fun h0 =>
      isSafeNumeric_plain hsafe 0 (hsame.symm ▸ h0) List.mem_cons_self
    rw [hsame, Sql.Pg.input_integer htype ⟨hvalid, hnul⟩]
    constructor
    · intro heq
      have hvalue : ∃ v, denotes type (Str.asBytes (Str.fromUtf8Lossy b)) = some v :=
        (denotes_safe_iff hsafe).mpr hnumber
      obtain ⟨v, hv⟩ := hsame ▸ hvalue
      obtain ⟨m, hm, -⟩ := Option.map_eq_some_iff.mp (heq.symm.trans hv)
      obtain ⟨n, hread, hint⟩ := Option.bind_eq_some_iff.mp hm
      rw [Sql.Pg.denotes_readInteger hread htab (Sql.Pg.ofInteger_small hint), hm,
        Option.map_some] at heq
      obtain rfl : n = m := by simpa using heq
      exact .inl ⟨n, hread, Sql.Pg.ofInteger_eq_some_iff.mp hint, htab⟩
    · rintro (hheld | ⟨-, hnone⟩)
      · obtain ⟨n, hread, hint, -, hdenotes⟩ := hheld.denotes
        rw [hdenotes, hread, Option.bind_some, hint, Option.map_some]
      · exact absurd hnumber hnone
  · have hnone : denotes type (Str.asBytes (Str.fromUtf8Lossy b)) = none := by
      by_contra hsome
      exact hnumber ((denotes_safe_iff hsafe).mp (Option.ne_none_iff_exists'.mp hsome))
    rw [hnone]
    constructor
    · exact fun h => .inr ⟨h.symm, hnumber⟩
    · rintro (hheld | ⟨h, -⟩)
      · obtain ⟨n, -, -, hvalid, hdenotes⟩ := hheld.denotes
        rw [Str.asBytes_lossy_iff.mpr hvalid, hdenotes] at hnone
        exact absurd hnone (by simp)
      · exact h.symm

/-! ## Text payloads -/

def trueSpellings : List String := ["t", "true", "TRUE", "1", "y", "yes"]

/-- The text payloads whose literal has their value. -/
def TextMeant (type : DataType) (b : Bytes) : Prop :=
  match type with
  | .bool => b ∈ trueSpellings.map Str.asBytes ∨ input .bool b = some (.bool false)
  | .text | .varchar => 0 ∈ b ∨ Str.Valid b
  | type => isSafeNumeric (Str.fromUtf8Lossy b) = true → SplicedMeant type b

set_option maxRecDepth 4000 in
theorem lossy_mem_spellings :
    Str.fromUtf8Lossy b ∈ trueSpellings ↔ b ∈ trueSpellings.map Str.asBytes := by
  have hascii : ∀ w ∈ trueSpellings, ∀ a ∈ Str.asBytes w, a < 0x80 := by decide
  constructor
  · intro h
    have hvalid : Str.Valid b := Str.valid_of_ascii (hascii _ h)
    exact List.mem_map.mpr ⟨_, h, Str.asBytes_lossy_iff.mpr hvalid⟩
  · intro h
    obtain ⟨w, hw, rfl⟩ := List.mem_map.mp h
    rwa [Str.fromUtf8Lossy_asBytes]

set_option maxRecDepth 4000 in
theorem input_true : ∀ b ∈ trueSpellings.map Str.asBytes, input .bool b = some (.bool true) := by
  decide

/-- Bytes that are not text are read as no integer, before and after the lenient reading. -/
theorem input_lossy (htype : type.width.isSome) :
    input type (Str.asBytes (Str.fromUtf8Lossy b)) = input type b := by
  by_cases hvalid : Str.Valid b
  · rw [Str.asBytes_lossy_iff.mpr hvalid]
  · have hnot : ¬ Sql.Pg.IsText b := fun h => hvalid h.1
    have hread : readInteger (Str.asBytes (Str.fromUtf8Lossy b)) = none := by
      by_contra hsome
      obtain ⟨n, hn⟩ := Option.ne_none_iff_exists'.mp hsome
      exact hvalid (Str.valid_of_ascii (Sql.Pg.readInteger_ascii hn))
    rw [Sql.Pg.input_of_not_text hnot]
    by_cases htext : Sql.Pg.IsText (Str.asBytes (Str.fromUtf8Lossy b))
    · rw [Sql.Pg.input_integer htype htext, hread]
      rfl
    · exact Sql.Pg.input_of_not_text htext

/-- Text is taken as it is unless it has a NUL or is no text. -/
theorem input_text (htype : type = .text ∨ type = .varchar) :
    input type b = if Sql.Pg.IsText b then some (.text b) else none := by
  rcases htype with rfl | rfl <;> rfl

theorem input_lossy_text_iff (htype : type = .text ∨ type = .varchar) :
    input type (Str.asBytes (Str.fromUtf8Lossy b)) = input type b ↔ 0 ∈ b ∨ Str.Valid b := by
  have hnul : 0 ∈ Str.asBytes (Str.fromUtf8Lossy b) ↔ 0 ∈ b := Str.ascii_mem_lossy (by decide)
  have hvalid : Str.Valid (Str.asBytes (Str.fromUtf8Lossy b)) := ⟨_, rfl⟩
  rw [input_text htype, input_text htype]
  by_cases h0 : 0 ∈ b
  · have hnot : ¬ Sql.Pg.IsText b := fun h => h.2 h0
    have hnot' : ¬ Sql.Pg.IsText (Str.asBytes (Str.fromUtf8Lossy b)) := fun h =>
      h.2 (hnul.mpr h0)
    rw [if_neg hnot, if_neg hnot']
    exact iff_of_true rfl (.inl h0)
  · have htext : Sql.Pg.IsText (Str.asBytes (Str.fromUtf8Lossy b)) := ⟨hvalid, mt hnul.mp h0⟩
    rw [if_pos htext]
    by_cases hb : Str.Valid b
    · rw [if_pos ⟨hb, h0⟩, Str.asBytes_lossy_iff.mpr hb]
      exact iff_of_true rfl (.inr hb)
    · have hnot : ¬ Sql.Pg.IsText b := fun h => hb h.1
      rw [if_neg hnot]
      exact iff_of_false (by simp) (by simp [h0, hb])

theorem renderText_integer (htype : type.width.isSome) :
    renderText (typeOid type) b = if isSafeNumeric (Str.fromUtf8Lossy b) = true then
      Str.fromUtf8Lossy b else quoteLit (Str.fromUtf8Lossy b) := by
  have hbool : typeOid type ≠ oidBool := by
    cases type <;> first | decide | simp [DataType.width] at htype
  have hoid : isNumericOid (typeOid type) = true := by
    cases type <;> first | decide | simp [DataType.width] at htype
  simp only [renderText, if_neg hbool, hoid, Bool.true_and]

theorem stands_integer_text_iff (htype : type.width.isSome) :
    Stands type (input type b) (.ok (renderText (typeOid type) b)) ↔
      (isSafeNumeric (Str.fromUtf8Lossy b) = true → SplicedMeant type b) := by
  rw [renderText_integer htype]
  by_cases hsafe : isSafeNumeric (Str.fromUtf8Lossy b) = true
  · rw [if_pos hsafe, stands_spliced_iff htype hsafe]
    exact ⟨fun h _ => h, fun h => h hsafe⟩
  · rw [if_neg hsafe, stands_quoteLit, input_lossy htype]
    exact iff_of_true rfl fun h => absurd h hsafe

theorem stands_text_iff (htype : type = .text ∨ type = .varchar) :
    Stands type (input type b) (.ok (renderText (typeOid type) b)) ↔ 0 ∈ b ∨ Str.Valid b := by
  have hbool : typeOid type ≠ oidBool := by
    rcases htype with rfl | rfl <;> decide
  have hoid : isNumericOid (typeOid type) = false := by
    rcases htype with rfl | rfl <;> decide
  have hrender : renderText (typeOid type) b = quoteLit (Str.fromUtf8Lossy b) := by
    simp [renderText, hbool, hoid]
  rw [hrender, stands_quoteLit, input_lossy_text_iff htype]

theorem stands_bool_text_iff :
    Stands .bool (input .bool b) (.ok (renderText (typeOid .bool) b)) ↔
      b ∈ trueSpellings.map Str.asBytes ∨ input .bool b = some (.bool false) := by
  have hrender : renderText (typeOid .bool) b =
      if decide (Str.fromUtf8Lossy b ∈ trueSpellings) then "TRUE" else "FALSE" := by
    simp [renderText, typeOid, trueSpellings]
  rw [hrender, stands_bool]
  by_cases hspelled : b ∈ trueSpellings.map Str.asBytes
  · rw [decide_eq_true (lossy_mem_spellings.mpr hspelled), input_true b hspelled]
    exact iff_of_true rfl (.inl hspelled)
  · rw [decide_eq_false (mt lossy_mem_spellings.mp hspelled)]
    exact ⟨fun h => .inr h.symm, fun h => (h.resolve_left hspelled).symm⟩

theorem stands_renderText_iff :
    Stands type (input type b) (.ok (renderText (typeOid type) b)) ↔ TextMeant type b := by
  cases type with
  | bool => exact stands_bool_text_iff
  | text => exact stands_text_iff (.inl rfl)
  | varchar => exact stands_text_iff (.inr rfl)
  | int2 => exact stands_integer_text_iff rfl
  | int4 => exact stands_integer_text_iff rfl
  | int8 => exact stands_integer_text_iff rfl
  | oid => exact stands_integer_text_iff rfl

/-! ## Binary payloads -/

/-- A payload that is not of its type's length is rendered as if its type were not known. -/
def UnknownMeant (type : DataType) (b : Bytes) : Prop :=
  if 0 ∈ b then b.length ∉ [2, 4, 8] else input type b = none

/-- The binary payloads whose literal has their value. -/
def BinaryMeant (type : DataType) (b : Bytes) : Prop :=
  match type with
  | .bool => b.length = 1
  | .text | .varchar => if 0 ∈ b then b.length ∉ [2, 4, 8] else Str.Valid b
  | .oid => if b.length = 4 then Sql.Pg.wordOf b < 2 ^ 31 else UnknownMeant .oid b
  | type => type.width = some b.length ∨ UnknownMeant type b

theorem wordOf_lt (b : Bytes) : Sql.Pg.wordOf b < 2 ^ (8 * b.length) := by
  have hfold : ∀ (b : Bytes) (n k : ℕ), n < 2 ^ (8 * k) →
      b.foldl (fun n b => n * 256 + b.toNat) n < 2 ^ (8 * (k + b.length)) := by
    intro b
    induction b with
    | nil => exact fun n k hn => hn
    | cons a b ih =>
      intro n k hn
      have hbyte : a.toNat < 256 := a.toNat_lt
      have hstep : n * 256 + a.toNat < 2 ^ (8 * (k + 1)) := by
        have hpow : 2 ^ (8 * (k + 1)) = 2 ^ (8 * k) * 256 := by ring
        omega
      have hlen : k + (a :: b).length = k + 1 + b.length := by
        simp only [List.length_cons]
        omega
      rw [List.foldl_cons, hlen]
      exact ih _ _ hstep
  have hall := hfold b 0 0 (by decide)
  rwa [Nat.zero_add] at hall

theorem signed_fromBe (hb : b ≠ []) : signed b.length (fromBe b) = Sql.Pg.signedOf b := by
  have hword : fromBe b = Sql.Pg.wordOf b := rfl
  have hlt := wordOf_lt b
  obtain ⟨n, hn⟩ : ∃ n, b.length = n + 1 := Nat.exists_eq_succ_of_ne_zero (by simpa using hb)
  have hhalf : 2 ^ (8 * b.length) = 2 * 2 ^ (8 * b.length - 1) := by
    rw [hn, ← pow_succ']
    congr 1
  rw [signed, Sql.Pg.signedOf, hword, Nat.mod_eq_of_lt hlt]
  by_cases hsign : Sql.Pg.wordOf b < 2 ^ (8 * b.length - 1)
  · rw [if_pos hsign, if_pos (by omega)]
  · rw [if_neg hsign, if_neg (by omega)]

theorem intText_eq {width : ℕ} (hlen : b.length = width) (hb : b ≠ []) :
    intText width b = .ok (toString (Sql.Pg.signedOf b)) := by
  subst hlen
  have hslice : (Outcome.slice b 0 b.length : Outcome String Bytes) = .ok b := by
    rw [Outcome.slice_of_le (Nat.zero_le _) le_rfl]
    simp
  rw [intText, hslice, ← signed_fromBe hb]
  rfl

theorem signedOf_small (hlen : b.length ≤ 8) : (Sql.Pg.signedOf b).natAbs < 10 ^ 131072 := by
  have hlt := wordOf_lt b
  have hpow : 2 ^ (8 * b.length) ≤ 2 ^ 64 := Nat.pow_le_pow_right (by decide) (by omega)
  have hword : (Sql.Pg.signedOf b).natAbs < 10 ^ 20 := by
    unfold Sql.Pg.signedOf
    generalize hbound : (2 : ℕ) ^ (8 * b.length) = bound at hlt hpow
    have hcast : (2 : ℤ) ^ (8 * b.length) = bound := by
      rw [← hbound]
      push_cast
      rfl
    rw [hcast]
    split_ifs <;> omega
  have hmany : 10 ^ 20 ≤ 10 ^ 131072 := pow_le_pow_right₀ (by decide) (by omega)
  exact lt_of_lt_of_le hword hmany

/-- A payload that is rendered as an integer. -/
theorem stands_intText (hne : b ≠ []) (hlen : b.length ≤ 8) :
    Stands type value (intText b.length b) ↔ some (.number (Sql.Pg.signedOf b)) = value := by
  rw [intText_eq rfl hne, stands_integer (signedOf_small hlen)]

/-- A payload with a NUL is an integer, whatever its type, if it is as long as one. -/
theorem stands_unknown_nul (h0 : 0 ∈ b) :
    Stands type none (renderUnknown b) ↔ b.length ∉ [2, 4, 8] := by
  have hne : b ≠ [] := List.ne_nil_of_mem h0
  have hnul : b.contains 0 = true := by simpa using h0
  by_cases hlen : b.length ∈ [2, 4, 8]
  · have hrender : renderUnknown b = intText b.length b := by
      rw [renderUnknown, if_pos hnul]
      simp only [List.mem_cons, List.not_mem_nil, or_false] at hlen
      rcases hlen with hlen | hlen | hlen <;> simp only [hlen]
    have hle : b.length ≤ 8 := by
      simp only [List.mem_cons, List.not_mem_nil, or_false] at hlen
      omega
    rw [hrender, stands_intText hne hle]
    exact iff_of_false (by simp) fun h => h hlen
  · have hrender : renderUnknown b = .err "unsupported binary parameter (NUL)" := by
      rw [renderUnknown, if_pos hnul]
      simp only [List.mem_cons, List.not_mem_nil, or_false, not_or] at hlen
      split <;> simp_all
    rw [hrender]
    exact iff_of_true rfl hlen

theorem stands_unknown_text (h0 : 0 ∉ b) : Stands type value (renderUnknown b) ↔
    input type (Str.asBytes (Str.fromUtf8Lossy b)) = value := by
  have hnul : ¬ b.contains 0 = true := by simpa using h0
  rw [renderUnknown, if_neg hnul, stands_quoteLit]

theorem stands_unknown_iff (htype : type.width.isSome) :
    Stands type none (renderUnknown b) ↔ UnknownMeant type b := by
  by_cases h0 : 0 ∈ b
  · rw [UnknownMeant, if_pos h0, stands_unknown_nul h0]
  · rw [UnknownMeant, if_neg h0, stands_unknown_text h0, input_lossy htype]

theorem renderBinary_integer (deps : SessionDeps) {width : ℕ} (htype : type.width = some width) :
    renderBinary deps (typeOid type) b =
      if b.length = width then intText width b else renderUnknown b := by
  cases type <;> simp only [DataType.width, Option.some.injEq, reduceCtorEq] at htype <;>
    subst htype <;>
    simp [renderBinary, typeOid, oidBool, oidInt2, oidInt4, oidInt8, oidOid, oidFloat4,
      oidFloat8, oidFamily]

theorem stands_bool_binary_iff (deps : SessionDeps) :
    Stands .bool (receive .bool b) (renderBinary deps (typeOid .bool) b) ↔ b.length = 1 := by
  have hrender : renderBinary deps (typeOid .bool) b =
      .ok (if decide (b.head?.getD 0 ≠ 0) then "TRUE" else "FALSE") := by
    simp [renderBinary, typeOid]
  rw [hrender, stands_bool]
  match b with
  | [] => exact iff_of_false (by simp [receive]) (by simp)
  | [a] =>
    have hbit : decide (a ≠ 0) = (a != 0) := by by_cases ha : a = 0 <;> simp [ha]
    exact iff_of_true (congrArg (some ∘ Sql.Pg.Value.bool) hbit) rfl
  | a :: c :: b => exact iff_of_false (by simp [receive]) (by simp)

theorem width_pos {width : ℕ} (htype : type.width = some width) : 0 < width ∧ width ≤ 8 := by
  cases type <;> simp only [DataType.width, Option.some.injEq, reduceCtorEq] at htype <;>
    omega

section
variable {width : ℕ} (deps : SessionDeps) (htype : type.width = some width)

include htype in
theorem stands_integer_binary (hlen : b.length = width) :
    Stands type value (renderBinary deps (typeOid type) b) ↔
      some (.number (Sql.Pg.signedOf b)) = value := by
  obtain ⟨hpos, hle⟩ := width_pos htype
  subst hlen
  rw [renderBinary_integer deps htype, if_pos rfl,
    stands_intText (List.length_pos_iff.mp hpos) hle]

include htype in
theorem stands_other_length (hlen : b.length ≠ width) :
    Stands type none (renderBinary deps (typeOid type) b) ↔ UnknownMeant type b := by
  rw [renderBinary_integer deps htype, if_neg hlen,
    stands_unknown_iff (Option.isSome_of_eq_some htype)]

include htype in
theorem stands_signed_binary_iff (hoid : type ≠ .oid) :
    Stands type (receive type b) (renderBinary deps (typeOid type) b) ↔
      type.width = some b.length ∨ UnknownMeant type b := by
  have hreceive : receive type b = if type.width = some b.length then
      some (.number (Sql.Pg.signedOf b)) else none := by
    cases type <;> first | rfl | exact absurd rfl hoid | simp [DataType.width] at htype
  rw [hreceive]
  by_cases hlen : b.length = width
  · have hwidth : type.width = some b.length := hlen ▸ htype
    rw [if_pos hwidth, stands_integer_binary deps htype hlen]
    exact iff_of_true rfl (.inl hwidth)
  · have hwidth : type.width ≠ some b.length := by
      rw [htype]
      exact fun h => hlen (Option.some.inj h).symm
    rw [if_neg hwidth, stands_other_length deps htype hlen]
    exact ⟨.inr, fun h => h.resolve_left hwidth⟩

end

/-- An oid is rendered with a sign, which it does not have. -/
theorem stands_oid_binary_iff (deps : SessionDeps) :
    Stands .oid (receive .oid b) (renderBinary deps (typeOid .oid) b) ↔
      if b.length = 4 then Sql.Pg.wordOf b < 2 ^ 31 else UnknownMeant .oid b := by
  have hwidth : DataType.oid.width = some 4 := rfl
  by_cases hlen : b.length = 4
  · rw [receive, if_pos hlen, if_pos hlen, stands_integer_binary deps hwidth hlen]
    have hlt := wordOf_lt b
    rw [hlen] at hlt
    simp only [Sql.Pg.signedOf, hlen, Option.some.injEq, Sql.Pg.Value.number.injEq]
    split_ifs with hsign
    · exact iff_of_true rfl (by omega)
    · refine iff_of_false ?_ (by omega)
      intro heq
      have hint : (Sql.Pg.wordOf b : ℤ) - 2 ^ (8 * 4) = Sql.Pg.wordOf b := by exact_mod_cast heq
      omega
  · rw [receive, if_neg hlen, if_neg hlen, stands_other_length deps hwidth hlen]

theorem stands_text_binary_iff (deps : SessionDeps) (htype : type = .text ∨ type = .varchar) :
    Stands type (receive type b) (renderBinary deps (typeOid type) b) ↔
      if 0 ∈ b then b.length ∉ [2, 4, 8] else Str.Valid b := by
  have hrender : renderBinary deps (typeOid type) b = renderUnknown b := by
    rcases htype with rfl | rfl <;> simp [renderBinary, typeOid, oidBool, oidInt2, oidInt4,
      oidInt8, oidOid, oidFloat4, oidFloat8, oidFamily]
  have hreceive : receive type b = input type b := by
    rcases htype with rfl | rfl <;> rfl
  rw [hrender, hreceive]
  by_cases h0 : 0 ∈ b
  · have hnone : input type b = none := Sql.Pg.input_of_not_text fun h => h.2 h0
    rw [hnone, if_pos h0, stands_unknown_nul h0]
  · rw [if_neg h0, stands_unknown_text h0, input_lossy_text_iff htype]
    exact or_iff_right h0

theorem stands_renderBinary_iff (deps : SessionDeps) :
    Stands type (receive type b) (renderBinary deps (typeOid type) b) ↔ BinaryMeant type b := by
  cases type with
  | bool => exact stands_bool_binary_iff deps
  | text => exact stands_text_binary_iff deps (.inl rfl)
  | varchar => exact stands_text_binary_iff deps (.inr rfl)
  | oid => exact stands_oid_binary_iff deps
  | int2 => exact stands_signed_binary_iff deps rfl (by decide)
  | int4 => exact stands_signed_binary_iff deps rfl (by decide)
  | int8 => exact stands_signed_binary_iff deps rfl (by decide)

/-! ## Every payload -/

/-- The payloads whose literal has their value. -/
def Meant (type : DataType) : Format → Option Bytes → Prop
  | _, none => True
  | .text, some b => TextMeant type b
  | .binary, some b => BinaryMeant type b

/-- A parameter keeps its value exactly if it is one of these. A truth value is spelled in one
of six ways, or is false; a number is one that its type holds, or is no number to the server
either; a binary payload has its type's length, and an oid is below 2^31; text is text. -/
theorem renderScalar_faithful_iff (deps : SessionDeps) (type : DataType) (format : Format)
    (payload : Option Bytes) : Faithful deps type format payload ↔ Meant type format payload := by
  cases payload with
  | none =>
    have hnull : denotes type (Str.asBytes "NULL") = some .null := rfl
    refine iff_of_true ?_ trivial
    cases format <;> exact hnull
  | some b =>
    cases format with
    | text => exact stands_renderText_iff
    | binary => exact stands_renderBinary_iff deps

set_option maxRecDepth 4000 in
/-- The text `True`, which the server reads as true, becomes FALSE. -/
theorem not_faithful_true : ¬ Faithful literalDeps .bool .text (some [0x54, 0x72, 0x75, 0x65]) := by
  intro hfaithful
  have hmeant := (stands_bool_text_iff (b := [0x54, 0x72, 0x75, 0x65])).mp hfaithful
  revert hmeant
  decide

end MiddleWhere.Net
