import Mathlib.Algebra.Order.Field.Rat
import Mathlib.Tactic.Ring
import MiddleWhere.Data.Utf8
import MiddleWhere.Sql.PgReads

/-!
# Values of PostgreSQL

What the server, release 15 with a UTF-8 database, makes of a parameter: the input function of
its type reads a text, the receive function a binary payload. A constant in the text of a
statement has a value as well; a quoted one is read by the input function of the type that it
is used at.
-/

namespace MiddleWhere.Sql.Pg

inductive DataType
  | bool
  | int2
  | int4
  | int8
  | oid
  | text
  | varchar
  deriving DecidableEq

inductive Value
  | null
  | bool (b : Bool)
  | number (q : ℚ)
  | text (bytes : Bytes)
  deriving DecidableEq

/-- A string that the server takes. -/
def IsText (bs : Bytes) : Prop := Str.Valid bs ∧ 0 ∉ bs

instance (bs : Bytes) : Decidable (IsText bs) := inferInstanceAs (Decidable (_ ∧ _))

/-! ## Input functions -/

/-- `isspace` -/
def isBlank (b : UInt8) : Bool := b == 0x20 || (0x09 ≤ b && b ≤ 0x0D)

def trimBlanks (bs : Bytes) : Bytes :=
  ((bs.dropWhile isBlank).reverse.dropWhile isBlank).reverse

def lower (b : UInt8) : UInt8 := if 0x41 ≤ b ∧ b ≤ 0x5A then b + 0x20 else b

def trueWords : List String := ["t", "tr", "tru", "true", "y", "ye", "yes", "on", "1"]

def falseWords : List String := ["f", "fa", "fal", "fals", "false", "n", "no", "of", "off", "0"]

def readBool (bs : Bytes) : Option Bool :=
  let word := (trimBlanks bs).map lower
  if (trueWords.map Str.asBytes).contains word then some true
  else if (falseWords.map Str.asBytes).contains word then some false
  else none

def digitsValue (ds : Bytes) : ℕ := ds.foldl (fun n d => 10 * n + (d.toNat - 48)) 0

/-- The value of digits behind a sign, of which there may be none. -/
def signedValue (sign digits : Bytes) : ℤ :=
  if sign = [0x2D] then -(digitsValue digits : ℤ) else digitsValue digits

/-- Blanks, a sign, digits and blanks. -/
def readInteger (bs : Bytes) : Option ℤ :=
  let body := bs.dropWhile isBlank
  let tail := body.drop (signLen body)
  if tail.takeWhile isDigit ≠ [] ∧ (tail.dropWhile isDigit).all isBlank = true then
    some (signedValue (body.take (signLen body)) (tail.takeWhile isDigit))
  else none

/-- The range of an integer type. -/
def DataType.Holds : DataType → ℤ → Prop
  | .int2, n => -2 ^ 15 ≤ n ∧ n < 2 ^ 15
  | .int4, n => -2 ^ 31 ≤ n ∧ n < 2 ^ 31
  | .int8, n => -2 ^ 63 ≤ n ∧ n < 2 ^ 63
  | .oid, n => 0 ≤ n ∧ n < 2 ^ 32
  | _, _ => False

instance (type : DataType) (n : ℤ) : Decidable (type.Holds n) := by
  cases type <;> unfold DataType.Holds <;> infer_instance

/-- `strtoul` gives a word of 64 bits; an oid is its lower half, if the word is that half
extended by zeros or by its sign. -/
def oidOf (n : ℤ) : Option ℤ :=
  let word := n % 2 ^ 64
  let low := word % 2 ^ 32
  if n.natAbs < 2 ^ 64 ∧ (word = low ∨ (2 ^ 31 ≤ low ∧ word = low + (2 ^ 64 - 2 ^ 32))) then
    some low
  else none

def DataType.ofInteger : DataType → ℤ → Option ℤ
  | .oid, n => oidOf n
  | type, n => if type.Holds n then some n else none

def input (type : DataType) (bs : Bytes) : Option Value :=
  if IsText bs then
    match type with
    | .bool => (readBool bs).map .bool
    | .text | .varchar => some (.text bs)
    | type => ((readInteger bs).bind type.ofInteger).map fun n : ℤ => .number n
  else none

/-! ## Receive functions -/

/-- A word in network byte order. -/
def wordOf (bs : Bytes) : ℕ := bs.foldl (fun n b => n * 256 + b.toNat) 0

def signedOf (bs : Bytes) : ℤ :=
  if 2 * wordOf bs < 2 ^ (8 * bs.length) then wordOf bs
  else (wordOf bs : ℤ) - 2 ^ (8 * bs.length)

/-- The width of an integer type. -/
def DataType.width : DataType → Option ℕ
  | .int2 => some 2
  | .int4 | .oid => some 4
  | .int8 => some 8
  | _ => none

def receive (type : DataType) (bs : Bytes) : Option Value :=
  match type with
  | .bool => match bs with
    | [b] => some (.bool (b != 0))
    | _ => none
  | .text | .varchar => if IsText bs then some (.text bs) else none
  | .oid => if bs.length = 4 then some (.number (wordOf bs)) else none
  | type => if type.width = some bs.length then some (.number (signedOf bs)) else none

/-! ## Constants -/

/-- A number: its digits, how many of them follow the point, and its exponent. -/
structure Numeral where
  digits : ℕ
  scale : ℕ
  exponent : ℤ

def exponentOf : Bytes → ℤ
  | [] => 0
  | _ :: bs => signedValue (bs.take (signLen bs)) (bs.drop (signLen bs))

def numeral (t : Bytes) : Numeral :=
  let whole := t.takeWhile isDigit
  match t.dropWhile isDigit with
  | 0x2E :: more => ⟨digitsValue (whole ++ more.takeWhile isDigit),
      (more.takeWhile isDigit).length, exponentOf (more.dropWhile isDigit)⟩
  | rest => ⟨digitsValue whole, 0, exponentOf rest⟩

def Numeral.value (n : Numeral) : ℚ := n.digits * 10 ^ (n.exponent - n.scale)

/-- A number that is no integer of the server has at most 131072 digits before the point and
16383 behind it. -/
def Numeral.Fits (n : Numeral) : Prop :=
  n.exponent.natAbs < 2 ^ 30 - 1 ∧ n.scale - n.exponent ≤ 16383 ∧ n.value < 10 ^ 131072

instance (n : Numeral) : Decidable n.Fits := inferInstanceAs (Decidable (_ ∧ _ ∧ _))

def numberOf (t : Bytes) : Option ℚ :=
  if (numeral t).Fits then some (numeral t).value else none

/-- A quoted string, after its opening quote; it is in one part. -/
def unquote : Bytes → Option Bytes
  | [] => none
  | [b] => if b = 0x27 then some [] else none
  | b :: c :: bs =>
    if b = 0x27 then if c = 0x27 then (unquote bs).map (0x27 :: ·) else none
    else (unquote (c :: bs)).map (b :: ·)

def keyword (w : Bytes) : Option Value :=
  if w.map lower = Str.asBytes "true" then some (.bool true)
  else if w.map lower = Str.asBytes "false" then some (.bool false)
  else if w.map lower = Str.asBytes "null" then some .null
  else none

/-- A keyword, a number with at most a sign, or a quoted string. -/
def constant (type : DataType) : List Token → Option Value
  | [⟨.ident, w⟩] => keyword w
  | [⟨.number, t⟩] => (numberOf t).map .number
  | [⟨.op, [sign]⟩, ⟨.number, t⟩] =>
    if sign = 0x2D then (numberOf t).map fun q => .number (-q)
    else if sign = 0x2B then (numberOf t).map .number
    else none
  | [⟨.string, _ :: t⟩] => (unquote t).bind (input type)
  | _ => none

/-- The value of a text that is one constant, with blanks around it; no other text is a value.
A text with a NUL cannot be sent. -/
def denotes (type : DataType) (text : Bytes) : Option Value :=
  if 0 ∈ text then none
  else (lex text).bind fun ls => constant type (ls.filter (·.kind ≠ .blank))

variable {type : DataType} {sign t ds text : Bytes}

theorem input_of_not_text (h : ¬ IsText t) : input type t = none := if_neg h

/-! ## What a number is worth -/

theorem numberOf_digits (hds : ∀ b ∈ ds, isDigit b) (hsmall : digitsValue ds < 10 ^ 131072) :
    numberOf ds = some (digitsValue ds : ℚ) := by
  have hrun := takeWhile_append_stop [] hds (by simp)
  rw [List.append_nil] at hrun
  have hnumeral : numeral ds = ⟨digitsValue ds, 0, 0⟩ := by
    rw [numeral, hrun.1, hrun.2]
    rfl
  have hvalue : (numeral ds).value = digitsValue ds := by
    simp [hnumeral, Numeral.value]
  have hcast : (digitsValue ds : ℚ) < 10 ^ 131072 := by exact_mod_cast hsmall
  have hfits : (numeral ds).Fits := by
    refine ⟨?_, ?_, hvalue ▸ hcast⟩ <;> simp [hnumeral]
  rw [numberOf, if_pos hfits, hvalue]

theorem denotes_of_lex {ls : List Token} (hnul : 0 ∉ text) (h : lex text = some ls) :
    denotes type text = constant type (ls.filter (·.kind ≠ .blank)) := by
  rw [denotes, if_neg hnul, h, Option.bind_some]

theorem SpellsNumber.numerals (h : SpellsNumber sign t text) :
    ∀ b ∈ text, isSpace b ∨ isNumeral b := by
  obtain ⟨lead, trail, rfl, hlead, htrail⟩ := h.blanks
  have hdigits := numberLen_numeral h.number.whole
  rw [List.take_length] at hdigits
  have hsign : ∀ sign ∈ signs, ∀ b ∈ sign, isNumeral b := by
    simp [signs, isNumeral, isSign]
  intro b hb
  rcases List.mem_append.mp hb with hb | hb
  · exact .inl (hlead b hb)
  · rcases List.mem_append.mp hb with hb | hb
    · exact .inr ((List.mem_append.mp hb).elim (hsign sign h.sign_mem b) (hdigits b))
    · exact .inl (htrail b hb)

theorem SpellsNumber.denotes (h : SpellsNumber sign t text) :
    denotes type text =
      (numberOf t).map fun q => .number (if sign = [0x2D] then -q else q) := by
  have hnul : 0 ∉ text := fun h0 => absurd (h.numerals 0 h0) (by decide)
  obtain ⟨ls, hlex, hkept⟩ := h.lex
  rw [denotes_of_lex hnul hlex, hkept]
  have hsign := h.sign_mem
  simp only [signs, List.mem_cons, List.not_mem_nil, or_false] at hsign
  rcases hsign with rfl | rfl | rfl <;> rfl

/-- The value of an integer, if there are not too many digits. -/
theorem SpellsNumber.denotes_integer (h : SpellsNumber sign ds text)
    (hds : ∀ b ∈ ds, isDigit b) (hsmall : digitsValue ds < 10 ^ 131072) :
    Pg.denotes type text = some (.number (signedValue sign ds)) := by
  rw [h.denotes, numberOf_digits hds hsmall, Option.map_some, signedValue]
  split_ifs <;> simp

/-! ## What has a value -/

/-- The bytes of which every constant that is no number has one: a quote, or a letter of a
keyword. -/
def markBytes : Bytes := [0x27, 0x4C, 0x6C, 0x52, 0x72]

theorem mark_of_lower {w letters : Bytes} (h : w.map lower = letters)
    (hmark : 0x6C ∈ letters ∨ 0x72 ∈ letters) : ∃ b ∈ w, b ∈ markBytes := by
  have hlower : ∀ b, lower b = 0x6C ∨ lower b = 0x72 → b ∈ markBytes := by
    intro b hb
    simp only [markBytes, List.mem_cons, List.not_mem_nil, or_false, eq_byte_iff,
      UInt8.reduceToNat] at hb ⊢
    unfold lower at hb
    split_ifs at hb with hupper
    · simp only [UInt8.le_iff_toNat_le, UInt8.toNat_add, UInt8.reduceToNat] at hb hupper
      omega
    · omega
  subst h
  rcases hmark with hmark | hmark
  · obtain ⟨b, hb, hb'⟩ := List.mem_map.mp hmark
    exact ⟨b, hb, hlower b (.inl hb')⟩
  · obtain ⟨b, hb, hb'⟩ := List.mem_map.mp hmark
    exact ⟨b, hb, hlower b (.inr hb')⟩

theorem keyword_mark {w : Bytes} {v : Value} (h : keyword w = some v) : ∃ b ∈ w, b ∈ markBytes := by
  unfold keyword at h
  split_ifs at h with htrue hfalse hnull
  · exact mark_of_lower htrue (by decide)
  · exact mark_of_lower hfalse (by decide)
  · exact mark_of_lower hnull (by decide)

theorem constant_mark {ts : List Token} {v : Value} (h : constant type ts = some v)
    (hspelled : ∀ l ∈ ts, Spelled l) :
    (∀ l ∈ ts, ∀ b ∈ l.text, isNumeral b) ∨ ∃ l ∈ ts, ∃ b ∈ l.text, b ∈ markBytes := by
  have hnumber : ∀ t, ⟨.number, t⟩ ∈ ts → ∀ b ∈ t, isNumeral b := fun t ht =>
    (hspelled _ ht).number rfl
  unfold constant at h
  split at h
  · exact .inr ⟨_, List.mem_singleton_self _, keyword_mark h⟩
  · next t =>
    refine .inl fun l hl => ?_
    obtain rfl := List.mem_singleton.mp hl
    exact hnumber t hl
  · next sign t =>
    have hsign : isNumeral sign := by
      split_ifs at h with hminus hplus
      · simp [isNumeral, isSign, hminus]
      · simp [isNumeral, isSign, hplus]
    refine .inl fun l hl => ?_
    rcases List.mem_cons.mp hl with rfl | hl
    · simpa using hsign
    · obtain rfl := List.mem_singleton.mp hl
      exact hnumber t (by simp)
  · next b t =>
    have hquote := (hspelled _ (List.mem_singleton_self _)).string rfl
    exact .inr ⟨_, List.mem_singleton_self _, 0x27, hquote, by decide⟩
  · simp at h

/-- A text has a value as a number with blanks around it, or it has a mark. -/
theorem denotes_mark {v : Value} (h : denotes type text = some v) :
    (∀ b ∈ text, isSpace b ∨ isNumeral b) ∨ ∃ b ∈ text, b ∈ markBytes := by
  unfold denotes at h
  split_ifs at h
  obtain ⟨ls, hlex, hconstant⟩ := Option.bind_eq_some_iff.mp h
  have hspelled := spelled_lex hlex
  rcases constant_mark hconstant fun l hl => hspelled l (List.mem_of_mem_filter hl) with
    hnumerals | ⟨l, hl, b, hb, hmark⟩
  · exact .inl (lex_numerals hlex hnumerals)
  · exact .inr ⟨b, mem_of_lex hlex hl hb, hmark⟩

/-! ## Quoted text -/

theorem unquote_doubled (t : Bytes) : unquote (doubled 0x27 t ++ [0x27]) = some t := by
  induction t with
  | nil => rfl
  | cons b t ih =>
    rw [doubled, List.flatMap_cons]
    by_cases hb : b = 0x27
    · subst hb
      rw [if_pos rfl]
      simp only [List.cons_append, List.nil_append, unquote, if_true]
      rw [show t.flatMap _ = doubled 0x27 t from rfl, ih]
      rfl
    · rw [if_neg hb, List.append_assoc, List.singleton_append]
      cases hrest : doubled 0x27 t ++ [0x27] with
      | nil => simp at hrest
      | cons c rest =>
        have hrest' : (t.flatMap fun b => if b = 0x27 then [b, b] else [b]) ++ [0x27] = c :: rest :=
          hrest
        rw [hrest', unquote, if_neg hb, ← hrest, ih, Option.map_some]

theorem mem_doubled {q : UInt8} : b ∈ doubled q t ↔ b ∈ t := by
  simp only [doubled, List.mem_flatMap]
  constructor
  · rintro ⟨c, hc, hb⟩
    split_ifs at hb <;> simp_all
  · intro hb
    exact ⟨b, hb, by split_ifs <;> simp⟩

/-- A quoted text has the value that is read of what it quotes. -/
theorem denotes_quoted : denotes type (0x27 :: (doubled 0x27 t ++ [0x27])) = input type t := by
  have hnul : 0 ∈ 0x27 :: (doubled 0x27 t ++ [0x27]) ↔ 0 ∈ t := by
    simp [mem_doubled]
  by_cases h0 : 0 ∈ t
  · have hnot : ¬ IsText t := fun h => h.2 h0
    rw [denotes, if_pos (hnul.mpr h0), input_of_not_text hnot]
  · have hreads : Reads munch (0x27 :: (doubled 0x27 t ++ [0x27]) ++ [])
        [⟨.string, 0x27 :: (doubled 0x27 t ++ [0x27])⟩] [] := reads_string ⟨by simp, rfl⟩
    rw [List.append_nil] at hreads
    rw [denotes_of_lex (mt hnul.mp h0) (Sql.lex_eq_some_iff.mpr hreads)]
    have hkept : [(⟨.string, 0x27 :: (doubled 0x27 t ++ [0x27])⟩ : Token)].filter
        (·.kind ≠ .blank) = [⟨.string, 0x27 :: (doubled 0x27 t ++ [0x27])⟩] := rfl
    rw [hkept, constant, unquote_doubled, Option.bind_some]

/-! ## Integers -/

theorem sign_mem_signs (t : Bytes) : t.take (signLen t) ∈ signs := by
  cases t with
  | nil => simp [signs]
  | cons b t =>
    by_cases hb : isSign b
    · rcases isSign_iff.mp hb with rfl | rfl <;> simp [signLen, isSign, signs]
    · simp [signLen, hb, signs]

/-- What is read as an integer. -/
structure SpellsInteger (lead sign ds trail : Bytes) : Prop where
  lead_blank : ∀ b ∈ lead, isBlank b
  sign_mem : sign ∈ signs
  nonempty : ds ≠ []
  digits : ∀ b ∈ ds, isDigit b
  trail_blank : ∀ b ∈ trail, isBlank b

theorem readInteger_eq_some {n : ℤ} (h : readInteger t = some n) :
    ∃ lead sign ds trail, t = lead ++ (sign ++ ds ++ trail) ∧ SpellsInteger lead sign ds trail ∧
      n = signedValue sign ds := by
  dsimp only [readInteger] at h
  split_ifs at h with hdigits
  refine ⟨t.takeWhile isBlank, _, _, _, ?_, ⟨fun b hb => List.mem_takeWhile_imp hb,
    sign_mem_signs _, hdigits.1, fun b hb => List.mem_takeWhile_imp hb,
    List.all_eq_true.mp hdigits.2⟩, (Option.some.inj h).symm⟩
  rw [List.append_assoc, List.takeWhile_append_dropWhile, List.take_append_drop,
    List.takeWhile_append_dropWhile]

theorem SpellsInteger.ascii {lead trail : Bytes} (h : SpellsInteger lead sign ds trail) :
    ∀ b ∈ lead ++ (sign ++ ds ++ trail), b < 0x80 := by
  have hblank : ∀ b, isBlank b → b < 0x80 := by
    intro b hb
    simp only [isBlank, Bool.or_eq_true, Bool.and_eq_true, beq_iff_eq, decide_eq_true_eq,
      UInt8.le_iff_toNat_le, eq_byte_iff, UInt8.lt_iff_toNat_lt, UInt8.reduceToNat] at hb ⊢
    omega
  have hdigit : ∀ b, isDigit b → b < 0x80 := by
    intro b hb
    rw [isDigit_iff] at hb
    simp only [UInt8.lt_iff_toNat_lt, UInt8.reduceToNat]
    omega
  have hsign : ∀ sign ∈ signs, ∀ b ∈ sign, b < 0x80 := by
    simp [signs]
  intro b hb
  simp only [List.mem_append] at hb
  rcases hb with hb | (hb | hb) | hb
  · exact hblank b (h.lead_blank b hb)
  · exact hsign sign h.sign_mem b hb
  · exact hdigit b (h.digits b hb)
  · exact hblank b (h.trail_blank b hb)

theorem readInteger_ascii {n : ℤ} (h : readInteger t = some n) : ∀ b ∈ t, b < 0x80 := by
  obtain ⟨lead, sign, ds, trail, rfl, hspells, -⟩ := readInteger_eq_some h
  exact hspells.ascii

/-- The scanner does not skip a vertical tab. -/
theorem isSpace_of_isBlank (hb : isBlank b) (htab : b ≠ 0x0B) : isSpace b := by
  simp only [isBlank, isSpace_iff, Bool.or_eq_true, Bool.and_eq_true, beq_iff_eq,
    decide_eq_true_eq, UInt8.le_iff_toNat_le, ne_eq, eq_byte_iff, UInt8.reduceToNat] at hb htab ⊢
  omega

theorem readInteger_spells {n : ℤ} (h : readInteger t = some n) (htab : 0x0B ∉ t) :
    ∃ sign ds, SpellsNumber sign ds t ∧ (∀ b ∈ ds, isDigit b) ∧ n = signedValue sign ds := by
  obtain ⟨lead, sign, ds, trail, rfl, hspells, hn⟩ := readInteger_eq_some h
  have hne : ∀ b ∈ lead ++ (sign ++ ds ++ trail), b ≠ 0x0B := fun b hb heq => htab (heq ▸ hb)
  refine ⟨sign, ds, ⟨hspells.sign_mem, .digits hspells.nonempty hspells.digits, lead, trail, rfl,
    fun b hb => ?_, fun b hb => ?_⟩, hspells.digits, hn⟩
  · exact isSpace_of_isBlank (hspells.lead_blank b hb) (hne b (by simp [hb]))
  · exact isSpace_of_isBlank (hspells.trail_blank b hb) (hne b (by simp [hb]))

theorem natAbs_signedValue : (signedValue sign ds).natAbs = digitsValue ds := by
  unfold signedValue
  split_ifs <;> simp

theorem ofInteger_small {n m : ℤ} (h : type.ofInteger n = some m) :
    n.natAbs < 10 ^ 131072 := by
  have hword : n.natAbs < 10 ^ 20 := by
    cases type with
    | oid =>
      simp only [DataType.ofInteger, oidOf] at h
      split_ifs at h
      omega
    | _ =>
      simp only [DataType.ofInteger] at h
      split_ifs at h with hholds
      simp only [DataType.Holds] at hholds
      try omega
  have hpow : 10 ^ 20 ≤ 10 ^ 131072 := pow_le_pow_right₀ (by decide) (by omega)
  exact lt_of_lt_of_le hword hpow

/-- An integer is read for what it is where its type holds it. -/
theorem ofInteger_eq_some_iff {n : ℤ} : type.ofInteger n = some n ↔ type.Holds n := by
  cases type with
  | oid =>
    simp only [DataType.ofInteger, oidOf, DataType.Holds]
    constructor
    · intro h
      split_ifs at h
      have hlow := Option.some.inj h
      omega
    · intro h
      rw [if_pos (by omega)]
      exact congrArg some (by omega)
  | _ => simp [DataType.ofInteger]

theorem input_integer (h : type.width.isSome) (ht : IsText t) :
    input type t = ((readInteger t).bind type.ofInteger).map fun n : ℤ => .number n := by
  cases type <;> simp [DataType.width] at h <;> simp only [input, if_pos ht]

/-- A text that both the input function and the scanner read: they read the same. -/
theorem denotes_readInteger {n : ℤ} (h : readInteger t = some n) (htab : 0x0B ∉ t)
    (hsmall : n.natAbs < 10 ^ 131072) : denotes type t = some (.number n) := by
  obtain ⟨sign, ds, hspells, hds, rfl⟩ := readInteger_spells h htab
  exact hspells.denotes_integer hds (natAbs_signedValue ▸ hsmall)

end MiddleWhere.Sql.Pg
