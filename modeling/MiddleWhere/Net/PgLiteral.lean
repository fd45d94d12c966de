import MiddleWhere.Data.Utf8
import MiddleWhere.Net.PgRender
import MiddleWhere.Sql.PgReads

/-!
# Literals in the text of a statement

A rendered parameter is spliced into the text of a statement, so it should be one literal
wherever it stands: a keyword, a number with at most a sign, a quoted string, or an array or
a cast of these. It is, but for the numeric text path, which writes a number as the client
spelled it.
-/

namespace MiddleWhere.Net

open Sql.Pg (Token Kind munch EndsNumber EndsString doubled)

/-! ## Literals -/

def word (w : String) : Token := ⟨.ident, Str.asBytes w⟩

def symbol (s : String) : Token := ⟨.char, Str.asBytes s⟩

/-- The names that a cast can have. -/
def castNames : List String :=
  ["bool", "int2", "int4", "int8", "oid", "float4", "float8", "numeric", "bpchar", "varchar",
    "name", "char", "text"]

def castTo (type : String) : List Token := [symbol "::", word type, symbol "[", symbol "]"]

inductive ScalarLiteral : List Token → Prop
  | keyword {w : String} : w ∈ ["NULL", "TRUE", "FALSE"] → ScalarLiteral [word w]
  | number {t : Bytes} : ScalarLiteral [⟨.number, t⟩]
  | signed {sign : UInt8} {t : Bytes} :
      Sql.Pg.isSign sign → ScalarLiteral [⟨.op, [sign]⟩, ⟨.number, t⟩]
  | string {t : Bytes} : ScalarLiteral [⟨.string, t⟩]

/-- The tokens of one self-contained literal. -/
inductive Literal : List Token → Prop
  | scalar {ts : List Token} : ScalarLiteral ts → Literal ts
  | array {first : List Token} {rest : List (List Token)} :
      ScalarLiteral first → (∀ ts ∈ rest, ScalarLiteral ts) →
      Literal (word "ARRAY" :: symbol "[" ::
        (first ++ rest.flatMap (symbol "," :: ·) ++ [symbol "]"]))
  | emptyArray {type : String} : type ∈ castNames →
      Literal (word "ARRAY" :: symbol "[" :: symbol "]" :: castTo type)
  | stringCast {t : Bytes} {type : String} : type ∈ castNames →
      Literal (⟨.string, t⟩ :: castTo type)

/-- A text that lexes to one literal with blanks around: there is no comment in it, and no
other word or symbol. -/
def LexicallyClosed (s : String) : Prop :=
  ∃ ls, Sql.Pg.lex (Str.asBytes s) = some ls ∧ Literal (ls.filter (·.kind ≠ .blank))

/-! ## What is read of the parts -/

/-- What stands after a part of a literal: the end, or a symbol. -/
def Delimited (rest : Bytes) : Prop :=
  ∀ b, rest.head? = some b → b ∈ ([0x2C, 0x3A, 0x5D] : Bytes)

theorem Delimited.nil : Delimited [] := by
  simp [Delimited]

theorem Delimited.endsNumber {rest : Bytes} (h : Delimited rest) : EndsNumber rest := by
  intro b hb
  have hmem := h b hb
  simp only [List.mem_cons, List.not_mem_nil, or_false] at hmem
  rcases hmem with rfl | rfl | rfl <;> decide

theorem Delimited.endsString {rest : Bytes} (h : Delimited rest) : EndsString rest := by
  cases rest with
  | nil => exact ⟨by simp, rfl⟩
  | cons b rest =>
    have hmem := h b rfl
    simp only [List.mem_cons, List.not_mem_nil, or_false] at hmem
    rcases hmem with rfl | rfl | rfl <;>
      exact ⟨by simp, by simp [Sql.Pg.gapLen, Sql.Pg.isSpace]⟩

theorem Delimited.endsIdent {rest : Bytes} (h : Delimited rest) :
    ∀ b, rest.head? = some b → ¬ Sql.Pg.isIdentCont b := by
  intro b hb
  have hmem := h b hb
  simp only [List.mem_cons, List.not_mem_nil, or_false] at hmem
  rcases hmem with rfl | rfl | rfl <;> decide

/-- Two letters or more, each of which may stand in an identifier. -/
def isWord : Bytes → Bool
  | b :: c :: bs =>
    Sql.Pg.isIdentStart b && Sql.Pg.isTagCont c && (c :: bs).all Sql.Pg.isIdentCont
  | _ => false

def literalWords : List String := ["NULL", "TRUE", "FALSE", "ARRAY"] ++ castNames

theorem isWord_of_mem {w : String} (hw : w ∈ literalWords) : isWord (Str.asBytes w) = true :=
  (by decide : ∀ w ∈ literalWords, isWord (Str.asBytes w) = true) w hw

/-- The words that literals have are read whole. -/
theorem reads_word {w : String} {rest : Bytes} (hw : w ∈ literalWords)
    (hrest : ∀ b, rest.head? = some b → ¬ Sql.Pg.isIdentCont b) :
    Sql.Reads munch (Str.asBytes w ++ rest) [word w] rest := by
  have hword := isWord_of_mem hw
  rw [word]
  match Str.asBytes w, hword with
  | b :: c :: bs, hword =>
    simp only [isWord, Bool.and_eq_true, List.all_eq_true] at hword
    exact Sql.Pg.reads_ident hword.1.1 (Sql.Pg.opening_word hword.1.1 hword.1.2) hword.2 hrest

/-! ## Quoted text -/

theorem doubled_encode (c : Char) :
    doubled 0x27 (String.utf8EncodeChar c) =
      if c = '\'' then [0x27, 0x27] else String.utf8EncodeChar c := by
  by_cases hc : c = '\''
  · subst hc
    rfl
  · have hne : ∀ b ∈ String.utf8EncodeChar c, b ≠ 0x27 := by
      intro b hb
      by_cases hascii : c.toNat < 0x80
      · rw [Str.encode_ascii hascii, List.mem_singleton] at hb
        exact fun hquote => hc (Str.eq_of_ascii hascii (hb.symm.trans hquote))
      · rintro rfl
        exact Str.encode_high hascii _ hb (by decide)
    rw [if_neg hc]
    generalize String.utf8EncodeChar c = bs at hne
    induction bs with
    | nil => rfl
    | cons b bs ih =>
      rw [doubled, List.flatMap_cons, if_neg (hne b (by simp))]
      exact congrArg (b :: ·) (ih fun b hb => hne b (by simp [hb]))

theorem asBytes_quoteLit (s : String) :
    Str.asBytes (quoteLit s) = 0x27 :: (doubled 0x27 (Str.asBytes s) ++ [0x27]) := by
  have hbody : ∀ cs : List Char,
      (cs.flatMap fun c => if c = '\'' then ['\'', c] else [c]).flatMap String.utf8EncodeChar =
        doubled 0x27 (cs.flatMap String.utf8EncodeChar) := by
    intro cs
    induction cs with
    | nil => rfl
    | cons c cs ih =>
      have happ : ∀ as bs : Bytes, doubled 0x27 (as ++ bs) = doubled 0x27 as ++ doubled 0x27 bs :=
        fun as bs => List.flatMap_append
      rw [List.flatMap_cons, List.flatMap_append, ih, List.flatMap_cons, happ, doubled_encode]
      by_cases hc : c = '\''
      · subst hc
        rfl
      · simp [hc]
  rw [quoteLit, Str.asBytes, String.toList_ofList, List.cons_append, List.flatMap_cons,
    List.flatMap_append, hbody]
  rfl

theorem reads_quoteLit {rest : Bytes} (s : String) (hrest : EndsString rest) :
    Sql.Reads munch (Str.asBytes (quoteLit s) ++ rest) [⟨.string, Str.asBytes (quoteLit s)⟩] rest := by
  rw [asBytes_quoteLit]
  exact Sql.Pg.reads_string hrest

/-! ## Numbers -/

/-- The text of a number, as printing gives it: digits, and a fraction when there is one. -/
def Decimal (t : Bytes) : Prop :=
  ∃ digits fraction, t = digits ++ fraction ∧ digits ≠ [] ∧ (∀ b ∈ digits, isDigit b) ∧
    (fraction = [] ∨ ∃ ds, fraction = 0x2E :: ds ∧ ds ≠ [] ∧ ∀ b ∈ ds, isDigit b)

/-- The text of a number with its sign. -/
def SignedDecimal (t : Bytes) : Prop := Decimal t ∨ ∃ n, t = 0x2D :: n ∧ Decimal n

theorem Decimal.number {t : Bytes} (h : Decimal t) : Sql.Pg.Number t := by
  obtain ⟨digits, fraction, rfl, hne, hdigits, rfl | ⟨ds, rfl, hds, hall⟩⟩ := h
  · rw [List.append_nil]
    exact .digits hne hdigits
  · exact .fraction hdigits hds hall

theorem digit_encode {c : Char} (hc : c.isDigit) :
    ∃ b, String.utf8EncodeChar c = [b] ∧ isDigit b := by
  have hval : 48 ≤ c.toNat ∧ c.toNat ≤ 57 := by
    rw [Char.isDigit, Bool.and_eq_true, decide_eq_true_eq, decide_eq_true_eq] at hc
    exact ⟨UInt32.le_iff_toNat_le.mp hc.1, UInt32.le_iff_toNat_le.mp hc.2⟩
  refine ⟨_, Str.encode_ascii (by omega), Sql.Pg.isDigit_iff.mpr ?_⟩
  rwa [Str.toNat_byte (by omega)]

theorem natText_digits (n : ℕ) :
    Str.asBytes (toString n) ≠ [] ∧ ∀ b ∈ Str.asBytes (toString n), isDigit b := by
  have htext : Str.asBytes (toString n) = (Nat.toDigits 10 n).flatMap String.utf8EncodeChar := by
    rw [Str.asBytes, Nat.toString_eq_ofList_toDigits, String.toList_ofList]
  have hdigit : ∀ c ∈ Nat.toDigits 10 n, c.isDigit := fun c hc =>
    Nat.isDigit_of_mem_toDigits (by decide) (by decide) hc
  constructor
  · obtain ⟨c, cs, hcs⟩ := List.exists_cons_of_ne_nil (Nat.toDigits_ne_nil (n := n) (b := 10))
    obtain ⟨b, hb, -⟩ := digit_encode (hdigit c (by simp [hcs]))
    rw [htext, hcs, List.flatMap_cons, hb]
    simp
  · intro b hb
    rw [htext] at hb
    obtain ⟨c, hc, hb⟩ := List.mem_flatMap.mp hb
    obtain ⟨d, hd, hdigit⟩ := digit_encode (hdigit c hc)
    rw [hd, List.mem_singleton] at hb
    exact hb ▸ hdigit

theorem natText_decimal (n : ℕ) : Decimal (Str.asBytes (toString n)) :=
  ⟨_, [], (List.append_nil _).symm, (natText_digits n).1, (natText_digits n).2, .inl rfl⟩

theorem intText_decimal (z : ℤ) : SignedDecimal (Str.asBytes (toString z)) := by
  cases z with
  | ofNat n => exact .inl (natText_decimal n)
  | negSucc n =>
    have htext : toString (Int.negSucc n) = "-" ++ toString (n + 1) := rfl
    rw [htext, Str.asBytes_append]
    exact .inr ⟨_, rfl, natText_decimal (n + 1)⟩

/-! ## Scalars -/

/-- The tokens of a text, wherever the text ends or a symbol follows. -/
def ReadsAs (s : String) (ts : List Token) : Prop :=
  ∀ rest, Delimited rest → Sql.Reads munch (Str.asBytes s ++ rest) ts rest

def ScalarText (s : String) : Prop := ∃ ts, ScalarLiteral ts ∧ ReadsAs s ts

theorem ScalarText.keyword {w : String} (hw : w ∈ ["NULL", "TRUE", "FALSE"]) : ScalarText w :=
  ⟨_, .keyword hw, fun _ hrest =>
    reads_word (List.mem_append_left _ (by simp at hw ⊢; tauto)) hrest.endsIdent⟩

theorem ScalarText.quoteLit (s : String) : ScalarText (quoteLit s) :=
  ⟨_, .string, fun _ hrest => reads_quoteLit s hrest.endsString⟩

theorem ScalarText.decimal {s : String} (h : SignedDecimal (Str.asBytes s)) : ScalarText s := by
  rcases h with h | ⟨n, hn, h⟩
  · exact ⟨_, .number, fun _ hrest => Sql.Pg.reads_number h.number hrest.endsNumber⟩
  · refine ⟨_, @ScalarLiteral.signed 0x2D n (by decide), fun rest hrest => ?_⟩
    rw [hn]
    exact (Sql.Pg.reads_sign (by decide) h.number).append
      (Sql.Pg.reads_number h.number hrest.endsNumber)

/-- A finite float is printed as digits with an optional sign and fraction. -/
def PrintsDecimals (deps : SessionDeps) : Prop :=
  ∀ bits : UInt64, bits.toNat / 2 ^ 52 % 2 ^ 11 ≠ 2 ^ 11 - 1 →
    SignedDecimal (Str.asBytes (deps.showF64 bits))

section
variable {deps : SessionDeps} (hprints : PrintsDecimals deps) {oid fmt : ℤ} {b : Bytes}
  {s : String}

theorem intText_scalar {width : ℕ} (h : intText width b = .ok s) : ScalarText s := by
  obtain ⟨bytes, -, hs⟩ := Outcome.bind_eq_ok_iff.mp h
  obtain rfl := Outcome.ok.inj hs
  exact .decimal (intText_decimal _)

theorem renderUnknown_scalar (h : renderUnknown b = .ok s) : ScalarText s := by
  unfold renderUnknown at h
  split_ifs at h
  · split at h
    · exact intText_scalar h
    · exact intText_scalar h
    · exact intText_scalar h
    · simp at h
  · obtain rfl := Outcome.ok.inj h
    exact .quoteLit _

include hprints in
theorem fmtFloat_scalar (bits : UInt64) : ScalarText (fmtFloat deps bits) := by
  dsimp only [fmtFloat]
  split_ifs with hfinite
  · exact .decimal (hprints bits hfinite)
  · exact .quoteLit "NaN"
  · exact .quoteLit "Infinity"
  · exact .quoteLit "-Infinity"

include hprints in
theorem renderBinary_scalar (h : renderBinary deps oid b = .ok s) : ScalarText s := by
  unfold renderBinary at h
  split_ifs at h with h1 h2 h3 h4 h5 h6 h7 h8
  · obtain rfl := Outcome.ok.inj h
    exact .keyword (by simp)
  · obtain rfl := Outcome.ok.inj h
    exact .keyword (by simp)
  · exact intText_scalar h
  · exact intText_scalar h
  · exact intText_scalar h
  · obtain ⟨bytes, -, hs⟩ := Outcome.bind_eq_ok_iff.mp h
    obtain rfl := Outcome.ok.inj hs
    exact fmtFloat_scalar hprints _
  · obtain ⟨bytes, -, hs⟩ := Outcome.bind_eq_ok_iff.mp h
    obtain rfl := Outcome.ok.inj hs
    exact fmtFloat_scalar hprints _
  · exact intText_scalar h
  · exact renderUnknown_scalar h

include hprints in
/-- Every scalar but text is a literal of its own. -/
theorem renderScalar_scalar {e : Option Bytes} (h : renderScalar deps oid 1 e = .ok s) :
    ScalarText s := by
  cases e with
  | none =>
    obtain rfl := Outcome.ok.inj h
    exact .keyword (by simp)
  | some b => exact renderBinary_scalar hprints h

include hprints in
theorem renderElems_scalar {es : List (Option Bytes)} {parts : List String}
    (h : renderElems deps oid es = .ok parts) :
    parts.length = es.length ∧ ∀ p ∈ parts, ScalarText p := by
  induction es generalizing parts with
  | nil =>
    obtain rfl := Outcome.ok.inj h
    exact ⟨rfl, by simp⟩
  | cons e es ih =>
    obtain ⟨part, hpart, h⟩ := Outcome.bind_eq_ok_iff.mp h
    obtain ⟨more, hmore, h⟩ := Outcome.bind_eq_ok_iff.mp h
    obtain rfl := Outcome.ok.inj h
    obtain ⟨hlen, hall⟩ := ih hmore
    refine ⟨by simp [hlen], ?_⟩
    intro p hp
    rcases List.mem_cons.mp hp with rfl | hp
    · exact renderScalar_scalar hprints hpart
    · exact hall p hp

end

/-! ## Arrays and casts -/

/-- A text that is one literal before a blank or the end. -/
def LiteralText (s : String) : Prop :=
  ∃ ts, Literal ts ∧ Sql.Reads munch (Str.asBytes s) ts []

theorem ScalarText.literal {s : String} (h : ScalarText s) : LiteralText s := by
  obtain ⟨ts, hts, hreads⟩ := h
  refine ⟨ts, .scalar hts, ?_⟩
  have hall := hreads [] .nil
  rwa [List.append_nil] at hall

theorem elemTypeName_mem (oid : ℤ) : elemTypeName oid ∈ castNames := by
  have hite : ∀ (p : Prop) [Decidable p] (a b : String), a ∈ castNames → b ∈ castNames →
      (if p then a else b) ∈ castNames := fun p _ a b ha hb => by
    split_ifs
    · exact ha
    · exact hb
  unfold elemTypeName
  iterate 12 refine hite _ _ _ (by decide) ?_
  decide

theorem reads_symbol {text : String} {rest : Bytes}
    (htext : ∃ b ∈ Sql.Pg.alone, Str.asBytes text = [b]) :
    Sql.Reads munch (Str.asBytes text ++ rest) [symbol text] rest := by
  obtain ⟨b, hb, htext⟩ := htext
  rw [symbol, htext]
  exact Sql.Pg.reads_alone hb

theorem reads_castTo {type : String} (htype : type ∈ castNames) :
    Sql.Reads munch (Str.asBytes ("::" ++ type ++ "[]")) (castTo type) [] := by
  have hname : Sql.Reads munch (Str.asBytes type ++ [0x5B, 0x5D]) [word type] [0x5B, 0x5D] :=
    reads_word (List.mem_append_right _ htype) (by
      intro b hb
      obtain rfl : 0x5B = b := by simpa using hb
      decide)
  have hcolons : Sql.Reads munch (Str.asBytes "::" ++ (Str.asBytes type ++ [0x5B, 0x5D]))
      [symbol "::"] (Str.asBytes type ++ [0x5B, 0x5D]) := by
    rw [symbol, show Str.asBytes "::" = [0x3A, 0x3A] by decide]
    exact Sql.Pg.reads_typecast
  have hopen : Sql.Reads munch (Str.asBytes "[" ++ [0x5D]) [symbol "["] [0x5D] :=
    reads_symbol (by decide)
  have hclose : Sql.Reads munch (Str.asBytes "]" ++ []) [symbol "]"] [] :=
    reads_symbol (by decide)
  rw [show Str.asBytes "[" = [0x5B] by decide] at hopen
  rw [show Str.asBytes "]" = [0x5D] by decide] at hclose
  rw [Str.asBytes_append, Str.asBytes_append, List.append_assoc,
    show Str.asBytes "[]" = [0x5B, 0x5D] by decide]
  exact hcolons.append (hname.append (hopen.append hclose))

/-- The elements of an array, up to its closing bracket. -/
theorem reads_elems {parts : List String} {first : String} (hfirst : ScalarText first)
    (hparts : ∀ p ∈ parts, ScalarText p) :
    ∃ (ts : List Token) (tss : List (List Token)), ScalarLiteral ts ∧ (∀ us ∈ tss, ScalarLiteral us) ∧
      Sql.Reads munch (Str.asBytes (",".intercalate (first :: parts)) ++ [0x5D])
        (ts ++ tss.flatMap (symbol "," :: ·)) [0x5D] := by
  induction parts generalizing first with
  | nil =>
    obtain ⟨ts, hts, hreads⟩ := hfirst
    refine ⟨ts, [], hts, by simp, ?_⟩
    have hhere := hreads [0x5D] (by simp [Delimited])
    rwa [String.intercalate_singleton, List.flatMap_nil, List.append_nil]
  | cons p parts ih =>
    obtain ⟨ts, hts, hreads⟩ := hfirst
    obtain ⟨us, tss, hus, htss, hrest⟩ := ih (hparts p (by simp)) fun q hq =>
      hparts q (by simp [hq])
    refine ⟨ts, us :: tss, hts, ?_, ?_⟩
    · intro vs hvs
      rcases List.mem_cons.mp hvs with rfl | hvs
      · exact hus
      · exact htss vs hvs
    · have hcomma : Sql.Reads munch
          (Str.asBytes "," ++ (Str.asBytes (",".intercalate (p :: parts)) ++ [0x5D])) [symbol ","]
          (Str.asBytes (",".intercalate (p :: parts)) ++ [0x5D]) :=
        reads_symbol (by decide)
      have hstop : Delimited
          (Str.asBytes "," ++ (Str.asBytes (",".intercalate (p :: parts)) ++ [0x5D])) := by
        rw [show Str.asBytes "," = [0x2C] by decide]
        simp [Delimited]
      rw [String.intercalate_cons_cons, Str.asBytes_append, Str.asBytes_append, List.append_assoc,
        List.append_assoc, List.flatMap_cons]
      exact (hreads _ hstop).append (hcomma.append hrest)

theorem emptyArray_literal {type : String} (htype : type ∈ castNames) :
    LiteralText ("ARRAY[]::" ++ type ++ "[]") := by
  have harray : Sql.Reads munch (Str.asBytes "ARRAY" ++ (Str.asBytes "[" ++ (Str.asBytes "]" ++
      Str.asBytes ("::" ++ type ++ "[]")))) [word "ARRAY"] (Str.asBytes "[" ++ (Str.asBytes "]" ++
      Str.asBytes ("::" ++ type ++ "[]"))) := by
    refine reads_word (by decide) ?_
    rw [show Str.asBytes "[" = [0x5B] by decide]
    intro b hb
    obtain rfl : 0x5B = b := by simpa using hb
    decide
  have hopen : Sql.Reads munch (Str.asBytes "[" ++ (Str.asBytes "]" ++
      Str.asBytes ("::" ++ type ++ "[]"))) [symbol "["] (Str.asBytes "]" ++
      Str.asBytes ("::" ++ type ++ "[]")) := reads_symbol (by decide)
  have hclose : Sql.Reads munch (Str.asBytes "]" ++ Str.asBytes ("::" ++ type ++ "[]"))
      [symbol "]"] (Str.asBytes ("::" ++ type ++ "[]")) :=
    reads_symbol (by decide)
  have htext : "ARRAY[]::" ++ type ++ "[]" = "ARRAY" ++ ("[" ++ ("]" ++ ("::" ++ type ++ "[]"))) := by
    simp only [← String.append_assoc]
    rfl
  refine ⟨_, .emptyArray htype, ?_⟩
  rw [htext, Str.asBytes_append, Str.asBytes_append, Str.asBytes_append]
  exact harray.append (hopen.append (hclose.append (reads_castTo htype)))

theorem array_literal {first : String} {parts : List String} (hfirst : ScalarText first)
    (hparts : ∀ p ∈ parts, ScalarText p) :
    LiteralText ("ARRAY[" ++ ",".intercalate (first :: parts) ++ "]") := by
  obtain ⟨ts, tss, hts, htss, helems⟩ := reads_elems hfirst hparts
  have hclose : Sql.Reads munch (Str.asBytes "]" ++ []) [symbol "]"] [] :=
    reads_symbol (by decide)
  have hopen : Sql.Reads munch (Str.asBytes "[" ++ (Str.asBytes (",".intercalate (first :: parts)) ++
      [0x5D])) [symbol "["] (Str.asBytes (",".intercalate (first :: parts)) ++ [0x5D]) :=
    reads_symbol (by decide)
  have harray : Sql.Reads munch (Str.asBytes "ARRAY" ++ (Str.asBytes "[" ++
      (Str.asBytes (",".intercalate (first :: parts)) ++ [0x5D]))) [word "ARRAY"]
      (Str.asBytes "[" ++ (Str.asBytes (",".intercalate (first :: parts)) ++ [0x5D])) := by
    refine reads_word (by decide) ?_
    rw [show Str.asBytes "[" = [0x5B] by decide]
    intro b hb
    obtain rfl : 0x5B = b := by simpa using hb
    decide
  rw [show Str.asBytes "]" = [0x5D] by decide, List.append_nil] at hclose
  refine ⟨_, .array hts htss, ?_⟩
  rw [Str.asBytes_append, Str.asBytes_append, show Str.asBytes "]" = [0x5D] by decide,
    show Str.asBytes "ARRAY[" = Str.asBytes "ARRAY" ++ Str.asBytes "[" by decide,
    List.append_assoc, List.append_assoc]
  exact harray.append (hopen.append (helems.append hclose))

theorem stringCast_literal (s : String) {type : String} (htype : type ∈ castNames) :
    LiteralText (quoteLit s ++ "::" ++ type ++ "[]") := by
  have hends : EndsString (Str.asBytes ("::" ++ type ++ "[]")) := by
    rw [Str.asBytes_append, Str.asBytes_append, show Str.asBytes "::" = [0x3A, 0x3A] by decide]
    exact ⟨by simp, by simp [Sql.Pg.gapLen, Sql.Pg.isSpace]⟩
  have htext : quoteLit s ++ "::" ++ type ++ "[]" = quoteLit s ++ ("::" ++ type ++ "[]") := by
    simp only [String.append_assoc]
  refine ⟨_, @Literal.stringCast (Str.asBytes (quoteLit s)) type htype, ?_⟩
  rw [htext, Str.asBytes_append]
  exact (reads_quoteLit s hends).append (reads_castTo htype)

theorem renderArray_literal {deps : SessionDeps} (hprints : PrintsDecimals deps) {elem fmt : ℤ}
    {b : Bytes} {s : String} (h : renderArray deps elem fmt b = .ok s) : LiteralText s := by
  unfold renderArray at h
  by_cases hfmt : fmt = 1
  · rw [if_pos hfmt] at h
    obtain ⟨⟨oid, elems⟩, -, h⟩ := Outcome.bind_eq_ok_iff.mp h
    dsimp only at h
    by_cases hempty : elems.isEmpty
    · rw [if_pos hempty] at h
      obtain rfl := Outcome.ok.inj h
      exact emptyArray_literal (elemTypeName_mem oid)
    · rw [if_neg hempty] at h
      obtain ⟨parts, hparts, h⟩ := Outcome.bind_eq_ok_iff.mp h
      obtain rfl := Outcome.ok.inj h
      obtain ⟨hlen, hall⟩ := renderElems_scalar hprints hparts
      cases parts with
      | nil => simp [← List.length_eq_zero_iff, ← hlen] at hempty
      | cons first parts =>
        exact array_literal (hall first (by simp)) fun p hp => hall p (by simp [hp])
  · rw [if_neg hfmt] at h
    split_ifs at h
    obtain rfl := Outcome.ok.inj h
    exact stringCast_literal _ (elemTypeName_mem elem)

end MiddleWhere.Net
