import MiddleWhere.Net.PgLiteral

/-!
# Numbers as the client spells them

The text of a numeric parameter is spliced in as it came when a check finds a number in it.
The check trims the text first, and it knows the words for what is no number; the server
reads these as identifiers, and it does not skip all the white space that was trimmed.
-/

namespace MiddleWhere.Net

open Sql.Pg (Token munch SpellsNumber)

/-! ## The check of a number -/

theorem skipSign_eq (bs : Bytes) : skipSign bs = bs.drop (Sql.Pg.signLen bs) := by
  cases bs with
  | nil => rfl
  | cons b bs =>
    by_cases hb : isSign b
    · have hsign : Sql.Pg.signLen (b :: bs) = 1 := by
        have hb' : Sql.Pg.isSign b := hb
        simp [Sql.Pg.signLen, hb']
      rw [skipSign, if_pos hb, hsign, List.drop_one, List.tail_cons]
    · have hsign : Sql.Pg.signLen (b :: bs) = 0 := by
        have hb' : ¬ Sql.Pg.isSign b := hb
        simp [Sql.Pg.signLen, hb']
      rw [skipSign, if_neg hb, hsign, List.drop_zero]

/-- Where the check finds the end of a number, the server's scanner does. -/
theorem exponentLen_of_ends {bs : Bytes} (h : exponentEnds bs = true) (len : ℕ) :
    Sql.Pg.exponentLen len bs = some (len + bs.length) := by
  cases bs with
  | nil => rfl
  | cons b bs =>
    simp only [exponentEnds, skipDigits] at h
    by_cases hexp : (b == 0x65 || b == 0x45) = true
    · rw [if_pos hexp, Bool.and_eq_true, decide_eq_true_eq, List.isEmpty_iff, skipSign_eq] at h
      have hsplit := List.takeWhile_append_dropWhile (p := isDigit)
        (l := bs.drop (Sql.Pg.signLen bs))
      rw [h.2, List.append_nil] at hsplit
      have hdigits : (bs.drop (Sql.Pg.signLen bs)).takeWhile Sql.Pg.isDigit =
          bs.drop (Sql.Pg.signLen bs) := hsplit
      have hnone : (bs.drop (Sql.Pg.signLen bs)).dropWhile Sql.Pg.isDigit = [] := h.2
      have hne : ¬ (bs.drop (Sql.Pg.signLen bs)) = [] := fun hnil => h.1 (by rw [hnil]; rfl)
      have hlen := Sql.Pg.signLen_le bs (by rintro rfl; simp at hne)
      have hb : b = 0x65 ∨ b = 0x45 := by simpa using hexp
      rw [Sql.Pg.exponentLen, if_pos hb, Sql.Pg.exponentDigits, hdigits, hnone, if_neg (by simpa using hne)]
      simp only [List.length_drop, List.length_cons, Option.some.injEq]
      omega
    · rw [if_neg hexp] at h
      exact absurd h (by simp)

theorem starts_digits {t : Bytes} (h : t.takeWhile isDigit ≠ []) :
    ∃ b bs, t = b :: bs ∧ Sql.Pg.isDigit b := by
  cases t with
  | nil => exact absurd rfl h
  | cons b bs =>
    refine ⟨b, bs, rfl, ?_⟩
    by_contra hb
    exact h (List.takeWhile_cons_of_neg hb)

theorem length_digits (t : Bytes) :
    t.length = (t.takeWhile Sql.Pg.isDigit).length + (t.dropWhile Sql.Pg.isDigit).length := by
  rw [← List.length_append, List.takeWhile_append_dropWhile]

/-- A number without a fraction. -/
theorem number_of_digits {t : Bytes} (hdigits : t.takeWhile isDigit ≠ [])
    (hpoint : (t.dropWhile isDigit).head? ≠ some 0x2E)
    (hends : exponentEnds (t.dropWhile isDigit) = true) : Sql.Pg.Number t := by
  have hdots : ¬ [0x2E, 0x2E] <+: t.dropWhile Sql.Pg.isDigit := by
    rintro ⟨more, hmore⟩
    exact hpoint (congrArg List.head? hmore.symm)
  obtain ⟨b, bs, hb, hdigit⟩ := starts_digits hdigits
  refine ⟨?_, b, bs, hb, .inl hdigit⟩
  have hlen := exponentLen_of_ends hends (t.takeWhile Sql.Pg.isDigit).length
  have hpoint' : ¬ (t.dropWhile Sql.Pg.isDigit).head? = some 0x2E := hpoint
  simp only [Sql.Pg.numberLen, if_neg hdots, if_neg hpoint']
  rw [length_digits t]
  exact hlen

/-- A number with a point. -/
theorem number_of_fraction {t more : Bytes} (hmore : t.dropWhile isDigit = 0x2E :: more)
    (hdigits : t.takeWhile isDigit ≠ [] ∨ more.takeWhile isDigit ≠ [])
    (hends : exponentEnds (more.dropWhile isDigit) = true) : Sql.Pg.Number t := by
  have hmore' : t.dropWhile Sql.Pg.isDigit = 0x2E :: more := hmore
  have hdots : ¬ [0x2E, 0x2E] <+: 0x2E :: more := by
    rintro ⟨rest, hrest⟩
    obtain rfl : 0x2E :: rest = more := by simpa using hrest
    simp [exponentEnds, isDigit] at hends
  constructor
  · have hends' : exponentEnds (more.dropWhile Sql.Pg.isDigit) = true := hends
    have hlen := exponentLen_of_ends hends'
      ((t.takeWhile Sql.Pg.isDigit).length + 1 + (more.takeWhile Sql.Pg.isDigit).length)
    simp only [Sql.Pg.numberLen, hmore', if_neg hdots, List.head?_cons, if_true, List.tail_cons]
    refine hlen.trans ?_
    rw [length_digits t, hmore', List.length_cons, length_digits more]
    exact congrArg some (by omega)
  · by_cases hnil : t.takeWhile isDigit = []
    · obtain ⟨d, ds, rfl, hd⟩ := starts_digits (hdigits.resolve_left (by simpa using hnil))
      have ht : t = 0x2E :: d :: ds := by
        have hsplit := List.takeWhile_append_dropWhile (p := isDigit) (l := t)
        rw [hnil, hmore, List.nil_append] at hsplit
        exact hsplit.symm
      exact ⟨_, _, ht, .inr ⟨rfl, by simpa using hd⟩⟩
    · obtain ⟨b, bs, rfl, hb⟩ := starts_digits hnil
      exact ⟨b, bs, rfl, .inl hb⟩

/-- What the check of a number lets through: a sign, and a number for the server. -/
theorem isSafeNumeric_cases {s : String} (h : isSafeNumeric s = true) :
    String.ofList (Str.trim s.toList) ∈ ["NaN", "Infinity", "-Infinity", "+Infinity"] ∨
      Sql.Pg.Number (skipSign (Str.asBytes (String.ofList (Str.trim s.toList)))) := by
  unfold isSafeNumeric at h
  dsimp only at h
  split_ifs at h with hwords
  · exact .inl (by simpa using hwords)
  · right
    generalize skipSign (Str.asBytes (String.ofList (Str.trim s.toList))) = t at h ⊢
    simp only [skipDigits] at h
    split at h
    · next more hmore =>
      rw [Bool.and_eq_true, Bool.or_eq_true, decide_eq_true_eq, decide_eq_true_eq] at h
      exact number_of_fraction hmore h.1 h.2
    · next rest hrest =>
      rw [Bool.and_eq_true, Bool.or_false, decide_eq_true_eq] at h
      refine number_of_digits h.1 (fun hpoint => ?_) h.2
      cases hmore : t.dropWhile isDigit with
      | nil => simp [hmore] at hpoint
      | cons b more =>
        obtain rfl : b = 0x2E := by simpa [hmore] using hpoint
        exact hrest more hmore

/-! ## White space around a number -/

theorem trim_split (cs : List Char) : ∃ lead trail, cs = lead ++ (Str.trim cs ++ trail) ∧
    (∀ c ∈ lead, Str.isWhitespace c) ∧ ∀ c ∈ trail, Str.isWhitespace c := by
  refine ⟨cs.takeWhile Str.isWhitespace,
    ((Str.trimStart cs).reverse.takeWhile Str.isWhitespace).reverse, ?_,
    fun c hc => List.mem_takeWhile_imp hc,
    fun c hc => List.mem_takeWhile_imp (List.mem_reverse.mp hc)⟩
  rw [Str.trim, ← List.reverse_append, List.takeWhile_append_dropWhile, List.reverse_reverse,
    Str.trimStart, List.takeWhile_append_dropWhile]

/-- The white space that the server's scanner skips. -/
def isBlankChar (c : Char) : Bool :=
  c.toNat == 0x20 || c.toNat == 0x09 || c.toNat == 0x0A || c.toNat == 0x0D || c.toNat == 0x0C

/-- A number, in white space that the server skips. -/
structure PlainNumber (text : String) : Prop where
  digits : String.ofList (Str.trim text.toList) ∉
    ["NaN", "Infinity", "-Infinity", "+Infinity"]
  blanks : ∀ c ∈ text.toList, Str.isWhitespace c → isBlankChar c

theorem encode_blank {c : Char} (h : isBlankChar c) :
    ∃ b, String.utf8EncodeChar c = [b] ∧ Sql.Pg.isSpace b := by
  simp only [isBlankChar, Bool.or_eq_true, beq_iff_eq] at h
  refine ⟨_, Str.encode_ascii (by omega), Sql.Pg.isSpace_iff.mpr ?_⟩
  rw [Str.toNat_byte (by omega)]
  omega

theorem encode_blanks {cs : List Char} (h : ∀ c ∈ cs, isBlankChar c) :
    ∀ b ∈ cs.flatMap String.utf8EncodeChar, Sql.Pg.isSpace b := by
  intro b hb
  obtain ⟨c, hc, hb⟩ := List.mem_flatMap.mp hb
  obtain ⟨d, hd, hspace⟩ := encode_blank (h c hc)
  rw [hd, List.mem_singleton] at hb
  exact hb ▸ hspace

theorem Literal.not_blank {ts : List Token} (h : Literal ts) : ∀ l ∈ ts, l.kind ≠ .blank := by
  have hscalar : ∀ {ts : List Token}, ScalarLiteral ts → ∀ l ∈ ts, l.kind ≠ .blank := by
    intro ts hts
    cases hts <;> simp [word]
  cases h with
  | scalar hts => exact hscalar hts
  | array hfirst hrest =>
    intro l hl
    simp only [List.mem_cons, List.mem_append, List.mem_flatMap, List.not_mem_nil, or_false] at hl
    rcases hl with rfl | rfl | (hl | ⟨ts, hts, rfl | hl⟩) | rfl
    · simp [word]
    · simp [symbol]
    · exact hscalar hfirst l hl
    · simp [symbol]
    · exact hscalar (hrest ts hts) l hl
    · simp [symbol]
  | emptyArray _ => simp [word, symbol, castTo]
  | stringCast _ => simp [word, symbol, castTo]

/-- A literal with blanks on both sides. -/
theorem LexicallyClosed.of_reads {s : String} {lead t trail : Bytes} {ts : List Token}
    (hs : Str.asBytes s = lead ++ (t ++ trail)) (hlead : ∀ b ∈ lead, Sql.Pg.isSpace b)
    (htrail : ∀ b ∈ trail, Sql.Pg.isSpace b) (hts : Literal ts)
    (hreads : Sql.Reads munch (t ++ trail) ts trail) : LexicallyClosed s := by
  obtain ⟨ls, hlex, hkept⟩ := Sql.Pg.lex_within hlead htrail hts.not_blank hreads
  exact ⟨ls, hs ▸ hlex, hkept ▸ hts⟩

theorem LiteralText.closed {s : String} (h : LiteralText s) : LexicallyClosed s := by
  obtain ⟨ts, hts, hreads⟩ := h
  have hs : Str.asBytes s = [] ++ (Str.asBytes s ++ []) := by simp
  refine .of_reads hs (by simp) (by simp) hts ?_
  rwa [List.append_nil]

/-- The digits of a number, without white space and its sign. -/
def digitsOf (text : String) : Bytes :=
  skipSign (Str.asBytes (String.ofList (Str.trim text.toList)))

/-- A number that the check lets through, with white space that the server skips, is a number
for the server. -/
theorem PlainNumber.spells {text : String} (hsafe : isSafeNumeric text = true)
    (h : PlainNumber text) :
    ∃ sign, SpellsNumber sign (digitsOf text) (Str.asBytes text) := by
  obtain ⟨lead, trail, hsplit, hlead, htrail⟩ := trim_split text.toList
  have hnumber : Sql.Pg.Number (digitsOf text) :=
    (isSafeNumeric_cases hsafe).resolve_left h.digits
  have hblank : ∀ cs : List Char, (∀ c ∈ cs, c ∈ text.toList ∧ Str.isWhitespace c) →
      ∀ b ∈ cs.flatMap String.utf8EncodeChar, Sql.Pg.isSpace b := fun cs hcs =>
    encode_blanks fun c hc => h.blanks c (hcs c hc).1 (hcs c hc).2
  have hlead' := hblank lead fun c hc => ⟨by rw [hsplit]; simp [hc], hlead c hc⟩
  have htrail' := hblank trail fun c hc => ⟨by rw [hsplit]; simp [hc], htrail c hc⟩
  have hbytes : Str.asBytes text = lead.flatMap String.utf8EncodeChar ++
      (Str.asBytes (String.ofList (Str.trim text.toList)) ++
        trail.flatMap String.utf8EncodeChar) := by
    have hall := congrArg (List.flatMap String.utf8EncodeChar) hsplit
    rwa [List.flatMap_append, List.flatMap_append,
      ← String.toList_ofList (l := Str.trim text.toList)] at hall
  rw [digitsOf] at hnumber ⊢
  generalize Str.asBytes (String.ofList (Str.trim text.toList)) = core at hnumber hbytes ⊢
  cases core with
  | nil =>
    obtain ⟨b, bs, hnil, -⟩ := hnumber.starts
    exact absurd hnil (by simp [skipSign])
  | cons b bs =>
    by_cases hb : isSign b
    · have hsign : [b] ∈ Sql.Pg.signs := by
        rcases Sql.Pg.isSign_iff.mp hb with rfl | rfl <;> decide
      rw [skipSign, if_pos hb] at hnumber ⊢
      exact ⟨[b], hsign, hnumber, _, _, hbytes, hlead', htrail'⟩
    · rw [skipSign, if_neg hb] at hnumber ⊢
      exact ⟨[], by decide, hnumber, _, _, hbytes, hlead', htrail'⟩

theorem Literal.signed {sign t : Bytes} (hsign : sign ∈ Sql.Pg.signs) :
    Literal (Sql.Pg.numberTokens sign t) := by
  simp only [Sql.Pg.signs, List.mem_cons, List.not_mem_nil, or_false] at hsign
  rcases hsign with rfl | rfl | rfl
  · exact .scalar .number
  · exact .scalar (.signed (by decide))
  · exact .scalar (.signed (by decide))

theorem closed_of_spells {sign t : Bytes} {text : String}
    (h : SpellsNumber sign t (Str.asBytes text)) : LexicallyClosed text := by
  obtain ⟨ls, hlex, hkept⟩ := h.lex
  exact ⟨ls, hlex, hkept ▸ .signed h.sign_mem⟩

/-- A number that the check lets through is closed in white space that the server skips. -/
theorem PlainNumber.closed {text : String} (hsafe : isSafeNumeric text = true)
    (h : PlainNumber text) : LexicallyClosed text := by
  obtain ⟨sign, hspells⟩ := h.spells hsafe
  exact closed_of_spells hspells

/-! ## What the other numbers are read as -/

/-- The bytes that a number and its signs do not have, one of which every other literal has. -/
def marks : Bytes := [0x27, 0x5B, 0x4C, 0x54, 0x46]

/-- A literal without quotes, brackets and keywords is a number with at most a sign. -/
theorem Literal.numerals {ts : List Token} (h : Literal ts)
    (hspelled : ∀ l ∈ ts, Sql.Pg.Spelled l) (hmarks : ∀ l ∈ ts, ∀ b ∈ l.text, b ∉ marks) :
    ∀ l ∈ ts, ∀ b ∈ l.text, Sql.Pg.isNumeral b := by
  have hbracket : symbol "[" ∉ ts := fun hl => hmarks _ hl 0x5B (by decide) (by decide)
  cases h with
  | scalar hts =>
    cases hts with
    | @keyword w hw =>
      simp only [List.mem_cons, List.not_mem_nil, or_false] at hw
      rcases hw with rfl | rfl | rfl
      · exact absurd (by decide) (hmarks _ (List.mem_singleton_self _) 0x4C (by decide))
      · exact absurd (by decide) (hmarks _ (List.mem_singleton_self _) 0x54 (by decide))
      · exact absurd (by decide) (hmarks _ (List.mem_singleton_self _) 0x46 (by decide))
    | number => exact fun l hl => (hspelled l hl).number (by simp_all)
    | @signed sign t hsign =>
      intro l hl
      rcases List.mem_cons.mp hl with rfl | hl'
      · simp [Sql.Pg.isNumeral, hsign]
      · exact (hspelled l hl).number (by simp_all)
    | string =>
      have hquote := (hspelled _ (List.mem_singleton_self _)).string rfl
      exact absurd (by decide) (hmarks _ (List.mem_singleton_self _) 0x27 hquote)
  | array _ _ => exact absurd (by simp) hbracket
  | emptyArray _ => exact absurd (by simp) hbracket
  | stringCast _ => exact absurd (by simp [castTo]) hbracket

theorem LexicallyClosed.numerals {s : String} (h : LexicallyClosed s)
    (hmarks : ∀ b ∈ Str.asBytes s, b ∉ marks) :
    ∀ b ∈ Str.asBytes s, Sql.Pg.isSpace b ∨ Sql.Pg.isNumeral b := by
  obtain ⟨ls, hlex, hts⟩ := h
  have hspelled := Sql.Pg.spelled_lex hlex
  have hnumerals := hts.numerals (fun l hl => hspelled l (List.mem_of_mem_filter hl))
    fun l hl b hb => hmarks b (Sql.Pg.mem_of_lex hlex hl hb)
  exact Sql.Pg.lex_numerals hlex hnumerals

theorem not_numeral_high {b : UInt8} (hb : ¬ b < 0x80) :
    b ∉ marks ∧ ¬ (Sql.Pg.isSpace b ∨ Sql.Pg.isNumeral b) := by
  simp only [UInt8.lt_iff_toNat_lt, UInt8.reduceToNat] at hb
  simp only [marks, List.mem_cons, List.not_mem_nil, or_false, Sql.Pg.isNumeral, Bool.or_eq_true,
    beq_iff_eq, Sql.Pg.isSpace_iff, Sql.Pg.isDigit_iff, Sql.Pg.isSign_iff, Sql.Pg.eq_byte_iff,
    UInt8.reduceToNat]
  omega

set_option maxRecDepth 4000 in
/-- White space has none of the marks; what the server does not skip is no blank. -/
theorem encode_whitespace {c : Char} (h : Str.isWhitespace c) :
    (∀ b ∈ String.utf8EncodeChar c, b ∉ marks) ∧
      (¬ isBlankChar c → ∃ b ∈ String.utf8EncodeChar c,
        ¬ (Sql.Pg.isSpace b ∨ Sql.Pg.isNumeral b)) := by
  by_cases hascii : c.toNat < 0x80
  · have hrange : c.toNat = 32 ∨ (9 ≤ c.toNat ∧ c.toNat ≤ 13) := by
      simp only [Str.isWhitespace, Bool.or_eq_true, Bool.and_eq_true, decide_eq_true_eq,
        beq_iff_eq] at h
      omega
    have hvalues : c.toNat = 32 ∨ c.toNat = 9 ∨ c.toNat = 10 ∨ c.toNat = 11 ∨ c.toNat = 12 ∨
        c.toNat = 13 := by omega
    rw [Str.encode_ascii hascii, isBlankChar]
    rcases hvalues with h | h | h | h | h | h <;> rw [h] <;> decide
  · have hhigh := Str.encode_high hascii
    obtain ⟨b, tail, henc, -⟩ := Str.encode_shape c
    have hb : b ∈ String.utf8EncodeChar c := by simp [henc]
    exact ⟨fun d hd => (not_numeral_high (hhigh d hd)).1,
      fun _ => ⟨b, hb, (not_numeral_high (hhigh b hb)).2⟩⟩

theorem not_mem_marks {b : UInt8} (hb : Sql.Pg.isNumeral b) : b ∉ marks := by
  simp only [marks, List.mem_cons, List.not_mem_nil, or_false]
  rintro (rfl | rfl | rfl | rfl | rfl) <;> exact absurd hb (by decide)

set_option maxRecDepth 4000 in
/-- The words for what is no number, letter by letter. -/
theorem wrongWord_bytes {w : String} (hw : w ∈ ["NaN", "Infinity", "-Infinity", "+Infinity"]) :
    (∀ b ∈ Str.asBytes w, b ∉ marks) ∧
      ∃ b ∈ Str.asBytes w, ¬ (Sql.Pg.isSpace b ∨ Sql.Pg.isNumeral b) := by
  simp only [List.mem_cons, List.not_mem_nil, or_false] at hw
  rcases hw with rfl | rfl | rfl | rfl <;> decide

section
variable {P : UInt8 → Prop} (hnumeral : ∀ b, Sql.Pg.isNumeral b → P b)
  (hword : ∀ w ∈ ["NaN", "Infinity", "-Infinity", "+Infinity"], ∀ b ∈ Str.asBytes w, P b)

include hnumeral hword in
theorem safe_core_bytes {core : String}
    (h : core ∈ ["NaN", "Infinity", "-Infinity", "+Infinity"] ∨
      Sql.Pg.Number (skipSign (Str.asBytes core))) : ∀ b ∈ Str.asBytes core, P b := by
  rcases h with hcore | hnumber
  · exact hword core hcore
  · have hdigits : ∀ b ∈ skipSign (Str.asBytes core), Sql.Pg.isNumeral b := by
      have hall := Sql.Pg.numberLen_numeral hnumber.whole
      rwa [List.take_length] at hall
    intro b hb
    refine hnumeral b ?_
    cases hbytes : Str.asBytes core with
    | nil => simp [hbytes] at hb
    | cons a as =>
      rw [hbytes] at hb hdigits
      by_cases ha : isSign a
      · rw [skipSign, if_pos ha] at hdigits
        rcases List.mem_cons.mp hb with rfl | hb
        · have ha' : Sql.Pg.isSign b = true := ha
          simp [Sql.Pg.isNumeral, ha']
        · exact hdigits b hb
      · rw [skipSign, if_neg ha] at hdigits
        exact hdigits b hb

include hnumeral hword in
/-- What the check lets through is made of the bytes of numbers, of the words for what is no
number and of white space. -/
theorem isSafeNumeric_bytes {text : String} (h : isSafeNumeric text = true)
    (hspace : ∀ c, Str.isWhitespace c → ∀ b ∈ String.utf8EncodeChar c, P b) :
    ∀ b ∈ Str.asBytes text, P b := by
  obtain ⟨lead, trail, hsplit, hlead, htrail⟩ := trim_split text.toList
  have hcore := safe_core_bytes hnumeral hword (isSafeNumeric_cases h)
  intro b hb
  obtain ⟨c, hc, hb⟩ := List.mem_flatMap.mp hb
  rw [hsplit] at hc
  rcases List.mem_append.mp hc with hc | hc
  · exact hspace c (hlead c hc) b hb
  · rcases List.mem_append.mp hc with hc | hc
    · refine hcore b (List.mem_flatMap.mpr ⟨c, ?_, hb⟩)
      rwa [String.toList_ofList]
    · exact hspace c (htrail c hc) b hb

end

/-- A number has none of the marks, nor do the words for what is no number. -/
theorem isSafeNumeric_marks {text : String} (h : isSafeNumeric text = true) :
    ∀ b ∈ Str.asBytes text, b ∉ marks :=
  isSafeNumeric_bytes (fun _ hb => not_mem_marks hb) (fun _ hw => (wrongWord_bytes hw).1) h
    fun _ hc => (encode_whitespace hc).1

/-- Where the server finds blanks and a number, it skips all the white space. -/
theorem PlainNumber.of_numerals {text : String}
    (hall : ∀ b ∈ Str.asBytes text, Sql.Pg.isSpace b ∨ Sql.Pg.isNumeral b) :
    PlainNumber text := by
  obtain ⟨lead, trail, hsplit, -, -⟩ := trim_split text.toList
  constructor
  · intro hword
    obtain ⟨b, hb, hbad⟩ := (wrongWord_bytes hword).2
    obtain ⟨c, hc, hb⟩ := List.mem_flatMap.mp hb
    rw [String.toList_ofList] at hc
    exact hbad (hall b (List.mem_flatMap.mpr ⟨c, by rw [hsplit]; simp [hc], hb⟩))
  · intro c hc hspace
    by_contra hblank
    obtain ⟨b, hb, hbad⟩ := (encode_whitespace hspace).2 hblank
    exact hbad (hall b (List.mem_flatMap.mpr ⟨c, hc, hb⟩))

theorem PlainNumber.of_closed {text : String} (hsafe : isSafeNumeric text = true)
    (h : LexicallyClosed text) : PlainNumber text :=
  .of_numerals (h.numerals (isSafeNumeric_marks hsafe))

/-! ## Every rendered parameter -/

/-- The payload is written as the client spelled it, and is no number to the server. -/
def SpelledWrong (oid fmt : ℤ) (b : Bytes) : Prop :=
  fmt ≠ 1 ∧ isNumericOid oid = true ∧ isSafeNumeric (Str.fromUtf8Lossy b) = true ∧
    ¬ PlainNumber (Str.fromUtf8Lossy b)

/-- An array type is none of the numeric types. -/
theorem not_numeric_of_array {oid elem : ℤ} (h : arrayElemOid oid = some elem) :
    isNumericOid oid = false := by
  by_contra hnumeric
  have hnone : ∀ oid ∈ [oidInt2, oidInt4, oidInt8, oidOid, oidFloat4, oidFloat8, oidNumeric],
      arrayElemOid oid = none := by decide
  rw [Bool.not_eq_false, isNumericOid, List.contains_iff_mem] at hnumeric
  simp [hnone oid hnumeric] at h

theorem renderText_closed_iff {oid fmt : ℤ} {b : Bytes} (hfmt : fmt ≠ 1) :
    LexicallyClosed (renderText oid b) ↔ ¬ SpelledWrong oid fmt b := by
  unfold renderText
  dsimp only
  by_cases hbool : oid = oidBool
  · have hplain : ¬ SpelledWrong oid fmt b := by
      rintro ⟨-, hnumeric, -⟩
      subst hbool
      exact absurd hnumeric (by decide)
    rw [if_pos hbool]
    refine iff_of_true ?_ hplain
    split_ifs
    · exact (ScalarText.keyword (by simp)).literal.closed
    · exact (ScalarText.keyword (by simp)).literal.closed
  · rw [if_neg hbool]
    by_cases hnum : (isNumericOid oid && isSafeNumeric (Str.fromUtf8Lossy b)) = true
    · rw [if_pos hnum]
      rw [Bool.and_eq_true] at hnum
      constructor
      · exact fun hclosed hwrong => hwrong.2.2.2 (.of_closed hnum.2 hclosed)
      · intro hplain
        have hnumber : PlainNumber (Str.fromUtf8Lossy b) := by
          by_contra hno
          exact hplain ⟨hfmt, hnum.1, hnum.2, hno⟩
        exact hnumber.closed hnum.2
    · rw [if_neg hnum]
      refine iff_of_true (ScalarText.quoteLit _).literal.closed ?_
      rintro ⟨-, hnumeric, hsafe, -⟩
      exact hnum (by simp [hnumeric, hsafe])

/-- A rendered parameter is one literal for the server, unless it is a numeric text that the
check lets through and the server does not read as a number: one of the words for what is no
number, or a number in white space that the server does not skip. -/
theorem renderParam_closed_iff {deps : SessionDeps} (hprints : PrintsDecimals deps)
    {oid fmt : ℤ} {payload : Option Bytes} {s : String}
    (h : renderParam deps oid fmt payload = .ok s) :
    LexicallyClosed s ↔ ¬ ∃ b, payload = some b ∧ SpelledWrong oid fmt b := by
  cases payload with
  | none =>
    obtain rfl := Outcome.ok.inj h
    exact iff_of_true (ScalarText.keyword (by simp)).literal.closed (by simp)
  | some b =>
    simp only [Option.some.injEq, exists_eq_left']
    rw [renderParam] at h
    cases helem : arrayElemOid oid with
    | some elem =>
      rw [helem] at h
      refine iff_of_true (renderArray_literal hprints h).closed ?_
      rintro ⟨-, hnumeric, -⟩
      rw [not_numeric_of_array helem] at hnumeric
      exact Bool.false_ne_true hnumeric
    | none =>
      rw [helem] at h
      dsimp only [renderScalar] at h
      by_cases hfmt : fmt = 1
      · rw [if_pos hfmt] at h
        exact iff_of_true (renderBinary_scalar hprints h).literal.closed fun hwrong =>
          hwrong.1 hfmt
      · rw [if_neg hfmt] at h
        obtain rfl := Outcome.ok.inj h
        exact renderText_closed_iff hfmt

/-- Third-party code of which only the printing of one float is ever used. -/
def literalDeps : SessionDeps where
  sqlparser := ⟨fun _ => .error "expected a statement", fun _ => .error "expected a statement",
    fun _ => ""⟩
  sha256 _ := List.replicate 32 0
  sha1 _ := List.replicate 20 0
  widenF32 bits := bits.toUInt64
  showF64 _ := "1.5"
  formatFloat _ := "1.5"

theorem literalDeps_prints : PrintsDecimals literalDeps := by
  intro bits _
  have hbytes : Str.asBytes "1.5" = [0x31] ++ [0x2E, 0x35] := by decide
  have hone : ∀ b ∈ [(0x31 : UInt8)], isDigit b := by simp [isDigit]
  have hfive : ∀ b ∈ [(0x35 : UInt8)], isDigit b := by simp [isDigit]
  exact .inl ⟨_, _, hbytes, by simp, hone, .inr ⟨_, rfl, by simp, hfive⟩⟩

/-- The bits of 1.5. -/
theorem renderParam_float :
    renderParam literalDeps oidFloat8 1 (some [0x3F, 0xF8, 0, 0, 0, 0, 0, 0]) = .ok "1.5" := by
  have harray : arrayElemOid oidFloat8 = none := by decide
  have hbinary : renderBinary literalDeps oidFloat8 [0x3F, 0xF8, 0, 0, 0, 0, 0, 0] =
      .ok (fmtFloat literalDeps (UInt64.ofNat (fromBe [0x3F, 0xF8, 0, 0, 0, 0, 0, 0]))) := rfl
  have hfinite : (UInt64.ofNat (fromBe [0x3F, 0xF8, 0, 0, 0, 0, 0, 0])).toNat / 2 ^ 52 %
      2 ^ 11 ≠ 2 ^ 11 - 1 := by decide
  simp only [renderParam, harray, renderScalar, if_true, hbinary, fmtFloat, if_pos hfinite]
  rfl

/-- The bits of 1.5 are rendered as a number. -/
theorem renderParam_closed_float :
    LexicallyClosed "1.5" ↔ ¬ ∃ b, some [0x3F, 0xF8, 0, 0, 0, 0, 0, 0] = some b ∧
      SpelledWrong oidFloat8 1 b :=
  renderParam_closed_iff literalDeps_prints renderParam_float

/-- The text `NaN` of a float is spliced in as a bare word. -/
theorem not_renderParam_closed :
    ¬ ∀ (oid fmt : ℤ) (payload : Option Bytes) (s : String),
      renderParam literalDeps oid fmt payload = .ok s → LexicallyClosed s := by
  intro hclosed
  have hword : "NaN" ∈ ["NaN", "Infinity", "-Infinity", "+Infinity"] := by simp
  have hnan := hclosed oidFloat8 0 (some [0x4E, 0x61, 0x4E]) "NaN" rfl
  obtain ⟨hmarks, b, hb, hbad⟩ := wrongWord_bytes hword
  exact hbad (hnan.numerals hmarks b hb)

end MiddleWhere.Net
