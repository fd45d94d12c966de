import MiddleWhere.Sql.PgLexer
import Mathlib.Data.List.TakeWhile

/-!
# What is read of one lexeme

Each kind of lexeme is read whole when what follows cannot be a part of it: a number before
anything but digits, points and letters, a string before anything but a quote and the white
space that resumes it.
-/

namespace MiddleWhere.Sql.Pg

variable {b : UInt8} {bs t rest : Bytes}

theorem takeWhile_append_stop {α : Type} {p : α → Bool} {as : List α} (rest : List α)
    (has : ∀ a ∈ as, p a) (hrest : ∀ a, rest.head? = some a → ¬ p a) :
    (as ++ rest).takeWhile p = as ∧ (as ++ rest).dropWhile p = rest := by
  have htake : rest.takeWhile p = [] := by
    cases rest with
    | nil => rfl
    | cons a rest => rw [List.takeWhile_cons_of_neg (hrest a rfl)]
  have hdrop : rest.dropWhile p = rest := by
    cases rest with
    | nil => rfl
    | cons a rest => rw [List.dropWhile_cons_of_neg (hrest a rfl)]
  rw [List.takeWhile_append_of_pos has, List.dropWhile_append_of_pos has, htake, hdrop]
  simp

/-! ## Character classes -/

theorem isSpace_iff : isSpace b ↔
    b.toNat = 32 ∨ b.toNat = 9 ∨ b.toNat = 10 ∨ b.toNat = 13 ∨ b.toNat = 12 := by
  simp [isSpace, ← UInt8.toNat_inj, or_assoc]

theorem isDigit_iff : isDigit b ↔ 48 ≤ b.toNat ∧ b.toNat ≤ 57 := by
  simp [isDigit, UInt8.le_iff_toNat_le]

theorem isIdentStart_iff : isIdentStart b ↔ (65 ≤ b.toNat ∧ b.toNat ≤ 90) ∨
    (97 ≤ b.toNat ∧ b.toNat ≤ 122) ∨ b.toNat = 95 ∨ 128 ≤ b.toNat := by
  simp [isIdentStart, isAlpha, UInt8.le_iff_toNat_le, ← UInt8.toNat_inj, or_assoc]

theorem isSign_iff : isSign b ↔ b = 0x2B ∨ b = 0x2D := by
  simp [isSign]

theorem eq_byte_iff {c : UInt8} : b = c ↔ b.toNat = c.toNat := UInt8.toNat_inj.symm

/-- The bytes that a quoted text can open with. -/
def openers : Bytes := [0x27, 0x22, 0x65, 0x45, 0x62, 0x42, 0x78, 0x58, 0x75, 0x55]

theorem opening_plain (hb : b ∉ openers) : opening b bs = none := by
  simp only [openers, List.mem_cons, List.not_mem_nil, or_false, not_or] at hb
  simp [opening, hb]

/-! ## Blanks and words -/

theorem munch_space (hb : isSpace b) : munch (b :: bs) = some (.blank, 0) := by
  have hopen : b ∉ openers := by
    simp only [isSpace, Bool.or_eq_true, beq_iff_eq] at hb
    rcases hb with (((rfl | rfl) | rfl) | rfl) | rfl <;> decide
  rw [munch, opening_plain hopen]
  simp only [hb, if_true]

theorem reads_blanks (ht : ∀ b ∈ t, isSpace b) :
    Reads munch (t ++ rest) (t.map fun b => ⟨.blank, [b]⟩) rest := by
  induction t with
  | nil => exact .done
  | cons b t ih =>
    have hhere : Reads munch (b :: [] ++ (t ++ rest)) [⟨.blank, [b]⟩] (t ++ rest) :=
      .lexeme (munch_space (ht b (by simp)))
    exact hhere.append (ih fun c hc => ht c (by simp [hc]))

theorem munch_ident (hb : isIdentStart b) (hopen : opening b (t ++ rest) = none)
    (ht : ∀ c ∈ t, isIdentCont c) (hrest : ∀ c, rest.head? = some c → ¬ isIdentCont c) :
    munch (b :: t ++ rest) = some (.ident, t.length) := by
  have hplain : ¬ isSpace b ∧ b ≠ 0x2D ∧ b ≠ 0x2F ∧ b ≠ 0x24 ∧ ¬ isDigit b ∧ b ≠ 0x2E := by
    simp only [isSpace_iff, isIdentStart_iff, isDigit_iff, ne_eq, eq_byte_iff,
      UInt8.reduceToNat] at hb ⊢
    omega
  rw [List.cons_append, munch, hopen]
  simp [hplain, hb, (takeWhile_append_stop rest ht hrest).1]

theorem reads_ident (hb : isIdentStart b) (hopen : opening b (t ++ rest) = none)
    (ht : ∀ c ∈ t, isIdentCont c) (hrest : ∀ c, rest.head? = some c → ¬ isIdentCont c) :
    Reads munch (b :: t ++ rest) [⟨.ident, b :: t⟩] rest :=
  .lexeme (munch_ident hb hopen ht hrest)

/-- A word of two letters or more opens no quoted text. -/
theorem opening_word {c : UInt8} (hb : isIdentStart b) (hc : isTagCont c) :
    opening b (c :: bs) = none := by
  have hquote : b ≠ 0x27 ∧ b ≠ 0x22 := by
    constructor <;> rintro rfl <;> exact absurd hb (by decide)
  have hnext : c ≠ 0x27 ∧ c ≠ 0x26 := by
    constructor <;> rintro rfl <;> exact absurd hc (by decide)
  simp [opening, hquote, hnext, hnext.2.symm, List.cons_prefix_cons]

/-! ## Numbers -/

/-- A text that is one number, signs apart. -/
structure Number (t : Bytes) : Prop where
  whole : numberLen t = some t.length
  starts : ∃ b bs, t = b :: bs ∧ (isDigit b ∨ b = 0x2E ∧ bs.head?.any isDigit)

/-- What follows a number without being a part of it. -/
def EndsNumber (rest : Bytes) : Prop :=
  ∀ b, rest.head? = some b → ¬ isDigit b ∧ ¬ isIdentStart b ∧ b ≠ 0x2E

theorem EndsNumber.digits (h : EndsNumber rest) :
    ∀ b, rest.head? = some b → ¬ isDigit b := fun b hb => (h b hb).1

theorem takeWhile_append_stops {p : UInt8 → Bool} (bs : Bytes) (hrest : ∀ b, rest.head? = some b → ¬ p b) :
    (bs ++ rest).takeWhile p = bs.takeWhile p ∧
      (bs ++ rest).dropWhile p = bs.dropWhile p ++ rest := by
  induction bs with
  | nil => exact takeWhile_append_stop rest (by simp) hrest
  | cons b bs ih => by_cases hb : p b <;> simp [hb, ih]

theorem EndsNumber.not_exponent (h : EndsNumber rest) (hb : rest.head? = some b) :
    ¬ (b = 0x65 ∨ b = 0x45) := by
  have hstart := (h b hb).2.1
  rintro (rfl | rfl) <;> exact hstart (by decide)

theorem EndsNumber.not_letter (h : EndsNumber rest) : ¬ rest.head?.any isIdentStart := by
  cases rest with
  | nil => simp
  | cons b rest => simpa using (h b rfl).2.1

theorem exponentDigits_append {len n : ℕ} (h : exponentDigits len bs = some n)
    (hrest : EndsNumber rest) : exponentDigits len (bs ++ rest) = some n := by
  have hdigits := takeWhile_append_stops bs hrest.digits
  have hletter : ((bs.dropWhile isDigit ++ rest).head?.any isIdentStart) =
      (bs.dropWhile isDigit).head?.any isIdentStart := by
    cases hmore : bs.dropWhile isDigit with
    | nil => simpa using hrest.not_letter
    | cons b more => rfl
  simpa only [exponentDigits, hdigits.1, hdigits.2, hletter] using h

theorem signLen_append {rest' : Bytes} (hbs : bs ≠ []) : signLen (bs ++ rest') = signLen bs := by
  cases bs with
  | nil => exact absurd rfl hbs
  | cons b bs => rfl

theorem signLen_le (bs : Bytes) (hbs : bs ≠ []) : signLen bs ≤ bs.length := by
  have hpos := List.length_pos_iff.mpr hbs
  unfold signLen
  split_ifs <;> omega

theorem exponentLen_append {len n : ℕ} (h : exponentLen len bs = some n)
    (hrest : EndsNumber rest) : exponentLen len (bs ++ rest) = some n := by
  cases bs with
  | nil =>
    cases rest with
    | nil => exact h
    | cons b rest =>
      have hexp := hrest.not_exponent (b := b) rfl
      have hstart := (hrest b rfl).2.1
      rw [List.nil_append, exponentLen, if_neg hexp, if_neg hstart]
      exact h
  | cons b bs =>
    rw [List.cons_append]
    by_cases hexp : b = 0x65 ∨ b = 0x45
    · rw [exponentLen, if_pos hexp] at h ⊢
      have hbs : bs ≠ [] := by
        rintro rfl
        simp [exponentDigits] at h
      rw [signLen_append hbs, List.drop_append_of_le_length (signLen_le bs hbs)]
      exact exponentDigits_append h hrest
    · rw [exponentLen, if_neg hexp] at h ⊢
      exact h

/-- Whether a point follows does not depend on what ends the number. -/
theorem EndsNumber.point (h : EndsNumber rest) :
    ((bs ++ rest).head? = some 0x2E ↔ bs.head? = some 0x2E) ∧
      ([0x2E, 0x2E] <+: bs ++ rest ↔ [0x2E, 0x2E] <+: bs) := by
  have hrest : rest.head? ≠ some 0x2E := fun hb => (h _ hb).2.2 rfl
  match bs with
  | [] =>
    cases rest with
    | nil => simp
    | cons b rest =>
      have hb : b ≠ 0x2E := fun h => hrest (congrArg some h)
      simp [hb, hb.symm, List.cons_prefix_cons]
  | [b] =>
    cases rest with
    | nil => simp
    | cons c rest =>
      have hc : c ≠ 0x2E := fun h => hrest (congrArg some h)
      simp [hc.symm, List.cons_prefix_cons]
  | b :: c :: bs => simp [List.cons_prefix_cons]

theorem numberLen_append {n : ℕ} (h : numberLen bs = some n) (hrest : EndsNumber rest) :
    numberLen (bs ++ rest) = some n := by
  have hdigits := takeWhile_append_stops bs hrest.digits
  simp only [numberLen, hdigits.1, hdigits.2, hrest.point] at h ⊢
  generalize bs.dropWhile isDigit = more at h ⊢
  by_cases hdots : [0x2E, 0x2E] <+: more
  · rwa [if_pos hdots] at h ⊢
  · rw [if_neg hdots] at h ⊢
    by_cases hpoint : more.head? = some 0x2E
    · obtain ⟨more, rfl⟩ : ∃ more', more = 0x2E :: more' := by
        cases more <;> simp_all
      have hfrac := takeWhile_append_stops more hrest.digits
      rw [if_pos hpoint] at h ⊢
      simp only [List.cons_append, List.tail_cons, hfrac.1, hfrac.2] at h ⊢
      exact exponentLen_append h hrest
    · rw [if_neg hpoint] at h ⊢
      exact exponentLen_append h hrest

theorem Number.cons (h : Number t) : ∃ b bs, t = b :: bs ∧ (isDigit b ∨ b = 0x2E) := by
  obtain ⟨b, bs, rfl, hb⟩ := h.starts
  exact ⟨b, bs, rfl, hb.imp_right And.left⟩

/-- A number is read whole, and starts with no sign. -/
theorem Number.munch (h : Number t) (hrest : EndsNumber rest) :
    munch (t ++ rest) = some (.number, t.length - 1) := by
  obtain ⟨b, bs, rfl, hb⟩ := h.starts
  have hstart : isDigit b ∨ b = 0x2E ∧ (bs ++ rest).head?.any isDigit := by
    refine hb.imp_right (And.imp_right fun hd => ?_)
    cases bs with
    | nil => simp at hd
    | cons c bs => exact hd
  have hrange : isDigit b ∨ b = 0x2E := hb.imp_right And.left
  have hplain : ¬ isSpace b ∧ b ≠ 0x2D ∧ b ≠ 0x2F ∧ b ≠ 0x24 := by
    simp only [isSpace_iff, isDigit_iff, ne_eq, eq_byte_iff, UInt8.reduceToNat] at hrange ⊢
    omega
  have hopen : b ∉ openers := by
    simp only [openers, isDigit_iff, List.mem_cons, List.not_mem_nil, or_false, eq_byte_iff,
      UInt8.reduceToNat] at hrange ⊢
    omega
  rw [List.cons_append, Pg.munch, opening_plain hopen]
  simp only [hplain, hstart, if_true, if_false, false_and, ← List.cons_append, Bool.false_eq_true,
    numberLen_append h.whole hrest, Option.map_some]

theorem reads_number (h : Number t) (hrest : EndsNumber rest) :
    Reads munch (t ++ rest) [⟨.number, t⟩] rest := by
  obtain ⟨b, bs, rfl, -⟩ := h.cons
  exact .lexeme (h.munch hrest)

/-- A sign before a number is an operator of its own. -/
theorem reads_sign (hb : isSign b) (h : Number t) :
    Reads munch (b :: t ++ rest) [⟨.op, [b]⟩] (t ++ rest) := by
  obtain ⟨c, bs, rfl, hc⟩ := h.cons
  have hop : opChars.contains c = false ∧ c ≠ 0x2D := by
    rcases hc with hc | rfl
    · rw [isDigit_iff] at hc
      simp only [opChars, nonSqlOps, List.contains_eq_mem, decide_eq_false_iff_not, List.mem_cons,
        List.cons_append, List.nil_append, List.not_mem_nil, or_false, eq_byte_iff, ne_eq,
        UInt8.reduceToNat]
      omega
    · decide
  have hmore : opMore b (c :: bs ++ rest) = 0 := by
    have hrun : (c :: bs ++ rest).takeWhile (opChars.contains ·) = [] := by
      rw [List.cons_append, List.takeWhile_cons_of_neg (by rw [hop.1]; decide)]
    rw [opMore, hrun]
    rcases isSign_iff.mp hb with rfl | rfl <;> rfl
  suffices hmunch : munch (b :: [] ++ (c :: bs ++ rest)) = some (.op, 0) from .lexeme hmunch
  rcases isSign_iff.mp hb with rfl | rfl <;>
    simp [munch, opening, isSpace, isDigit, isIdentStart, isAlpha, opChars, nonSqlOps, hop.2] <;>
    exact hmore

theorem Number.digits {digits : Bytes} (hne : digits ≠ []) (hdigits : ∀ b ∈ digits, isDigit b) :
    Number digits := by
  have hrun := takeWhile_append_stop [] hdigits (by simp)
  rw [List.append_nil] at hrun
  constructor
  · simp [numberLen, hrun, exponentLen]
  · cases digits with
    | nil => exact absurd rfl hne
    | cons b bs => exact ⟨b, bs, rfl, .inl (hdigits b (by simp))⟩

theorem Number.fraction {digits ds : Bytes} (hdigits : ∀ b ∈ digits, isDigit b) (hne : ds ≠ [])
    (hds : ∀ b ∈ ds, isDigit b) : Number (digits ++ 0x2E :: ds) := by
  have hrun := takeWhile_append_stop (0x2E :: ds) hdigits (by
    rintro b hb
    obtain rfl : 0x2E = b := by simpa using hb
    decide)
  have hfrac := takeWhile_append_stop [] hds (by simp)
  rw [List.append_nil] at hfrac
  obtain ⟨d, ds, rfl⟩ := List.exists_cons_of_ne_nil hne
  have hd : isDigit d := hds d (by simp)
  have hdot : (0x2E : UInt8) ≠ d := by
    rintro rfl
    exact absurd hd (by decide)
  constructor
  · simp only [numberLen, hrun, List.cons_prefix_cons, hdot, false_and, and_false, if_false,
      List.head?_cons, if_true, List.tail_cons, hfrac, exponentLen, List.length_append,
      List.length_cons, Option.some.injEq]
    omega
  · cases digits with
    | nil => exact ⟨_, _, rfl, .inr ⟨rfl, by simpa using hd⟩⟩
    | cons b bs => exact ⟨_, _, rfl, .inl (hdigits b (by simp))⟩

/-! ## Numbers in white space -/

theorem endsNumber_blanks (h : ∀ b ∈ rest, isSpace b) : EndsNumber rest := by
  intro b hb
  have hspace := h b (List.mem_of_mem_head? hb)
  simp only [isSpace_iff, isDigit_iff, isIdentStart_iff, ne_eq, eq_byte_iff,
    UInt8.reduceToNat] at hspace ⊢
  omega

/-- What is read of a text between blanks is all that its lexemes are. -/
theorem lex_within {lead : Bytes} {ts : List Token} (hlead : ∀ b ∈ lead, isSpace b)
    (hrest : ∀ b ∈ rest, isSpace b) (hts : ∀ l ∈ ts, l.kind ≠ .blank)
    (h : Reads munch (t ++ rest) ts rest) :
    ∃ ls, lex (lead ++ (t ++ rest)) = some ls ∧ ls.filter (·.kind ≠ .blank) = ts := by
  have hend : Reads munch (rest ++ []) (rest.map fun b => ⟨.blank, [b]⟩) [] := reads_blanks hrest
  rw [List.append_nil] at hend
  have hall := (reads_blanks hlead).append (h.append hend)
  have hblanks : ∀ bs : Bytes,
      (bs.map fun b => (⟨.blank, [b]⟩ : Token)).filter (·.kind ≠ .blank) = [] := by
    simp
  have hkept : ts.filter (·.kind ≠ .blank) = ts :=
    List.filter_eq_self.mpr fun l hl => decide_eq_true (hts l hl)
  refine ⟨_, Sql.lex_eq_some_iff.mpr hall, ?_⟩
  rw [List.filter_append, List.filter_append, hblanks, hblanks, hkept, List.nil_append,
    List.append_nil]

def signs : List Bytes := [[], [0x2B], [0x2D]]

/-- A number with at most a sign, and blanks around it. -/
structure SpellsNumber (sign t text : Bytes) : Prop where
  sign_mem : sign ∈ signs
  number : Number t
  blanks : ∃ lead trail, text = lead ++ (sign ++ t ++ trail) ∧ (∀ b ∈ lead, isSpace b) ∧
    ∀ b ∈ trail, isSpace b

def numberTokens (sign t : Bytes) : List Token := sign.map (⟨.op, [·]⟩) ++ [⟨.number, t⟩]

theorem reads_signed {sign : Bytes} (hsign : sign ∈ signs) (h : Number t)
    (hrest : EndsNumber rest) : Reads munch (sign ++ t ++ rest) (numberTokens sign t) rest := by
  have hnumber := reads_number h hrest
  simp only [signs, List.mem_cons, List.not_mem_nil, or_false] at hsign
  rcases hsign with rfl | rfl | rfl
  · exact hnumber
  · exact (reads_sign (by decide) h).append hnumber
  · exact (reads_sign (by decide) h).append hnumber

theorem SpellsNumber.lex {sign text : Bytes} (h : SpellsNumber sign t text) :
    ∃ ls, lex text = some ls ∧ ls.filter (·.kind ≠ .blank) = numberTokens sign t := by
  obtain ⟨lead, trail, rfl, hlead, htrail⟩ := h.blanks
  refine lex_within hlead htrail ?_ (reads_signed h.sign_mem h.number (endsNumber_blanks htrail))
  simp only [numberTokens, List.mem_append, List.mem_map, List.mem_singleton]
  rintro l (⟨b, -, rfl⟩ | rfl) <;> exact Kind.noConfusion

/-- A text is spelled as a number in one way. -/
theorem SpellsNumber.unique {sign sign' t' text : Bytes} (h : SpellsNumber sign t text)
    (h' : SpellsNumber sign' t' text) : sign = sign' ∧ t = t' := by
  obtain ⟨ls, hls, hts⟩ := h.lex
  obtain ⟨ls', hls', hts'⟩ := h'.lex
  obtain rfl : ls = ls' := Option.some.inj (hls.symm.trans hls')
  obtain ⟨hsigns, hnumber⟩ := List.append_inj' (hts.symm.trans hts') rfl
  have hinj : Function.Injective fun b : UInt8 => (⟨.op, [b]⟩ : Token) := by
    intro a b hab
    simpa using hab
  exact ⟨hinj.list_map hsigns, by simpa using hnumber⟩

/-! ## Symbols -/

/-- The symbols that no longer lexeme begins with. -/
def alone : Bytes := [0x2C, 0x28, 0x29, 0x5B, 0x5D, 0x3B]

theorem reads_alone (hb : b ∈ alone) : Reads munch (b :: rest) [⟨.char, [b]⟩] rest := by
  suffices hmunch : munch (b :: [] ++ rest) = some (.char, 0) from .lexeme hmunch
  simp only [alone, List.mem_cons, List.not_mem_nil, or_false] at hb
  rcases hb with rfl | rfl | rfl | rfl | rfl | rfl <;>
    simp [munch, opening, isSpace, isDigit, isIdentStart, isAlpha, opChars, nonSqlOps, isPair]

theorem reads_typecast : Reads munch (0x3A :: 0x3A :: rest) [⟨.char, [0x3A, 0x3A]⟩] rest := by
  suffices hmunch : munch (0x3A :: [0x3A] ++ rest) = some (.char, 1) from .lexeme hmunch
  simp [munch, opening, isSpace, isDigit, isIdentStart, isAlpha, opChars, nonSqlOps, isPair]

/-! ## Bytes of numbers -/

def isNumeral (b : UInt8) : Bool := isDigit b || b == 0x2E || b == 0x65 || b == 0x45 || isSign b

/-- The digits at the front of a text are numerals, and so are those after them. -/
theorem isNumeral_take_digits {m : ℕ}
    (hrest : ∀ b ∈ (bs.dropWhile isDigit).take m, isNumeral b) :
    ∀ b ∈ bs.take ((bs.takeWhile isDigit).length + m), isNumeral b := by
  intro b hb
  have hsplit : bs.takeWhile isDigit ++ bs.dropWhile isDigit = bs :=
    List.takeWhile_append_dropWhile
  have hdigits : ∀ c ∈ bs.takeWhile isDigit, isDigit c := fun c hc => List.mem_takeWhile_imp hc
  generalize bs.takeWhile isDigit = digits at *
  generalize bs.dropWhile isDigit = more at *
  rw [← hsplit, List.take_length_add_append] at hb
  rcases List.mem_append.mp hb with hb | hb
  · simp [isNumeral, hdigits b hb]
  · exact hrest b hb

theorem isNumeral_sign : ∀ b ∈ bs.take (signLen bs), isNumeral b := by
  cases bs with
  | nil => simp
  | cons b bs => by_cases hb : isSign b <;> simp [signLen, isNumeral, hb]

theorem exponentLen_numeral {len n : ℕ} (h : exponentLen len bs = some n) :
    ∃ m, n = len + m ∧ ∀ b ∈ bs.take m, isNumeral b := by
  cases bs with
  | nil =>
    obtain rfl : len = n := by simpa [exponentLen] using h
    exact ⟨0, rfl, by simp⟩
  | cons b bs =>
    rw [exponentLen] at h
    by_cases hexp : b = 0x65 ∨ b = 0x45
    · rw [if_pos hexp, exponentDigits] at h
      split_ifs at h with hbad
      obtain rfl := Option.some.inj h
      have hdigits : ∀ c ∈ (bs.drop (signLen bs)).take
          (((bs.drop (signLen bs)).takeWhile isDigit).length + 0), isNumeral c :=
        isNumeral_take_digits (by simp)
      refine ⟨signLen bs + (((bs.drop (signLen bs)).takeWhile isDigit).length + 0) + 1,
        by omega, ?_⟩
      rw [List.take_succ_cons, List.take_add]
      intro c hc
      rcases List.mem_cons.mp hc with rfl | hc
      · rcases hexp with rfl | rfl <;> decide
      · rcases List.mem_append.mp hc with hc | hc
        · exact isNumeral_sign c hc
        · exact hdigits c hc
    · rw [if_neg hexp] at h
      split_ifs at h with hstart
      obtain rfl := Option.some.inj h
      exact ⟨0, rfl, by simp⟩

/-- A number consists of digits, signs, points and the letter of an exponent. -/
theorem numberLen_numeral {n : ℕ} (h : numberLen bs = some n) :
    ∀ b ∈ bs.take n, isNumeral b := by
  simp only [numberLen] at h
  split_ifs at h with hdots hpoint
  · obtain rfl := Option.some.inj h
    exact isNumeral_take_digits (m := 0) (by simp)
  · obtain ⟨more, hmore⟩ : ∃ more, bs.dropWhile isDigit = 0x2E :: more := by
      cases hrest : bs.dropWhile isDigit with
      | nil => simp [hrest] at hpoint
      | cons b more => exact ⟨more, by simpa [hrest] using hpoint⟩
    rw [hmore, List.tail_cons] at h
    obtain ⟨m, rfl, hm⟩ := exponentLen_numeral h
    rw [show (bs.takeWhile isDigit).length + 1 + (more.takeWhile isDigit).length + m =
      (bs.takeWhile isDigit).length + ((more.takeWhile isDigit).length + m + 1) by omega]
    refine isNumeral_take_digits ?_
    rw [hmore, List.take_succ_cons]
    exact List.forall_mem_cons.mpr ⟨by decide, isNumeral_take_digits hm⟩
  · obtain ⟨m, rfl, hm⟩ := exponentLen_numeral h
    exact isNumeral_take_digits hm

/-- What the first byte of a lexeme and its kind say about its text. -/
structure Spelled (l : Token) : Prop where
  blank : l.kind = .blank → ∀ b ∈ l.text, isSpace b
  string : l.kind = .string → 0x27 ∈ l.text
  number : l.kind = .number → ∀ b ∈ l.text, isNumeral b

theorem spelled_number {n : ℕ} (h : numberLen (b :: bs) = some n)
    (hb : isDigit b ∨ b = 0x2E ∧ bs.head?.any isDigit) :
    ∀ c ∈ b :: bs.take (n - 1), isNumeral c := by
  cases n with
  | zero =>
    have hfirst : isNumeral b := by
      rcases hb with hb | ⟨rfl, -⟩
      · simp [isNumeral, hb]
      · decide
    simpa using hfirst
  | succ n =>
    have hall := numberLen_numeral h
    rwa [List.take_succ_cons] at hall

theorem Spelled.other {k : Kind} (hb : k ≠ .blank) (hs : k ≠ .string) (hn : k ≠ .number) :
    Spelled ⟨k, t⟩ :=
  ⟨fun h => absurd h hb, fun h => absurd h hs, fun h => absurd h hn⟩

theorem opening_string {k : Kind} {q : Quoting} {more : ℕ}
    (h : opening b bs = some (k, q, more)) :
    (k = .string ∧ b = 0x27) ∨ k = .quotedIdent ∨ k = .prefixed := by
  unfold opening at h
  split_ifs at h <;> simp_all

theorem dollarMunch_kind {k : Kind} {more : ℕ} (h : dollarMunch bs = some (k, more)) :
    k = .param ∨ k = .dollarString ∨ k = .char := by
  dsimp only [dollarMunch] at h
  split_ifs at h
  · exact .inl (Prod.mk.inj (Option.some.inj h)).1.symm
  · obtain ⟨n, -, hn⟩ := Option.map_eq_some_iff.mp h
    exact .inr (.inl (Prod.mk.inj hn).1.symm)
  · exact .inr (.inr (Prod.mk.inj (Option.some.inj h)).1.symm)

theorem spelled_munch {k : Kind} {more : ℕ} (h : munch (b :: bs) = some (k, more)) :
    Spelled ⟨k, b :: bs.take more⟩ := by
  rw [munch] at h
  split at h
  · obtain ⟨n, -, hn⟩ := Option.map_eq_some_iff.mp h
    obtain ⟨rfl, -⟩ := Prod.mk.inj hn
    exact .other (by simp) (by simp) (by simp)
  · next kind q skip hne hopen =>
    obtain ⟨n, -, hn⟩ := Option.map_eq_some_iff.mp h
    obtain ⟨rfl, -⟩ := Prod.mk.inj hn
    rcases opening_string hopen with ⟨rfl, hb⟩ | rfl | rfl
    · exact ⟨by simp, fun _ => by simp [hb], by simp⟩
    · exact absurd rfl hne
    · exact .other (by simp) (by simp) (by simp)
  · split_ifs at h with hspace hline hblock hdollar hdigit hident hop hpair
    · obtain ⟨rfl, rfl⟩ := Prod.mk.inj (Option.some.inj h)
      exact ⟨fun _ => by simpa using hspace, by simp, by simp⟩
    · obtain ⟨rfl, -⟩ := Prod.mk.inj (Option.some.inj h)
      exact .other (by simp) (by simp) (by simp)
    · obtain ⟨n, -, hn⟩ := Option.map_eq_some_iff.mp h
      obtain ⟨rfl, -⟩ := Prod.mk.inj hn
      exact .other (by simp) (by simp) (by simp)
    · rcases dollarMunch_kind h with rfl | rfl | rfl <;> exact .other (by simp) (by simp) (by simp)
    · obtain ⟨n, hn, hk⟩ := Option.map_eq_some_iff.mp h
      obtain ⟨rfl, rfl⟩ := Prod.mk.inj hk
      exact ⟨by simp, by simp, fun _ => spelled_number hn hdigit⟩
    all_goals
      obtain ⟨rfl, -⟩ := Prod.mk.inj (Option.some.inj h)
      exact .other (by simp) (by simp) (by simp)

/-- Every lexeme of a text is spelled as its kind demands. -/
theorem spelled_lex {ls : List Token} (h : lex bs = some ls) : ∀ l ∈ ls, Spelled l :=
  (lex_eq_some_iff.mp h).forall fun _ _ _ _ hm => spelled_munch hm

theorem mem_of_lex {ls : List Token} {l : Token} (h : lex bs = some ls)
    (hl : l ∈ ls.filter (·.kind ≠ .blank)) (hb : b ∈ l.text) : b ∈ bs := by
  rw [← spell_lex h]
  exact List.mem_flatMap.mpr ⟨l, List.mem_of_mem_filter hl, hb⟩

/-- A text is made of blanks and numerals if its lexemes are. -/
theorem lex_numerals {ls : List Token} (h : lex bs = some ls)
    (hts : ∀ l ∈ ls.filter (·.kind ≠ .blank), ∀ b ∈ l.text, isNumeral b) :
    ∀ b ∈ bs, isSpace b ∨ isNumeral b := by
  have hspelled := spelled_lex h
  intro b hb
  rw [← spell_lex h] at hb
  obtain ⟨l, hl, hb⟩ := List.mem_flatMap.mp hb
  by_cases hblank : l.kind = .blank
  · exact .inl ((hspelled l hl).blank hblank b hb)
  · exact .inr (hts l (List.mem_filter.mpr ⟨hl, decide_eq_true hblank⟩) b hb)

/-! ## Strings -/

def doubled (q : UInt8) (t : Bytes) : Bytes := t.flatMap fun b => if b = q then [b, b] else [b]

theorem bodyLen_close {q : Quoting} (hrest : rest.head? ≠ some q.quote) :
    bodyLen q (q.quote :: rest) = some 1 := by
  cases rest with
  | nil => simp [bodyLen]
  | cons b rest =>
    have hb : b ≠ q.quote := fun h => hrest (congrArg some h)
    simp [bodyLen, hb]

theorem bodyLen_plain {q : Quoting} (hb : b ≠ q.quote) (hesc : q.escapes = false) :
    bodyLen q (b :: bs) = (bodyLen q bs).map (· + 1) := by
  cases bs <;> simp [bodyLen, hb, hesc]

theorem bodyLen_doubled {q : Quoting} (hesc : q.escapes = false) (hdbl : q.doubles = true)
    (hrest : rest.head? ≠ some q.quote) :
    bodyLen q (doubled q.quote t ++ q.quote :: rest) =
      some ((doubled q.quote t).length + 1) := by
  induction t with
  | nil => exact bodyLen_close hrest
  | cons b t ih =>
    by_cases hb : b = q.quote
    · subst hb
      simp only [doubled, List.flatMap_cons, if_true, List.cons_append, List.nil_append,
        List.length_cons] at ih ⊢
      simp [bodyLen, hdbl, ih]
    · simp only [doubled, List.flatMap_cons, if_neg hb, List.cons_append, List.nil_append,
        List.length_cons] at ih ⊢
      rw [bodyLen_plain hb hesc, ih]
      rfl

/-- What follows a string without being a part of it. -/
structure EndsString (rest : Bytes) : Prop where
  noQuote : rest.head? ≠ some 0x27
  noGap : gapLen (.blank false) rest = none

theorem reads_string (hrest : EndsString rest) :
    Reads munch (0x27 :: (doubled 0x27 t ++ [0x27]) ++ rest)
      [⟨.string, 0x27 :: (doubled 0x27 t ++ [0x27])⟩] rest := by
  refine .lexeme ?_
  have hbody : bodyLen plainQuote (doubled 0x27 t ++ 0x27 :: rest) =
      some ((doubled 0x27 t).length + 1) := bodyLen_doubled rfl rfl hrest.noQuote
  have hlen : (doubled 0x27 t ++ 0x27 :: rest).length = (doubled 0x27 t ++ rest).length + 1 := by
    simp only [List.length_append, List.length_cons, Nat.add_assoc]
  have hdrop : (doubled 0x27 t ++ 0x27 :: rest).drop ((doubled 0x27 t).length + 1) = rest := by
    rw [List.drop_append]
    simp
  rw [List.cons_append, List.append_assoc, List.singleton_append, munch,
    show opening 0x27 (doubled 0x27 t ++ 0x27 :: rest) = some (.string, plainQuote, 0) from rfl]
  simp only [List.drop_zero, hlen, stringLen, hbody, hdrop, hrest.noGap, Option.map_some,
    Nat.zero_add, List.length_append, List.length_singleton]

end MiddleWhere.Sql.Pg
