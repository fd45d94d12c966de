import MiddleWhere.Lang.Reading

/-!
# Single-quoted strings of PowerShell

A single-quoted string begins and ends with any of five characters. Two of them in a row
within the string stand for the second one. Outside of strings a script is a sequence of characters
here; the few that open a comment, an expandable string or an escape are not read.

`lex_render_iff`: a script is put together from fixed text and quoted texts. It reads as the
fixed text with exactly these texts as its strings if and only if none of them has one of
the quotes that the quoting leaves alone.
-/

namespace MiddleWhere.PowerShell

/-- U+2018, U+2019, U+201A and U+201B. -/
def isCurlyQuote (c : Char) : Bool := 0x2018 ≤ c.toNat && c.toNat ≤ 0x201B

def isSingleQuote (c : Char) : Bool := c == '\'' || isCurlyQuote c

/-- What opens an expandable string, a comment, an escape, a here-string or a block comment. -/
def opening : List Char :=
  ['"', Char.ofNat 0x201C, Char.ofNat 0x201D, Char.ofNat 0x201E, '#', Char.ofNat 0x60, '@', '<']

def isCode (c : Char) : Bool := !isSingleQuote c && !opening.contains c

inductive Token
  | ch (c : Char)
  | lit (text : List Char)
deriving DecidableEq

/-! ## Reading -/

/-- In a string, and after a quote that may end it: what is read of the string so far. -/
inductive Mode
  | code
  | literal (read : List Char)
  | closing (read : List Char)

def enter (c : Char) : Option (Mode × List Token) :=
  if isSingleQuote c then some (.literal [], [])
  else if isCode c then some (.code, [.ch c])
  else none

def step : Mode → Char → Option (Mode × List Token)
  | .code, c => enter c
  | .literal read, c =>
    if isSingleQuote c then some (.closing read, []) else some (.literal (read ++ [c]), [])
  | .closing read, c =>
    if isSingleQuote c then some (.literal (read ++ [c]), [])
    else (enter c).map fun r => (r.1, .lit read :: r.2)

def lexFrom : Mode → List Char → Option (List Token)
  | .code, [] => some []
  | .literal _, [] => none
  | .closing read, [] => some [.lit read]
  | mode, c :: rest =>
    match step mode c with
    | none => none
    | some (mode, tokens) => (lexFrom mode rest).map (tokens ++ ·)

def lex (script : List Char) : Option (List Token) := lexFrom .code script

variable {s read rest : List Char} {c : Char} {mode : Mode} {toks : List Token}

theorem lexFrom_cons : lexFrom mode (c :: rest) =
    match step mode c with
    | none => none
    | some (mode, tokens) => (lexFrom mode rest).map (tokens ++ ·) := by
  cases mode <;> rfl

theorem lexFrom_code (hc : isCode c = true) :
    lexFrom .code (c :: rest) = (lexFrom .code rest).map (.ch c :: ·) := by
  have hquote : isSingleQuote c = false := by
    simp only [isCode, Bool.and_eq_true, Bool.not_eq_true'] at hc
    exact hc.1
  rw [lexFrom_cons, step, enter, if_neg (by simp [hquote]), if_pos hc]
  rfl

theorem lexFrom_closing (hc : isSingleQuote c = false) :
    lexFrom (.closing read) (c :: rest) = (lexFrom .code (c :: rest)).map (.lit read :: ·) := by
  rw [lexFrom_cons, lexFrom_cons, step, step, if_neg (by simp [hc])]
  cases enter c with
  | none => rfl
  | some r => simp [Function.comp_def]

/-! ## Quoting -/

/-- Between straight quotes, and the straight quotes within doubled. -/
def singleQuote (s : List Char) : List Char :=
  '\'' :: s.flatMap (fun c => if c = '\'' then ['\'', '\''] else [c]) ++ ['\'']

theorem isSingleQuote_straight : isSingleQuote '\'' = true := rfl

theorem lexFrom_body (hs : ∀ c ∈ s, isCurlyQuote c = false) :
    lexFrom (.literal read) (s.flatMap (fun c => if c = '\'' then ['\'', '\''] else [c]) ++ rest) =
      lexFrom (.literal (read ++ s)) rest := by
  induction s generalizing read with
  | nil => simp
  | cons c s ih =>
    rw [List.forall_mem_cons] at hs
    rw [List.flatMap_cons, show read ++ c :: s = (read ++ [c]) ++ s by simp, ← ih hs.2]
    by_cases hc : c = '\''
    · subst hc
      rw [if_pos rfl, List.append_assoc, List.cons_append, List.singleton_append, lexFrom_cons, step,
        if_pos isSingleQuote_straight]
      dsimp only
      rw [lexFrom_cons, step, if_pos isSingleQuote_straight]
      simp
    · have hplain : isSingleQuote c = false := by simp [isSingleQuote, hc, hs.1]
      rw [if_neg hc, List.singleton_append, List.cons_append, lexFrom_cons, step,
        if_neg (by simp [hplain])]
      simp

/-- A quoted text without curly quotes is read back as one string. -/
theorem lexFrom_quoted (hs : ∀ c ∈ s, isCurlyQuote c = false) :
    lexFrom .code (singleQuote s ++ rest) = lexFrom (.closing s) rest := by
  rw [singleQuote, List.cons_append, List.cons_append, List.append_assoc, lexFrom_cons, step, enter,
    if_pos isSingleQuote_straight]
  dsimp only
  rw [lexFrom_body hs, List.nil_append, List.singleton_append, lexFrom_cons, step,
    if_pos isSingleQuote_straight]
  simp

/-! ## How much text a token takes up -/

/-- Every quote within a string was written twice. -/
def Token.width : Token → ℕ
  | .ch _ => 1
  | .lit text => text.length + text.countP isSingleQuote + 2

def Mode.width : Mode → ℕ
  | .code => 0
  | .literal read => read.length + read.countP isSingleQuote + 1
  | .closing read => read.length + read.countP isSingleQuote + 2

def width (tokens : List Token) : ℕ := (tokens.map Token.width).sum

theorem width_append (xs ys : List Token) : width (xs ++ ys) = width xs + width ys := by
  simp [width]

theorem enter_width {mode' : Mode} (h : enter c = some (mode', toks)) :
    width toks + mode'.width = 1 := by
  unfold enter at h
  split_ifs at h
  · cases h
    rfl
  · cases h
    rfl

theorem step_width {mode' : Mode} (h : step mode c = some (mode', toks)) :
    width toks + mode'.width = mode.width + 1 := by
  cases mode with
  | code => simpa [Mode.width] using enter_width h
  | literal read =>
    simp only [step] at h
    split_ifs at h with hc
    · cases h
      simp [width, Mode.width]
    · cases h
      simp [width, Mode.width, hc]
      omega
  | closing read =>
    simp only [step] at h
    split_ifs at h with hc
    · cases h
      simp [width, Mode.width, hc]
      omega
    · obtain ⟨⟨mode'', toks'⟩, henter, hmade⟩ := Option.map_eq_some_iff.mp h
      cases hmade
      have hw := enter_width henter
      simp only [width, List.map_cons, List.sum_cons, Token.width, Mode.width] at hw ⊢
      omega

/-- Reading accounts for every character of the script. -/
theorem lexFrom_width (h : lexFrom mode s = some toks) :
    width toks = mode.width + s.length := by
  induction s generalizing mode toks with
  | nil =>
    cases mode with
    | code =>
      cases h
      rfl
    | literal read => cases h
    | closing read =>
      cases h
      simp [width, Token.width, Mode.width]
  | cons c s ih =>
    rw [lexFrom_cons] at h
    cases hstep : step mode c with
    | none =>
      rw [hstep] at h
      cases h
    | some r =>
      obtain ⟨mode', now⟩ := r
      rw [hstep] at h
      obtain ⟨later, hlater, rfl⟩ := Option.map_eq_some_iff.mp h
      have hw := step_width hstep
      have hrest := ih hlater
      rw [width_append, List.length_cons]
      omega

/-! ## Scripts with quoted texts -/

inductive Piece
  | text (s : String)
  | quoted (s : String)

def Piece.render : Piece → List Char
  | .text s => s.toList
  | .quoted s => singleQuote s.toList

/-- What the piece is to be read as. -/
def Piece.tokens : Piece → List Token
  | .text s => s.toList.map .ch
  | .quoted s => [.lit s.toList]

def render (pieces : List Piece) : List Char := pieces.flatMap Piece.render

def meant (pieces : List Piece) : List Token := pieces.flatMap Piece.tokens

/-- The fixed text is code, and there is some after each quoted text. -/
def Apart : List Piece → Prop
  | [] => True
  | .text s :: pieces => (s.toList.all isCode = true) ∧ Apart pieces
  | [.quoted _] => True
  | .quoted _ :: .text s :: pieces => s ≠ "" ∧ s.toList.all isCode = true ∧ Apart pieces
  | .quoted _ :: .quoted _ :: _ => False

/-- No text has a quote that the quoting leaves alone. -/
def Straight (s : String) : Prop := ∀ c ∈ s.toList, isCurlyQuote c = false

theorem length_body (s : List Char) :
    (s.flatMap fun c => if c = '\'' then ['\'', '\''] else [c]).length =
      s.length + s.count '\'' := by
  induction s with
  | nil => rfl
  | cons c s ih =>
    rw [List.flatMap_cons, List.length_append, ih, List.length_cons, List.count_cons]
    by_cases hc : c = '\''
    · subst hc
      simp
      omega
    · simp [hc]
      omega

theorem countP_quotes (s : List Char) :
    s.countP isSingleQuote = s.count '\'' + s.countP isCurlyQuote := by
  induction s with
  | nil => rfl
  | cons c s ih =>
    rw [List.countP_cons, List.countP_cons, List.count_cons, ih]
    by_cases hc : c = '\''
    · subst hc
      simp [isSingleQuote, isCurlyQuote]
      omega
    · simp only [isSingleQuote, beq_iff_eq, hc, Bool.false_or, if_false, beq_eq_false_iff_ne.mpr hc]
      simp
      omega

/-- The tokens that are meant take up more than the text as soon as there is a curly quote. -/
theorem width_meant (pieces : List Piece) :
    (render pieces).length ≤ width (meant pieces) ∧
      (width (meant pieces) = (render pieces).length →
        ∀ s, .quoted s ∈ pieces → Straight s) := by
  induction pieces with
  | nil => exact ⟨le_refl 0, fun _ s hs => absurd hs List.not_mem_nil⟩
  | cons piece pieces ih =>
    rw [render, meant, List.flatMap_cons, List.flatMap_cons, width_append, List.length_append]
    cases piece with
    | text s =>
      have hwidth : width (Piece.tokens (.text s)) = (Piece.render (.text s)).length := by
        simp [width, Piece.tokens, Piece.render, Function.comp_def, Token.width]
      refine ⟨by have := ih.1; simp only [render, meant] at this; omega, fun heq s' hs' => ?_⟩
      obtain hs' | hs' := List.mem_cons.mp hs'
      · cases hs'
      · exact ih.2 (by simp only [render, meant]; omega) s' hs'
    | quoted s =>
      have hwidth : width (Piece.tokens (.quoted s)) =
          (Piece.render (.quoted s)).length + s.toList.countP isCurlyQuote := by
        simp only [width, Piece.tokens, Piece.render, List.map_singleton, List.sum_singleton,
          Token.width, singleQuote, List.length_cons, List.length_append, length_body,
          countP_quotes, List.length_nil]
        omega
      have hrest := ih.1
      simp only [render, meant] at hrest
      refine ⟨by omega, fun heq s' hs' => ?_⟩
      obtain hs' | hs' := List.mem_cons.mp hs'
      · obtain rfl := Piece.quoted.inj hs'
        have hnone : s'.toList.countP isCurlyQuote = 0 := by omega
        intro c hc
        simpa using List.countP_eq_zero.mp hnone c hc
      · exact ih.2 (by simp only [render, meant]; omega) s' hs'

theorem lexFrom_text {text : List Char} (htext : text.all isCode = true) :
    lexFrom .code (text ++ rest) = (lexFrom .code rest).map (text.map .ch ++ ·) := by
  induction text with
  | nil => simp
  | cons c text ih =>
    rw [List.all_cons, Bool.and_eq_true] at htext
    rw [List.cons_append, lexFrom_code htext.1, ih htext.2, Option.map_map]
    rfl

theorem lex_render_of_straight {pieces : List Piece} (hapart : Apart pieces)
    (hstraight : ∀ s, .quoted s ∈ pieces → Straight s) :
    lexFrom .code (render pieces) = some (meant pieces) := by
  induction pieces with
  | nil => rfl
  | cons piece pieces ih =>
    have htail : ∀ s, .quoted s ∈ pieces → Straight s :=
      fun s hs => hstraight s (List.mem_cons_of_mem _ hs)
    rw [render, meant, List.flatMap_cons, List.flatMap_cons]
    cases piece with
    | text s =>
      rw [Piece.render, lexFrom_text hapart.1]
      have hrest := ih hapart.2 htail
      rw [render] at hrest
      rw [hrest]
      rfl
    | quoted s =>
      rw [Piece.render, lexFrom_quoted (hstraight s List.mem_cons_self)]
      cases pieces with
      | nil => rfl
      | cons next pieces =>
        cases next with
        | quoted s' => exact hapart.elim
        | text s' =>
          obtain ⟨hne, hcode, hrest⟩ := hapart
          have hlex := ih ⟨hcode, hrest⟩ htail
          obtain ⟨c, text, hs'⟩ : ∃ c text, s'.toList = c :: text :=
            List.exists_cons_of_ne_nil (by simpa using hne)
          rw [render, List.flatMap_cons, Piece.render, hs', List.cons_append] at hlex
          rw [List.flatMap_cons, Piece.render, hs', List.cons_append, lexFrom_closing, hlex]
          · rfl
          · rw [hs', List.all_cons, Bool.and_eq_true, isCode, Bool.and_eq_true] at hcode
            simpa using hcode.1.1

theorem lex_render_iff {pieces : List Piece} (hapart : Apart pieces) :
    lex (render pieces) = some (meant pieces) ↔ ∀ s, .quoted s ∈ pieces → Straight s := by
  constructor
  · intro h
    have hwidth := lexFrom_width h
    rw [Mode.width, Nat.zero_add] at hwidth
    exact (width_meant pieces).2 hwidth
  · exact lex_render_of_straight hapart

/-! ## The rest of one string -/

/-- After a quote: a second one stands for itself. -/
def quoteMove : List Char → Reading.Move Unit
  | [] => .stop
  | d :: _ => if isSingleQuote d then .eat 2 [d] () else .stop

def literalMove : Unit → List Char → Reading.Move Unit
  | _, [] => .fail
  | _, c :: rest => if isSingleQuote c then quoteMove rest else .eat 1 [c] ()

theorem literalMove_within (u : Unit) (text : List Char) : (literalMove u text).Within text := by
  cases text with
  | nil => trivial
  | cons c rest =>
    cases rest with
    | nil =>
      simp only [literalMove, quoteMove]
      split_ifs <;> simp [Reading.Move.Within]
    | cons d rest =>
      simp only [literalMove, quoteMove]
      split_ifs <;> simp [Reading.Move.Within]

def literalReader : Reading.Reader Unit := ⟨literalMove, literalMove_within⟩

/-- What is read after the quote that opens a string, up to the one that closes it. -/
def literalText (text : List Char) : Option (List Char × List Char) := literalReader.read () text

theorem literalMove_copies {piece : List Char} (hpiece : piece ≠ [])
    (h : literalMove () (piece ++ rest) = .eat piece.length piece ()) :
    ∃ c, piece = [c] ∧ isSingleQuote c = false := by
  obtain ⟨c, piece, rfl⟩ := List.exists_cons_of_ne_nil hpiece
  rw [List.cons_append, literalMove] at h
  split_ifs at h with hc
  · cases hrest : piece ++ rest with
    | nil =>
      rw [hrest] at h
      cases h
    | cons d others =>
      rw [hrest, quoteMove] at h
      split_ifs at h
      simp only [Reading.Move.eat.injEq] at h
      obtain ⟨hlen, hout, -⟩ := h
      rw [← hout] at hlen
      simp at hlen
  · simp only [Reading.Move.eat.injEq] at h
    obtain ⟨-, hout, -⟩ := h
    obtain rfl : [] = piece := (List.cons.inj hout).2
    exact ⟨c, rfl, by simpa using hc⟩

/-- A text between quotes is read as itself if and only if it has no quote. -/
theorem literalText_eq_iff {text after : List Char}
    (hafter : ∃ q d tail, after = q :: d :: tail ∧ isSingleQuote q = true ∧ isSingleQuote d = false) :
    literalText (text ++ after) = some (text, after) ↔ ∀ c ∈ text, isSingleQuote c = false := by
  rw [literalText, Reading.read_eq_iff]
  constructor
  · intro h
    generalize hu : () = u at h
    induction h with
    | stop => simp
    | @eat _ _ piece text hpiece hmove _ ih =>
      obtain ⟨c, rfl, hc⟩ := literalMove_copies hpiece hmove
      exact List.forall_mem_cons.mpr ⟨hc, ih rfl⟩
  · intro h
    induction text with
    | nil =>
      obtain ⟨q, d, tail, rfl, hq, hd⟩ := hafter
      refine .stop ?_
      show literalMove () (q :: d :: tail) = .stop
      rw [literalMove, if_pos hq, quoteMove, if_neg (by simp [hd])]
    | cons c text ih =>
      rw [List.forall_mem_cons] at h
      refine Reading.Verbatim.cons ?_ (ih h.2)
      show literalMove () (c :: (text ++ after)) = .eat 1 [c] ()
      rw [literalMove, if_neg (by simp [h.1])]

end MiddleWhere.PowerShell
