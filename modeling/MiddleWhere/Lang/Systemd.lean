import MiddleWhere.Lang.Reading

/-!
# Words of a systemd unit

The value of a setting is split into words at blanks; quotes are removed, C escapes resolved where
the setting has them, and unknown escapes kept. Afterwards the specifiers of a word are expanded,
and in the arguments of a command the variables. Where the result is up to the machine, nothing
is read.
-/

namespace MiddleWhere.Systemd
open Reading

/-- A line feed or a carriage return ends the line. -/
def endsLine (c : Char) : Bool := c == '\n' || c == '\r'

def isBlank (c : Char) : Bool := c == ' ' || c == '\t' || endsLine c

def isQuote (c : Char) : Bool := c == '"' || c == '\''

/-! ## Escapes -/

def simpleEscapes : List (Char × Char) :=
  [('a', Char.ofNat 7), ('b', Char.ofNat 8), ('f', Char.ofNat 12), ('n', '\n'), ('r', '\r'),
    ('t', '\t'), ('v', Char.ofNat 11), ('\\', '\\'), ('"', '"'), ('\'', '\''), ('s', ' ')]

/-- An escape in figures: how many characters it takes after the backslash, and what it stands for. -/
def numericEscape (skip radix figures : ℕ) (rest : List Char) : Option (ℕ × ℕ) := do
  let digits := (rest.drop skip).take figures
  let n ← if digits.length = figures then numeral radix digits else none
  if n = 0 then none else return (skip + figures, n)

inductive Escape
  | char (n : ℕ) (c : Char)
  /-- A byte that is no character of its own. -/
  | raw (n : ℕ)
  | unknown

def byteEscape : Option (ℕ × ℕ) → Escape
  | none => .unknown
  | some (n, b) => if b < 0x80 then .char n (Char.ofNat b) else if b < 0x100 then .raw n else .unknown

def unicodeEscape : Option (ℕ × ℕ) → Escape
  | none => .unknown
  | some (n, c) => if c.isValidChar then .char n (Char.ofNat c) else .unknown

/-- What follows a backslash. -/
def escape : List Char → Escape
  | [] => .unknown
  | d :: rest =>
    match simpleEscapes.lookup d with
    | some c => .char 1 c
    | none =>
      if d = 'x' then byteEscape (numericEscape 1 16 2 (d :: rest))
      else if d = 'u' then unicodeEscape (numericEscape 1 16 4 (d :: rest))
      else if d = 'U' then unicodeEscape (numericEscape 1 16 8 (d :: rest))
      else byteEscape (numericEscape 0 8 3 (d :: rest))

/-! ## Words -/

inductive Mode
  | start
  | bare
  | quoted (quote : Char)
deriving DecidableEq

/-- A line that ends in a backslash goes on, with a blank between, on the next one. -/
def continued (s : Mode) : Move Mode :=
  match s with
  | .start => .eat 2 [] .start
  | .bare => .stop
  | .quoted q => .eat 2 [' '] (.quoted q)

def within (s : Mode) : Mode :=
  match s with
  | .start | .bare => .bare
  | .quoted q => .quoted q

/-- `unescapes` tells whether the setting knows C escapes. -/
def backslashMove (unescapes : Bool) (s : Mode) : List Char → Move Mode
  | [] => .eat 1 ['\\'] (within s)
  | d :: rest =>
    if endsLine d then continued s
    else if unescapes then
      match escape (d :: rest) with
      | .char n c => if n ≤ (d :: rest).length then .eat (n + 1) [c] (within s) else .fail
      | .raw _ => .fail
      | .unknown => .eat 2 ['\\', d] (within s)
    else .eat 1 ['\\'] (within s)

def bareMove (unescapes : Bool) (s : Mode) : List Char → Move Mode
  | [] => .stop
  | c :: rest =>
    if isBlank c then .stop
    else if isQuote c then .eat 1 [] (.quoted c)
    else if c = '\\' then backslashMove unescapes s rest
    else .eat 1 [c] .bare

def startMove (unescapes : Bool) : List Char → Move Mode
  | [] => .fail
  | c :: rest =>
    if endsLine c then .fail
    else if isBlank c then .eat 1 [] .start
    else bareMove unescapes .start (c :: rest)

def quotedMove (unescapes : Bool) (quote : Char) : List Char → Move Mode
  | [] => .fail
  | c :: rest =>
    if endsLine c then .fail
    else if c = quote then .eat 1 [] .bare
    else if c = '\\' then backslashMove unescapes (.quoted quote) rest
    else .eat 1 [c] (.quoted quote)

def move (unescapes : Bool) : Mode → List Char → Move Mode
  | .start => startMove unescapes
  | .bare => bareMove unescapes .bare
  | .quoted quote => quotedMove unescapes quote

theorem backslashMove_within (unescapes : Bool) (s : Mode) (c : Char) (rest : List Char) :
    (backslashMove unescapes s rest).Within (c :: rest) := by
  cases rest with
  | nil => simp [backslashMove, Move.Within]
  | cons d rest =>
    simp only [backslashMove]
    split_ifs with hline hunescape
    · cases s <;> simp [continued, Move.Within]
    · cases escape (d :: rest) with
      | char n e =>
        dsimp only
        split_ifs with hn
        · simp only [List.length_cons] at hn
          simp [Move.Within, hn]
        · trivial
      | raw n => trivial
      | unknown => simp [Move.Within]
    · simp [Move.Within]

theorem bareMove_within (unescapes : Bool) (s : Mode) (text : List Char) :
    (bareMove unescapes s text).Within text := by
  cases text with
  | nil => trivial
  | cons c rest =>
    simp only [bareMove]
    split_ifs
    · trivial
    · simp [Move.Within]
    · exact backslashMove_within unescapes s c rest
    · simp [Move.Within]

theorem move_within (unescapes : Bool) (s : Mode) (text : List Char) :
    (move unescapes s text).Within text := by
  cases s with
  | start =>
    cases text with
    | nil => trivial
    | cons c rest =>
      simp only [move, startMove]
      split_ifs
      · trivial
      · simp [Move.Within]
      · exact bareMove_within unescapes .start (c :: rest)
  | bare => exact bareMove_within unescapes .bare text
  | quoted quote =>
    cases text with
    | nil => trivial
    | cons c rest =>
      simp only [move, quotedMove]
      split_ifs
      · trivial
      · simp [Move.Within]
      · exact backslashMove_within unescapes (.quoted quote) c rest
      · simp [Move.Within]

def words (unescapes : Bool) : Reader Mode := ⟨move unescapes, move_within unescapes⟩

/-- The next word of a value, and what is after it. -/
def extractWord (unescapes : Bool) (text : List Char) : Option (List Char × List Char) :=
  (words unescapes).read .start text

/-! ## Specifiers and variables -/

/-- The letters that stand for something after `%`, and `%` itself. -/
def specifiers : List Char := "aAbBCdDEfgGhHiIjJlLmMnNopPqsStTuUvVwWyY%".toList

/-- `%%` is a percent sign, and a `%` before any other character that is no specifier is kept. -/
def expand : List Char → Option (List Char)
  | [] => some []
  | [c] => some [c]
  | c :: d :: rest =>
    if c ≠ '%' then (expand (d :: rest)).map (c :: ·)
    else if d = '%' then (expand rest).map ('%' :: ·)
    else if specifiers.contains d then none
    else (expand rest).map fun w => '%' :: d :: w

def dollars : List Char → Option (List Char)
  | [] => some []
  | [c] => some [c]
  | c :: d :: rest =>
    if c ≠ '$' then (dollars (d :: rest)).map (c :: ·)
    else if d = '$' then (dollars rest).map ('$' :: ·)
    else if d = '\x7b' then none
    else (dollars (d :: rest)).map (c :: ·)

/-- A word that is a variable becomes as many words as its value has. -/
def substitute (word : List Char) : Option (List Char) :=
  match word with
  | '$' :: d :: _ => if d = '$' ∨ d = '\x7b' then dollars word else none
  | _ => dollars word

/-! ## Settings -/

def execPrefixes : List Char := "@-:+!|".toList

/-- The command of `ExecStart=`, without the characters that change how it is run. -/
def execPath (value : List Char) : Option (List Char × List Char) :=
  (words true).readAs (fun word => expand (word.dropWhile execPrefixes.contains)) .start value

/-- A semicolon by itself ends the command. -/
def endsCommand (value : List Char) : Bool :=
  match value.dropWhile isBlank with
  | [';'] => true
  | ';' :: c :: _ => isBlank c
  | _ => false

/-- An argument of `ExecStart=`. -/
def execArg (value : List Char) : Option (List Char × List Char) :=
  if endsCommand value then none
  else (words true).readAs (fun word => (expand word).bind substitute) .start value

def stripSign (sign : Char) (word : List Char) : List Char :=
  if word.head? = some sign then word.drop 1 else word

/-- A path of `ReadWritePaths=`, without the marks before it. -/
def readWritePath (value : List Char) : Option (List Char × List Char) :=
  (words false).readAs (fun word => expand (stripSign '+' (stripSign '-' word))) .start value

/-! ## Plain words -/

def isPlainChar (c : Char) : Bool := !(isBlank c || isQuote c || c == '\\')

variable {unescapes : Bool} {s next : Mode} {c d : Char} {text rest after piece word out : List Char}

theorem isPlainChar_iff :
    isPlainChar c = true ↔ isBlank c = false ∧ isQuote c = false ∧ c ≠ '\\' := by
  simp [isPlainChar, and_assoc]

theorem bareMove_plain (hc : isPlainChar c = true) :
    bareMove unescapes s (c :: rest) = .eat 1 [c] .bare := by
  obtain ⟨hblank, hquote, hback⟩ := isPlainChar_iff.mp hc
  rw [bareMove, if_neg (by simp [hblank]), if_neg (by simp [hquote]), if_neg hback]

/-- Out of quotes, what is copied and is no backslash is plain. -/
theorem plain_of_bareMove (hpiece : piece ≠ []) (hback : '\\' ∉ piece)
    (h : bareMove unescapes s (piece ++ rest) = .eat piece.length piece next) :
    ∃ c, piece = [c] ∧ next = .bare ∧ isPlainChar c = true := by
  obtain ⟨c, piece, rfl⟩ := List.exists_cons_of_ne_nil hpiece
  rw [List.cons_append, bareMove] at h
  split_ifs at h with hblank hquote hescape
  · simp at h
  · subst hescape
    simp at hback
  · simp only [Move.eat.injEq] at h
    obtain ⟨-, hout, rfl⟩ := h
    obtain rfl : [] = piece := (List.cons.inj hout).2
    exact ⟨c, rfl, rfl, isPlainChar_iff.mpr ⟨by simpa using hblank, by simpa using hquote, hescape⟩⟩

theorem verbatim_bare_iff (hafter : ∃ c tail, after = c :: tail ∧ isBlank c = true)
    (hback : '\\' ∉ text) :
    Verbatim (words unescapes) after .bare text ↔ ∀ c ∈ text, isPlainChar c = true := by
  constructor
  · intro h
    generalize hs : Mode.bare = s at h
    induction h with
    | stop => simp
    | @eat s next piece text hpiece hmove _ ih =>
      subst hs
      rw [List.mem_append, not_or] at hback
      obtain ⟨c, rfl, rfl, hc⟩ := plain_of_bareMove hpiece hback.1 hmove
      exact List.forall_mem_cons.mpr ⟨hc, ih hback.2 rfl⟩
  · intro h
    clear hback
    induction text with
    | nil =>
      obtain ⟨c, tail, rfl, hc⟩ := hafter
      refine .stop ?_
      show bareMove unescapes .bare (c :: tail) = .stop
      rw [bareMove, if_pos hc]
    | cons c text ih =>
      rw [List.forall_mem_cons] at h
      exact Verbatim.cons (bareMove_plain h.1) (ih h.2)

/-- A text without backslashes is read as one word, and as itself, if and only if it is plain. -/
theorem read_start_iff (hafter : ∃ c tail, after = c :: tail ∧ isBlank c = true)
    (hback : '\\' ∉ text) :
    (words unescapes).read .start (text ++ after) = some (text, after) ↔
      text ≠ [] ∧ ∀ c ∈ text, isPlainChar c = true := by
  rw [read_eq_iff]
  constructor
  · intro h
    cases h with
    | stop h =>
      obtain ⟨c, tail, rfl, hc⟩ := hafter
      simp only [words, move, startMove] at h
      split_ifs at h with hline hblank
    | @eat _ next piece text hpiece hmove hrest =>
      obtain ⟨c, others, rfl⟩ := List.exists_cons_of_ne_nil hpiece
      change startMove unescapes (c :: (others ++ (text ++ after))) = _ at hmove
      rw [startMove] at hmove
      rw [List.mem_append, not_or] at hback
      split_ifs at hmove with hline hblank
      · simp at hmove
      · obtain ⟨d, heq, rfl, hd⟩ := plain_of_bareMove hpiece hback.1 hmove
        obtain ⟨rfl, rfl⟩ := List.cons.inj heq
        exact ⟨by simp, List.forall_mem_cons.mpr ⟨hd, (verbatim_bare_iff hafter hback.2).mp hrest⟩⟩
  · rintro ⟨hne, hchars⟩
    obtain ⟨c, text, rfl⟩ := List.exists_cons_of_ne_nil hne
    rw [List.forall_mem_cons] at hchars
    have hback' : '\\' ∉ text := fun h => hback (List.mem_cons_of_mem c h)
    refine Verbatim.cons ?_ ((verbatim_bare_iff hafter hback').mpr hchars.2)
    have hblank := (isPlainChar_iff.mp hchars.1).1
    have hline : endsLine c = false := by
      simp only [isBlank, Bool.or_eq_false_iff] at hblank
      exact hblank.2
    show startMove unescapes (c :: (text ++ after)) = .eat 1 [c] .bare
    rw [startMove, if_neg (by simp [hline]), if_neg (by simp [hblank])]
    exact bareMove_plain hchars.1

/-! ## Words that mean themselves -/

theorem shortens_expand : Shortens expand := by
  intro word
  fun_induction expand word with
  | case1 => simp
  | case2 c => simp
  | case3 c d rest hc ih =>
    intro out h
    obtain ⟨out', hout, rfl⟩ := Option.map_eq_some_iff.mp h
    obtain ⟨hlen, hsame⟩ := ih out' hout
    simp only [List.length_cons] at hlen hsame ⊢
    exact ⟨by omega, fun hle => by rw [hsame (by omega)]⟩
  | case4 c rest hc ih =>
    intro out h
    obtain ⟨out', hout, rfl⟩ := Option.map_eq_some_iff.mp h
    obtain ⟨hlen, -⟩ := ih out' hout
    simp only [List.length_cons] at hlen ⊢
    exact ⟨by omega, fun hle => by omega⟩
  | case5 => simp
  | case6 c d rest hc hpercent hspec ih =>
    intro out h
    obtain ⟨out', hout, rfl⟩ := Option.map_eq_some_iff.mp h
    obtain ⟨hlen, hsame⟩ := ih out' hout
    simp only [List.length_cons] at hlen hsame ⊢
    exact ⟨by omega, fun hle => by rw [hsame (by omega), not_not.mp hc]⟩

/-- No percent sign has a specifier behind it. -/
def Unspecified (word : List Char) : Prop :=
  word.IsChain fun a b => a = '%' → specifiers.contains b = false

theorem expand_eq_self_iff : expand word = some word ↔ Unspecified word := by
  fun_induction expand word with
  | case1 => simp [Unspecified]
  | case2 c => simp [Unspecified]
  | case3 c d rest hc ih =>
    have hmap : (expand (d :: rest)).map (c :: ·) = some (c :: d :: rest) ↔
        expand (d :: rest) = some (d :: rest) := by simp
    rw [hmap, ih, Unspecified, Unspecified, List.isChain_cons_cons]
    simp [hc]
  | case4 c rest hc ih =>
    obtain rfl : c = '%' := not_not.mp hc
    constructor
    · intro h
      obtain ⟨out, hout, heq⟩ := Option.map_eq_some_iff.mp h
      obtain rfl := (List.cons.inj heq).2
      have hlen := (shortens_expand _ _ hout).1
      simp at hlen
    · intro h
      have hspec := (List.isChain_cons_cons.mp h).1 rfl
      exact absurd hspec (by decide)
  | case5 c d rest hc hpercent hspec =>
    obtain rfl : c = '%' := not_not.mp hc
    constructor
    · intro h
      cases h
    · intro h
      have hnone := (List.isChain_cons_cons.mp h).1 rfl
      rw [hspec] at hnone
      cases hnone
  | case6 c d rest hc hpercent hspec ih =>
    obtain rfl : c = '%' := not_not.mp hc
    have hmap : (expand rest).map (fun w => '%' :: d :: w) = some ('%' :: d :: rest) ↔
        expand rest = some rest := by simp
    have hd : Unspecified (d :: rest) ↔ Unspecified rest := by
      cases rest with
      | nil => simp [Unspecified]
      | cons e rest => simp [Unspecified, List.isChain_cons_cons, hpercent]
    have hchain : Unspecified ('%' :: d :: rest) ↔ Unspecified (d :: rest) :=
      ⟨fun h => (List.isChain_cons_cons.mp h).2,
        fun h => List.isChain_cons_cons.mpr ⟨fun _ => by simpa using hspec, h⟩⟩
    rw [hmap, ih, hchain, hd]

theorem shortens_some {f : List Char → List Char} (h : ∀ w, f w <:+ w) :
    Shortens fun word => some (f word) := by
  rintro word out ⟨⟩
  exact ⟨(h word).length_le, fun hle => (h word).eq_of_length_le hle⟩

theorem stripSign_suffix (sign : Char) (word : List Char) : stripSign sign word <:+ word := by
  unfold stripSign
  split_ifs
  · exact List.drop_suffix 1 word
  · exact List.suffix_refl word

theorem shortens_dollars : Shortens dollars := by
  intro word
  fun_induction dollars word with
  | case1 => simp
  | case2 c => simp
  | case3 c d rest hc ih =>
    intro out h
    obtain ⟨out', hout, rfl⟩ := Option.map_eq_some_iff.mp h
    obtain ⟨hlen, hsame⟩ := ih out' hout
    simp only [List.length_cons] at hlen hsame ⊢
    exact ⟨by omega, fun hle => by rw [hsame (by omega)]⟩
  | case4 c rest hc ih =>
    intro out h
    obtain ⟨out', hout, rfl⟩ := Option.map_eq_some_iff.mp h
    obtain ⟨hlen, -⟩ := ih out' hout
    simp only [List.length_cons] at hlen ⊢
    exact ⟨by omega, fun hle => by omega⟩
  | case5 => simp
  | case6 c d rest hc hdollar hbrace ih =>
    intro out h
    obtain ⟨out', hout, rfl⟩ := Option.map_eq_some_iff.mp h
    obtain ⟨hlen, hsame⟩ := ih out' hout
    simp only [List.length_cons] at hlen hsame ⊢
    exact ⟨by omega, fun hle => by rw [hsame (by omega)]⟩

theorem shortens_substitute : Shortens substitute := by
  intro word out h
  unfold substitute at h
  split at h
  · split_ifs at h
    exact shortens_dollars _ _ h
  · exact shortens_dollars _ _ h

theorem dollars_of_not_mem (h : '$' ∉ word) : dollars word = some word := by
  fun_induction dollars word with
  | case1 => rfl
  | case2 c => rfl
  | case3 c d rest hc ih =>
    rw [List.mem_cons, not_or] at h
    rw [ih h.2]
    rfl
  | case4 c rest hc ih => exact absurd (List.mem_cons.mpr (Or.inl (not_not.mp hc).symm)) h
  | case5 c rest hc hdollar => exact absurd (List.mem_cons.mpr (Or.inl (not_not.mp hc).symm)) h
  | case6 c d rest hc hdollar hbrace ih =>
    exact absurd (List.mem_cons.mpr (Or.inl (not_not.mp hc).symm)) h

theorem substitute_of_not_mem (h : '$' ∉ word) : substitute word = some word := by
  unfold substitute
  split
  · simp at h
  · exact dollars_of_not_mem h

/-! ## Settings that mean themselves -/

theorem dropWhile_eq_self_iff {p : Char → Bool} :
    word.dropWhile p = word ↔ ∀ c, word.head? = some c → p c = false := by
  cases word with
  | nil => simp
  | cons c word =>
    by_cases hc : p c = true
    · have hne : (word.dropWhile p) ≠ c :: word := by
        intro h
        have hlen := (List.dropWhile_suffix p (l := word)).length_le
        rw [h] at hlen
        simp at hlen
      simp [hc, hne]
    · simp [hc]

theorem stripSign_eq_self_iff {sign : Char} : stripSign sign word = word ↔ word.head? ≠ some sign := by
  unfold stripSign
  split_ifs with h
  · obtain ⟨rest, rfl⟩ := List.head?_eq_some_iff.mp h
    simp
  · simp [h]

theorem execPath_eq_iff (hafter : ∃ c tail, after = c :: tail ∧ isBlank c = true)
    (hback : '\\' ∉ text) :
    execPath (text ++ after) = some (text, after) ↔
      (text ≠ [] ∧ ∀ c ∈ text, isPlainChar c = true) ∧
        (∀ c, text.head? = some c → execPrefixes.contains c = false) ∧ Unspecified text := by
  have hdrop : Shortens fun word => some (word.dropWhile execPrefixes.contains) :=
    shortens_some fun w => List.dropWhile_suffix _
  have hself := hdrop.bind_eq_self_iff shortens_expand text
  rw [Option.some.injEq, dropWhile_eq_self_iff, expand_eq_self_iff] at hself
  have hread : execPath (text ++ after) = some (text, after) ↔
      (words true).read .start (text ++ after) = some (text, after) ∧
        (some (text.dropWhile execPrefixes.contains)).bind expand = some text :=
    readAs_eq_iff (hdrop.comp shortens_expand)
  rw [hread, read_start_iff hafter hback, hself]

theorem endsCommand_plain (hne : text ≠ []) (hchars : ∀ c ∈ text, isPlainChar c = true)
    (hsemicolon : ';' ∉ text) : endsCommand (text ++ after) = false := by
  obtain ⟨c, text, rfl⟩ := List.exists_cons_of_ne_nil hne
  have hblank := (isPlainChar_iff.mp (hchars c List.mem_cons_self)).1
  have hc : c ≠ ';' := fun h => hsemicolon (by rw [h]; exact List.mem_cons_self)
  rw [endsCommand, List.cons_append, List.dropWhile_cons_of_neg (by simp [hblank])]
  split
  · next h => exact absurd (List.cons.inj h).1 hc
  · next h => exact absurd (List.cons.inj h).1 hc
  · rfl

theorem execArg_eq_iff (hafter : ∃ c tail, after = c :: tail ∧ isBlank c = true)
    (hback : '\\' ∉ text) (hdollar : '$' ∉ text) (hsemicolon : ';' ∉ text) :
    execArg (text ++ after) = some (text, after) ↔
      (text ≠ [] ∧ ∀ c ∈ text, isPlainChar c = true) ∧ Unspecified text := by
  have hself := shortens_expand.bind_eq_self_iff shortens_substitute text
  rw [expand_eq_self_iff] at hself
  have hread : (words true).readAs (fun word => (expand word).bind substitute) .start
        (text ++ after) = some (text, after) ↔
      (words true).read .start (text ++ after) = some (text, after) ∧
        (expand text).bind substitute = some text :=
    readAs_eq_iff (shortens_expand.comp shortens_substitute)
  rw [read_start_iff hafter hback, hself] at hread
  rw [execArg]
  split_ifs with hends
  · constructor
    · intro h
      cases h
    · rintro ⟨⟨hne, hchars⟩, -⟩
      rw [endsCommand_plain hne hchars hsemicolon] at hends
      cases hends
  · rw [hread]
    constructor
    · rintro ⟨hplain, hspec, -⟩
      exact ⟨hplain, hspec⟩
    · rintro ⟨hplain, hspec⟩
      exact ⟨hplain, hspec, substitute_of_not_mem hdollar⟩

theorem stripSigns_eq_self_iff : stripSign '+' (stripSign '-' text) = text ↔
    text.head? ≠ some '-' ∧ text.head? ≠ some '+' := by
  constructor
  · intro h
    have hminus : stripSign '-' text = text := by
      apply (stripSign_suffix '-' text).eq_of_length_le
      conv_lhs => rw [← h]
      exact (stripSign_suffix '+' _).length_le
    rw [hminus] at h
    exact ⟨stripSign_eq_self_iff.mp hminus, stripSign_eq_self_iff.mp h⟩
  · rintro ⟨hminus, hplus⟩
    rw [stripSign_eq_self_iff.mpr hminus, stripSign_eq_self_iff.mpr hplus]

theorem readWritePath_eq_iff (hafter : ∃ c tail, after = c :: tail ∧ isBlank c = true)
    (hback : '\\' ∉ text) :
    readWritePath (text ++ after) = some (text, after) ↔
      (text ≠ [] ∧ ∀ c ∈ text, isPlainChar c = true) ∧
        (text.head? ≠ some '-' ∧ text.head? ≠ some '+') ∧ Unspecified text := by
  have hstrip : Shortens fun word => some (stripSign '+' (stripSign '-' word)) :=
    shortens_some fun w => (stripSign_suffix '+' _).trans (stripSign_suffix '-' w)
  have hself := hstrip.bind_eq_self_iff shortens_expand text
  rw [Option.some.injEq, stripSigns_eq_self_iff, expand_eq_self_iff] at hself
  have hread : readWritePath (text ++ after) = some (text, after) ↔
      (words false).read .start (text ++ after) = some (text, after) ∧
        (some (stripSign '+' (stripSign '-' text))).bind expand = some text :=
    readAs_eq_iff (hstrip.comp shortens_expand)
  rw [hread, read_start_iff hafter hback, hself]

end MiddleWhere.Systemd
