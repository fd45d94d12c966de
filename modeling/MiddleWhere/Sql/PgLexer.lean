import MiddleWhere.Sql.Munch

/-!
# The lexical rules of PostgreSQL

The rules of the server's scanner, release 15, with `standard_conforming_strings` on. A
string literal goes on over white space that holds a newline; an operator ends before a
comment opens in it, and may end in a sign only if it holds a character that is no operator
character of the SQL standard. A text that the scanner rejects has no lexemes.
-/

namespace MiddleWhere.Sql.Pg

abbrev Bytes := List UInt8

inductive Kind
  | blank
  | comment
  | ident
  | quotedIdent
  | string
  /-- A string with a prefix: `E''`, `B''`, `X''` or `U&''`. -/
  | prefixed
  | dollarString
  | number
  | param
  | op
  | char
  deriving DecidableEq

abbrev Token := Lexeme UInt8 Kind

/-! ## Character classes -/

def isSpace (b : UInt8) : Bool := b == 0x20 || b == 0x09 || b == 0x0A || b == 0x0D || b == 0x0C
def isNewline (b : UInt8) : Bool := b == 0x0A || b == 0x0D
def isDigit (b : UInt8) : Bool := 0x30 ≤ b && b ≤ 0x39
def isAlpha (b : UInt8) : Bool := (0x41 ≤ b && b ≤ 0x5A) || (0x61 ≤ b && b ≤ 0x7A)
def isIdentStart (b : UInt8) : Bool := isAlpha b || b == 0x5F || 0x80 ≤ b
def isTagCont (b : UInt8) : Bool := isIdentStart b || isDigit b
def isIdentCont (b : UInt8) : Bool := isTagCont b || b == 0x24
def isSign (b : UInt8) : Bool := b == 0x2B || b == 0x2D

/-- The operator characters that the SQL standard does not use. -/
def nonSqlOps : Bytes := [0x7E, 0x21, 0x40, 0x23, 0x5E, 0x26, 0x7C, 0x60, 0x3F, 0x25]

def opChars : Bytes := nonSqlOps ++ [0x2B, 0x2D, 0x2A, 0x2F, 0x3C, 0x3E, 0x3D]

/-! ## Comments -/

def opensComment : Bytes → Bool
  | 0x2D :: 0x2D :: _ => true
  | 0x2F :: 0x2A :: _ => true
  | _ => false

/-- The length of the rest of a comment that lies `depth` comments deep. -/
def blockLen : ℕ → Bytes → Option ℕ
  | _, [] => none
  | 0, 0x2A :: 0x2F :: _ => some 2
  | depth + 1, 0x2A :: 0x2F :: bs => (blockLen depth bs).map (· + 2)
  | depth, 0x2F :: 0x2A :: bs => (blockLen (depth + 1) bs).map (· + 2)
  | depth, _ :: bs => (blockLen depth bs).map (· + 1)

/-! ## Quotes -/

/-- How a quoted text is read: whether a backslash escapes, whether a doubled quote stands
for the quote. -/
structure Quoting where
  quote : UInt8
  escapes : Bool
  doubles : Bool

/-- The length of a quoted text after its opening quote, with its closing one. -/
def bodyLen (q : Quoting) : Bytes → Option ℕ
  | [] => none
  | [b] => if b = q.quote then some 1 else none
  | b :: c :: bs =>
    if b = q.quote then
      if c = q.quote ∧ q.doubles then (bodyLen q bs).map (· + 2) else some 1
    else if b = 0x5C ∧ q.escapes then (bodyLen q bs).map (· + 2)
    else (bodyLen q (c :: bs)).map (· + 1)

/-- What is known of the white space after a string. -/
inductive Gap
  | blank (newline : Bool)
  | comment (newline : Bool)

/-- The length of the white space after a string with the quote that resumes the string,
where there is one. -/
def gapLen : Gap → Bytes → Option ℕ
  | _, [] => none
  | .comment newline, b :: bs =>
    if isNewline b then (gapLen (.blank true) bs).map (· + 1)
    else (gapLen (.comment newline) bs).map (· + 1)
  | .blank newline, b :: bs =>
    if b = 0x27 then if newline then some 1 else none
    else if isSpace b then (gapLen (.blank (newline || isNewline b)) bs).map (· + 1)
    else if b = 0x2D ∧ bs.head? = some 0x2D then
      (gapLen (.comment newline) bs).map (· + 1)
    else none

/-- The length of a string after its opening quote, with all parts it goes on in. -/
def stringLen (q : Quoting) : ℕ → Bytes → Option ℕ
  | 0, _ => none
  | n + 1, bs =>
    match bodyLen q bs with
    | none => none
    | some len =>
      match gapLen (.blank false) (bs.drop len) with
      | none => some len
      | some gap => (stringLen q n (bs.drop (len + gap))).map (len + gap + ·)

def plainQuote : Quoting := ⟨0x27, false, true⟩
def escapeQuote : Quoting := ⟨0x27, true, true⟩
def bitQuote : Quoting := ⟨0x27, false, false⟩
def identQuote : Quoting := ⟨0x22, false, true⟩

/-- The length of a dollar-quoted text after its opening delimiter, with its closing one. -/
def dollarLen (delim : Bytes) : Bytes → Option ℕ
  | [] => none
  | b :: bs =>
    if delim <+: b :: bs then some delim.length else (dollarLen delim bs).map (· + 1)

/-! ## Numbers -/

def signLen (bs : Bytes) : ℕ := if bs.head?.any isSign then 1 else 0

/-- The digits of an exponent, of which there is at least one; a letter may not follow. -/
def exponentDigits (len : ℕ) (bs : Bytes) : Option ℕ :=
  if bs.takeWhile isDigit = [] ∨ (bs.dropWhile isDigit).head?.any isIdentStart then none
  else some (len + (bs.takeWhile isDigit).length)

/-- The length of a number of which `len` bytes are read: an exponent may follow, a letter
may not. -/
def exponentLen (len : ℕ) : Bytes → Option ℕ
  | [] => some len
  | b :: bs =>
    if b = 0x65 ∨ b = 0x45 then exponentDigits (len + 1 + signLen bs) (bs.drop (signLen bs))
    else if isIdentStart b then none
    else some len

def numberLen (bs : Bytes) : Option ℕ :=
  let digits := (bs.takeWhile isDigit).length
  let rest := bs.dropWhile isDigit
  if [0x2E, 0x2E] <+: rest then some digits
  else if rest.head? = some 0x2E then
    exponentLen (digits + 1 + (rest.tail.takeWhile isDigit).length) (rest.tail.dropWhile isDigit)
  else exponentLen digits rest

/-! ## Operators -/

/-- An operator up to the first comment that opens in it. -/
def opCut : Bytes → Bytes
  | [] => []
  | b :: bs => if opensComment (b :: bs) then [] else b :: opCut bs

/-- The length of an operator beyond its first character. -/
def opMore (b : UInt8) (bs : Bytes) : ℕ :=
  let tail := opCut (b :: bs.takeWhile (opChars.contains ·)) |>.tail
  if (b :: tail).any (nonSqlOps.contains ·) then tail.length
  else (tail.reverse.dropWhile isSign).length

/-! ## Lexemes -/

def dollarMunch (bs : Bytes) : Option (Kind × ℕ) :=
  if bs.head?.any isDigit then
    let digits := bs.takeWhile isDigit
    if (bs.dropWhile isDigit).head?.any isIdentStart then none
    else some (.param, digits.length)
  else
    let tag := bs.takeWhile isTagCont
    if (bs.dropWhile isTagCont).head? = some 0x24 then
      (dollarLen (0x24 :: tag ++ [0x24]) (bs.drop (tag.length + 1))).map fun n =>
        (.dollarString, tag.length + 1 + n)
    else some (.char, 0)

/-- The strings that open with `b` and, after it, `bs`: how they are read, and what more of
the opening there is. -/
def opening (b : UInt8) (bs : Bytes) : Option (Kind × Quoting × ℕ) :=
  if b = 0x27 then some (.string, plainQuote, 0)
  else if b = 0x22 then some (.quotedIdent, identQuote, 0)
  else if (b = 0x65 ∨ b = 0x45) ∧ bs.head? = some 0x27 then some (.prefixed, escapeQuote, 1)
  else if (b = 0x62 ∨ b = 0x42 ∨ b = 0x78 ∨ b = 0x58) ∧ bs.head? = some 0x27 then
    some (.prefixed, bitQuote, 1)
  else if (b = 0x75 ∨ b = 0x55) ∧ [0x26, 0x27] <+: bs then some (.prefixed, plainQuote, 2)
  else if (b = 0x75 ∨ b = 0x55) ∧ [0x26, 0x22] <+: bs then some (.quotedIdent, identQuote, 2)
  else none

/-- The two-character lexemes that are no operators: `::`, `..` and `:=`. -/
def isPair (b : UInt8) (bs : Bytes) : Bool :=
  [[0x3A, 0x3A], [0x2E, 0x2E], [0x3A, 0x3D]].contains (b :: bs.take 1)

def munch : Bytes → Option (Kind × ℕ)
  | [] => none
  | b :: bs =>
    match opening b bs with
    | some (.quotedIdent, q, more) =>
      (bodyLen q (bs.drop more)).map fun n => (.quotedIdent, more + n)
    | some (kind, q, more) =>
      (stringLen q bs.length (bs.drop more)).map fun n => (kind, more + n)
    | none =>
      if isSpace b then some (.blank, 0)
      else if b = 0x2D ∧ bs.head? = some 0x2D then
        some (.comment, (bs.takeWhile (!isNewline ·)).length)
      else if b = 0x2F ∧ bs.head? = some 0x2A then
        (blockLen 0 (bs.drop 1)).map fun n => (.comment, 1 + n)
      else if b = 0x24 then dollarMunch bs
      else if isDigit b ∨ (b = 0x2E ∧ bs.head?.any isDigit) then
        (numberLen (b :: bs)).map fun n => (.number, n - 1)
      else if isIdentStart b then some (.ident, (bs.takeWhile isIdentCont).length)
      else if opChars.contains b then some (.op, opMore b bs)
      else if isPair b bs then some (.char, 1)
      else some (.char, 0)

abbrev lex : Bytes → Option (List Token) := Sql.lex munch

/-- The lexemes that mean something: the others separate them. -/
def Significant (l : Token) : Bool := l.kind != .blank && l.kind != .comment

def tokens (ls : List Token) : List Token := ls.filter Significant

end MiddleWhere.Sql.Pg
