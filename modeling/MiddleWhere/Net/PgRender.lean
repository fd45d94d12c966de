import MiddleWhere.Net.PgProto

/-!
# Parameters as literals

A bound parameter becomes an SQL literal by its declared type and format, and replaces its
placeholder in the text of the statement. Binary payloads and arrays are decoded behind
length checks; the placeholder scanner skips literals, quoted identifiers and comments.
-/

namespace MiddleWhere.Net

/-! ## Scalars -/

def oidBool : ℤ := 16
def oidInt8 : ℤ := 20
def oidInt2 : ℤ := 21
def oidInt4 : ℤ := 23
def oidOid : ℤ := 26
def oidFloat4 : ℤ := 700
def oidFloat8 : ℤ := 701
def oidNumeric : ℤ := 1700

def quoteLit (s : String) : String :=
  String.ofList ('\'' :: s.toList.flatMap (fun c => if c = '\'' then ['\'', c] else [c]) ++ ['\''])

def isNumericOid (oid : ℤ) : Bool :=
  [oidInt2, oidInt4, oidInt8, oidOid, oidFloat4, oidFloat8, oidNumeric].contains oid

def isDigit (b : UInt8) : Bool := 0x30 ≤ b && b ≤ 0x39
def isAlpha (b : UInt8) : Bool := (0x41 ≤ b && b ≤ 0x5A) || (0x61 ≤ b && b ≤ 0x7A)
def isSign (b : UInt8) : Bool := b == 0x2B || b == 0x2D

def skipSign : Bytes → Bytes
  | b :: rest => if isSign b then rest else b :: rest
  | [] => []

/-- The digits at the front, if there are any, and the rest. -/
def skipDigits (bytes : Bytes) : Bool × Bytes :=
  (bytes.takeWhile isDigit ≠ [], bytes.dropWhile isDigit)

/-- The exponent of a number, when there is one. -/
def exponentEnds : Bytes → Bool
  | [] => true
  | b :: rest =>
    if b == 0x65 || b == 0x45 then
      let (exp, rest) := skipDigits (skipSign rest)
      exp && rest.isEmpty
    else false

def isSafeNumeric (s : String) : Bool :=
  let s := String.ofList (Str.trim s.toList)
  if ["NaN", "Infinity", "-Infinity", "+Infinity"].contains s then true
  else
    let (digits, rest) := skipDigits (skipSign (Str.asBytes s))
    let (fraction, rest) := match rest with
      | 0x2E :: rest => skipDigits rest
      | rest => (false, rest)
    (digits || fraction) && exponentEnds rest

/-- `fmt_float` on the bits of an `f64`. -/
def fmtFloat (deps : SessionDeps) (bits : UInt64) : String :=
  let exponent := bits.toNat / 2 ^ 52 % 2 ^ 11
  if exponent ≠ 2 ^ 11 - 1 then deps.showF64 bits
  else if bits.toNat % 2 ^ 52 ≠ 0 then "'NaN'"
  else if bits.toNat < 2 ^ 63 then "'Infinity'"
  else "'-Infinity'"

def elemTypeName (oid : ℤ) : String :=
  if oid = oidBool then "bool"
  else if oid = oidInt2 then "int2"
  else if oid = oidInt4 then "int4"
  else if oid = oidInt8 then "int8"
  else if oid = oidOid then "oid"
  else if oid = oidFloat4 then "float4"
  else if oid = oidFloat8 then "float8"
  else if oid = oidNumeric then "numeric"
  else if oid = 1042 then "bpchar"
  else if oid = 1043 then "varchar"
  else if oid = 19 then "name"
  else if oid = 18 then "char"
  else "text"

def arrayElemOid (oid : ℤ) : Option ℤ :=
  [(1000, oidBool), (1002, 18), (1003, 19), (1005, oidInt2), (1007, oidInt4), (1009, 25),
    (1014, 1042), (1015, 1043), (1016, oidInt8), (1021, oidFloat4), (1022, oidFloat8),
    (1028, oidOid), (1231, oidNumeric)].lookup oid

/-- `from_be_bytes` of the first `width` bytes, indexed one by one. -/
def intText (width : ℕ) (b : Bytes) : Outcome String String := do
  let bytes ← Outcome.slice b 0 width
  return toString (signed width (fromBe bytes))

def oidFamily : List ℤ := [2202, 2203, 2204, 2205, 2206, 4089, 24, 28, 29, 2200]

/-- A payload of a type that is not known. -/
def renderUnknown (b : Bytes) : Outcome String String :=
  if b.contains 0 then
    match b.length with
    | 2 => intText 2 b
    | 4 => intText 4 b
    | 8 => intText 8 b
    | _ => .err "unsupported binary parameter (NUL)"
  else .ok (quoteLit (Str.fromUtf8Lossy b))

def renderBinary (deps : SessionDeps) (oid : ℤ) (b : Bytes) : Outcome String String :=
  if oid = oidBool then .ok (if b.head?.getD 0 ≠ 0 then "TRUE" else "FALSE")
  else if oid = oidInt2 ∧ b.length = 2 then intText 2 b
  else if (oid = oidInt4 ∨ oid = oidOid) ∧ b.length = 4 then intText 4 b
  else if oid = oidInt8 ∧ b.length = 8 then intText 8 b
  else if oid = oidFloat4 ∧ b.length = 4 then do
    let bytes ← Outcome.slice b 0 4
    return fmtFloat deps (deps.widenF32 (UInt32.ofNat (fromBe bytes)))
  else if oid = oidFloat8 ∧ b.length = 8 then do
    let bytes ← Outcome.slice b 0 8
    return fmtFloat deps (UInt64.ofNat (fromBe bytes))
  else if oidFamily.contains oid ∧ b.length = 4 then intText 4 b
  else renderUnknown b

def renderText (oid : ℤ) (b : Bytes) : String :=
  let s := Str.fromUtf8Lossy b
  if oid = oidBool then
    if ["t", "true", "TRUE", "1", "y", "yes"].contains s then "TRUE" else "FALSE"
  else if isNumericOid oid && isSafeNumeric s then s
  else quoteLit s

def renderScalar (deps : SessionDeps) (oid fmt : ℤ) : Option Bytes → Outcome String String
  | none => .ok "NULL"
  | some b => if fmt = 1 then renderBinary deps oid b else .ok (renderText oid b)

/-! ## Arrays -/

/-- The closure `rd`: the `i32` at `p`. -/
def rd (b : Bytes) (p : ℕ) : Outcome String ℤ := do
  let bytes ← Outcome.slice b p (p + 4)
  return signed 4 (fromBe bytes)

/-- The dimensions: the number of elements, which is checked to stay below ten million. -/
def readDims (b : Bytes) : ℕ → ℕ → ℤ → Outcome String (ℤ × ℕ)
  | 0, pos, total => .ok (total, pos)
  | n + 1, pos, total =>
    if b.length < pos + 8 then .err "bad binary array dims"
    else do
      let dim := max (← rd b pos) 0
      let total := total * dim
      if total ≤ 10000000 then readDims b n (pos + 8) total
      else .err "binary array too large"

def readElems (b : Bytes) : ℕ → ℕ → Outcome String (List (Option Bytes))
  | 0, _ => .ok []
  | n + 1, pos =>
    if b.length < pos + 4 then .err "bad binary array elem len"
    else do
      let len ← rd b pos
      let pos := pos + 4
      if len < 0 then
        let rest ← readElems b n pos
        return none :: rest
      else
        let stop ← Outcome.addWord 64 pos len.toNat
        if b.length < stop then .err "bad binary array elem"
        else
          let elem ← Outcome.slice b pos stop
          let rest ← readElems b n stop
          return some elem :: rest

def decodeBinArray (b : Bytes) : Outcome String (ℤ × List (Option Bytes)) :=
  if b.length < 12 then .err "bad binary array"
  else do
    let ndim ← rd b 0
    let elemOid ← rd b 8
    if ndim = 0 then return (elemOid, [])
    else if 1 ≤ ndim ∧ ndim ≤ 6 then
      let (total, pos) ← readDims b ndim.toNat 12 1
      let elems ← readElems b total.toNat pos
      return (elemOid, elems)
    else .err "bad binary array ndim"

def renderElems (deps : SessionDeps) (elemOid : ℤ) :
    List (Option Bytes) → Outcome String (List String)
  | [] => .ok []
  | e :: es => do
    let part ← renderScalar deps elemOid 1 e
    let parts ← renderElems deps elemOid es
    return part :: parts

def renderArray (deps : SessionDeps) (fallbackElem fmt : ℤ) (b : Bytes) :
    Outcome String String :=
  if fmt = 1 then do
    let (elemOid, elems) ← decodeBinArray b
    if elems.isEmpty then return "ARRAY[]::" ++ elemTypeName elemOid ++ "[]"
    else
      let parts ← renderElems deps elemOid elems
      return "ARRAY[" ++ ",".intercalate parts ++ "]"
  else if b.contains 0 then .err "array text contains NUL"
  else .ok (quoteLit (Str.fromUtf8Lossy b) ++ "::" ++ elemTypeName fallbackElem ++ "[]")

def renderParam (deps : SessionDeps) (oid fmt : ℤ) : Option Bytes → Outcome String String
  | none => .ok "NULL"
  | some b =>
    match arrayElemOid oid with
    | some fallbackElem => renderArray deps fallbackElem fmt b
    | none => renderScalar deps oid fmt (some b)

/-! ## Placeholders -/

inductive ScanState
  | normal
  | sQuote
  | dQuote
  | line
  | block
  | dollar (delim : Bytes)

/-- `.parse::<usize>().unwrap_or(0)` of ASCII digits. -/
def parseIndex (digits : Bytes) : ℕ :=
  let n := digits.foldl (fun acc b => acc * 10 + (b.toNat - 0x30)) 0
  if n < 2 ^ 64 then n else 0

def isTagByte (b : UInt8) : Bool := b == 0x5F || isAlpha b || isDigit b

section
variable {ε : Type} (sql : String) (rendered : List String)

/-- What the scanner does at byte `i`: the next state, the bytes it copies and how far it
moves beyond the next byte. -/
def placeholder (i : ℕ) : Outcome ε (ScanState × Bytes × ℕ) := do
  let b := Str.asBytes sql
  let digits := (b.drop (i + 1)).takeWhile isDigit
  let j := i + 1 + digits.length
  let idx := parseIndex (← Str.strSlice sql (i + 1) j)
  if 1 ≤ idx ∧ idx ≤ rendered.length then
    let text ← Outcome.index rendered (idx - 1)
    return (.normal, Str.asBytes text, digits.length)
  else
    let text ← Outcome.slice b i j
    return (.normal, text, digits.length)

def dollarOpen (i : ℕ) (c : UInt8) : Outcome ε (ScanState × Bytes × ℕ) := do
  let b := Str.asBytes sql
  let tag := (b.drop (i + 1)).takeWhile isTagByte
  let j := i + 1 + tag.length
  if b[j]? = some 0x24 then
    let delim ← Outcome.slice b i (j + 1)
    return (.dollar delim, delim, tag.length + 1)
  else return (.normal, [c], 0)

def normalStep (i : ℕ) (c : UInt8) : Outcome ε (ScanState × Bytes × ℕ) :=
  let next := (Str.asBytes sql)[i + 1]?
  if c = 0x27 then .ok (.sQuote, [c], 0)
  else if c = 0x22 then .ok (.dQuote, [c], 0)
  else if c = 0x2D ∧ next = some 0x2D then .ok (.line, [0x2D, 0x2D], 1)
  else if c = 0x2F ∧ next = some 0x2A then .ok (.block, [0x2F, 0x2A], 1)
  else if c = 0x24 ∧ next.any isDigit then placeholder sql rendered i
  else if c = 0x24 ∧ next.any (fun n => n == 0x24 || n == 0x5F || isAlpha n) then
    dollarOpen sql i c
  else .ok (.normal, [c], 0)

def scanStep (i : ℕ) (c : UInt8) : ScanState → Outcome ε (ScanState × Bytes × ℕ)
  | .normal => normalStep sql rendered i c
  | .sQuote => .ok (if c = 0x27 then .normal else .sQuote, [c], 0)
  | .dQuote => .ok (if c = 0x22 then .normal else .dQuote, [c], 0)
  | .line => .ok (if c = 0x0A then .normal else .line, [c], 0)
  | .block =>
    if c = 0x2A ∧ (Str.asBytes sql)[i + 1]? = some 0x2F then .ok (.normal, [c, 0x2F], 1)
    else .ok (.block, [c], 0)
  | .dollar delim =>
    if delim <+: (Str.asBytes sql).drop i then .ok (.normal, delim, delim.length - 1)
    else .ok (.dollar delim, [c], 0)

def scan (st : ScanState) (i : ℕ) (out : Bytes) : Outcome ε Bytes :=
  if _h : i < (Str.asBytes sql).length then
    match scanStep sql rendered i (Str.asBytes sql)[i] st with
    | .ok (st, copied, more) => scan st (i + 1 + more) (out ++ copied)
    | .err e => .err e
    | .panic => .panic
  else .ok out
termination_by (Str.asBytes sql).length - i

def inlineParams : Outcome ε String := do
  let out ← scan sql rendered .normal 0 []
  return Str.fromUtf8Lossy out

/-! ## Texts without placeholders -/

/-- The bytes that open a literal, an identifier, a comment or a placeholder. -/
def special : Bytes := [0x27, 0x22, 0x2D, 0x2F, 0x24]

variable {sql rendered}

theorem normalStep_plain {i : ℕ} {c : UInt8} (hc : c ∉ special) :
    (normalStep sql rendered i c : Outcome ε _) = .ok (.normal, [c], 0) := by
  simp only [special, List.mem_cons, List.not_mem_nil, or_false, not_or] at hc
  simp [normalStep, hc]

theorem scan_plain (hplain : ∀ c ∈ Str.asBytes sql, c ∉ special) (i : ℕ) (out : Bytes) :
    (scan sql rendered .normal i out : Outcome ε _) = .ok (out ++ (Str.asBytes sql).drop i) := by
  induction hn : (Str.asBytes sql).length - i generalizing i out with
  | zero =>
    have hle : (Str.asBytes sql).length ≤ i := by omega
    rw [scan, dif_neg (by omega), List.drop_eq_nil_of_le hle, List.append_nil]
  | succ n ih =>
    have hi : i < (Str.asBytes sql).length := by omega
    have hstep : (normalStep sql rendered i (Str.asBytes sql)[i] : Outcome ε _) =
        .ok (.normal, [(Str.asBytes sql)[i]], 0) :=
      normalStep_plain (hplain _ (List.getElem_mem hi))
    rw [scan, dif_pos hi, scanStep, hstep]
    dsimp only
    rw [ih (i + 1 + 0) _ (by omega), Nat.add_zero, List.append_assoc, List.singleton_append,
      ← List.drop_eq_getElem_cons hi]

theorem inlineParams_plain (hplain : ∀ c ∈ Str.asBytes sql, c ∉ special) :
    (inlineParams sql rendered : Outcome ε _) = .ok (Str.fromUtf8Lossy (Str.asBytes sql)) := by
  unfold inlineParams
  rw [scan_plain hplain]
  rfl

end

end MiddleWhere.Net
