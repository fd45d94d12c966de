import MiddleWhere.Net.Session

/-!
# PostgreSQL v3 messages

A message is a type byte, an Int32 length that counts itself, and the payload. The parsers
of extended-query bodies read counts and lengths that the client chose at positions that
earlier fields determine; every access is one that panics outside the body.
-/

namespace MiddleWhere.Net
open Prog

inductive EngineError
  | auth
  | unsupported
  | backend (reason : String)
  | other (reason : String)

/-! ## Integers -/

/-- A word of `8 * width` bits, as a signed number. -/
def signed (width n : ℕ) : ℤ :=
  if n % 2 ^ (8 * width) < 2 ^ (8 * width - 1) then (n % 2 ^ (8 * width) : ℕ)
  else (n % 2 ^ (8 * width) : ℕ) - 2 ^ (8 * width)

def fromBe (bytes : Bytes) : ℕ := bytes.foldl (fun acc b => acc * 256 + b.toNat) 0

def be (width : ℕ) (n : ℤ) : Bytes :=
  ((List.range width).map fun i =>
    UInt8.ofNat ((n % 2 ^ (8 * width)).toNat / 2 ^ (8 * i))).reverse

/-- `as i32` -/
def asI32 (n : ℕ) : ℤ := signed 4 n

/-! ## Frames -/

/-- The length field is computed in `i32`; the addition must not overflow. -/
@[irreducible] def msg {ε : Type} (tag : Char) (payload : Bytes) : Outcome ε Bytes :=
  let len := asI32 payload.length + 4
  if len < 2 ^ 31 then .ok (UInt8.ofNat tag.toNat :: be 4 len ++ payload) else .panic

def cstr (s : String) : Bytes := Str.asBytes s ++ [0]

section
variable {ε : Type}

def readyForQuery : Outcome ε Bytes := msg 'Z' (Str.asBytes "I")

def errorResponse (sqlstate message : String) : Outcome ε Bytes :=
  msg 'E' (Str.asBytes "S" ++ cstr "ERROR" ++ Str.asBytes "V" ++ cstr "ERROR" ++
    Str.asBytes "C" ++ cstr sqlstate ++ Str.asBytes "M" ++ cstr message ++ [0])

def columnDescription (col : String × ℤ) : Bytes :=
  cstr col.1 ++ be 4 0 ++ be 2 0 ++ be 4 col.2 ++ be 2 (-1) ++ be 4 (-1) ++ be 2 0

def rowDescription (cols : List (String × ℤ)) : Outcome ε Bytes :=
  msg 'T' (be 2 cols.length ++ cols.flatMap columnDescription)

def cellText : Option Bytes → Bytes
  | none => be 4 (-1)
  | some b => be 4 b.length ++ b

def dataRow (cells : List (Option Bytes)) : Outcome ε Bytes :=
  msg 'D' (be 2 cells.length ++ cells.flatMap cellText)

def commandComplete (tag : String) : Outcome ε Bytes := msg 'C' (cstr tag)

def parseComplete : Outcome ε Bytes := msg '1' []
def bindComplete : Outcome ε Bytes := msg '2' []
def closeComplete : Outcome ε Bytes := msg '3' []
def noData : Outcome ε Bytes := msg 'n' []
def emptyQueryResponse : Outcome ε Bytes := msg 'I' []

def parameterDescription (oids : List ℤ) : Outcome ε Bytes :=
  msg 't' (be 2 oids.length ++ oids.flatMap (be 4))

end

/-! ## Reading -/

inductive PgProtoError
  | io (reason : String)
  | closed
  | malformed (what : String)

def PgProtoError.toEngine : PgProtoError → EngineError
  | .closed => .other "client closed"
  | .io e => .other ("io: " ++ e)
  | .malformed what => .other ("malformed: " ++ what)

def readExact (n : ℕ) : SessionProg PgProtoError Bytes := do
  match ← ask (.recv n) with
  | .ok bytes => return bytes
  | .error .eof => fail .closed
  | .error (.io e) => fail (.io e)

def maxMessage : ℤ := 64 * 1024 * 1024

/-- The header buffer has five bytes, so no other pattern is met. -/
def readMessage : SessionProg PgProtoError (UInt8 × Bytes) := do
  match ← readExact 5 with
  | tag :: lenBytes =>
    let len := asI32 (fromBe lenBytes)
    if 4 ≤ len ∧ len ≤ maxMessage then
      let body ← readExact (len - 4).toNat
      return (tag, body)
    else fail (.malformed "message length out of range")
  | [] => lift .panic

theorem readExact_uses (n : ℕ) : (readExact n).Uses SessionOp.fromClient := by
  refine ⟨trivial, fun r => ?_⟩
  rcases r with (_ | e) | bytes
  · trivial
  · trivial
  · trivial

theorem readMessage_uses : readMessage.Uses SessionOp.fromClient := by
  apply uses_bind (readExact_uses 5)
  intro header
  split
  · dsimp only
    split_ifs with hlen
    · apply uses_bind (readExact_uses _)
      exact fun _ => trivial
    · trivial
  · trivial

def writeRaw (bytes : Outcome PgProtoError Bytes) : SessionProg EngineError Unit := do
  let bytes ← (lift bytes).mapErr PgProtoError.toEngine
  let r ← ask (.write bytes)
  ofExcept (r.mapError fun e => (PgProtoError.io e).toEngine)

theorem writeRaw_uses (bytes : Outcome PgProtoError Bytes) :
    (writeRaw bytes).Uses SessionOp.toClient := by
  apply uses_bind (uses_mapErr (by trivial))
  intro frame
  exact ⟨trivial, fun _ => uses_ofExcept _⟩

/-! ## Bodies -/

section
variable {ε : Type}

def readCstr (buf : Bytes) (pos : ℕ) : Outcome ε (String × ℕ) := do
  let stop := pos + ((buf.drop pos).takeWhile (· ≠ 0)).length
  let text ← Outcome.slice buf pos stop
  return (Str.fromUtf8Lossy text, if stop < buf.length then stop + 1 else stop)

/-- `read_i16` and `read_i32`: `width` bytes at `pos`, indexed one by one. -/
def readInt (width : ℕ) (buf : Bytes) (pos : ℕ) : Outcome ε (ℤ × ℕ) := do
  let bytes ← Outcome.slice buf pos (pos + width)
  return (signed width (fromBe bytes), pos + width)

def readI16 (buf : Bytes) (pos : ℕ) : Outcome ε (ℤ × ℕ) := readInt 2 buf pos
def readI32 (buf : Bytes) (pos : ℕ) : Outcome ε (ℤ × ℕ) := readInt 4 buf pos

structure ParseMsg where
  stmt : String
  query : String

def parseParse (body : Bytes) : Outcome ε (Option ParseMsg) := do
  let (stmt, p) ← readCstr body 0
  let (query, _) ← readCstr body p
  return some ⟨stmt, query⟩

/-- `paramFormats` has one code for each parameter. -/
structure BindMsg where
  portal : String
  stmt : String
  paramFormats : List ℤ
  params : List (Option Bytes)

def readFormats (body : Bytes) : ℕ → ℕ → Outcome ε (List ℤ × ℕ)
  | 0, p => .ok ([], p)
  | n + 1, p => do
    let (fmt, p) ← readI16 body p
    let (fmts, p) ← readFormats body n p
    return (fmt :: fmts, p)

def readParams (body : Bytes) : ℕ → ℕ → Outcome ε (List (Option Bytes) × ℕ)
  | 0, p => .ok ([], p)
  | n + 1, p => do
    let (len, p) ← readI32 body p
    if len < 0 then
      let (params, p) ← readParams body n p
      return (none :: params, p)
    else
      let stop ← Outcome.addWord 64 p len.toNat
      let value ← Outcome.slice body p stop
      let (params, p) ← readParams body n stop
      return (some value :: params, p)

def normalizeFormats (nfmt : ℕ) (fmts : List ℤ) : List ℕ → Outcome ε (List ℤ)
  | [] => .ok []
  | i :: is => do
    let fmt ← match nfmt with
      | 0 => .ok 0
      | 1 => Outcome.index fmts 0
      | _ => .ok (fmts[i]?.getD 0)
    let rest ← normalizeFormats nfmt fmts is
    return fmt :: rest

def parseBind (body : Bytes) : Outcome ε (Option BindMsg) := do
  let (portal, p) ← readCstr body 0
  let (stmt, p) ← readCstr body p
  let (nfmt, p) ← readI16 body p
  let (fmts, p) ← readFormats body nfmt.toNat p
  let (nparams, p) ← readI16 body p
  let (params, _) ← readParams body nparams.toNat p
  let paramFormats ← normalizeFormats nfmt.toNat fmts (List.range nparams.toNat)
  return some ⟨portal, stmt, paramFormats, params⟩

/-- The byte tells a statement from a portal. -/
def parseDescribeOrClose (body : Bytes) : Outcome ε (Option (UInt8 × String)) :=
  if body.isEmpty then .ok none
  else do
    let kind ← Outcome.index body 0
    let (name, _) ← readCstr body 1
    return some (kind, name)

def parseExecute (body : Bytes) : Outcome ε (Option String) := do
  let (name, _) ← readCstr body 0
  return some name

end

end MiddleWhere.Net
