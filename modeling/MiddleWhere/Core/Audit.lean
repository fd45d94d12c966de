import MiddleWhere.Core.Config
import MiddleWhere.Data.Str

/-!
# Audit events

One record for every statement that the proxy decides on. The statement itself is kept out
of the record: it holds a hash of it and its first 64 characters. The hash function is
third-party code; the clock fields are filled in when the record is written and are left
out here. A second kind of record is kept of what administrators ask of the daemon.
-/

namespace MiddleWhere

inductive AuditDecision
  | allow | deny | error
deriving DecidableEq

structure AuditEvent where
  env : String
  clientUser : String
  stmtHash : String
  stmtFirst64 : String
  decision : AuditDecision
  denyReason : Option String
  rows : Option UInt64
deriving DecidableEq

def hexDigit (n : ℕ) : Char := if n < 10 then Char.ofNat (48 + n) else Char.ofNat (87 + n)

def hexByte (b : UInt8) : List Char := [hexDigit (b.toNat / 16), hexDigit (b.toNat % 16)]

def hashStmt (sha256 : Bytes → Bytes) (sql : String) : String :=
  "sha256:" ++ String.ofList ((sha256 (Str.asBytes sql)).flatMap hexByte)

/-- The first 64 characters, not bytes: no slice is taken. -/
def first64 (sql : String) : String := String.ofList (sql.toList.take 64)

def AuditEvent.new (sha256 : Bytes → Bytes) (env clientUser sql : String)
    (decision : AuditDecision) (denyReason : Option String) (rows : Option UInt64) :
    AuditEvent where
  env := env
  clientUser := clientUser
  stmtHash := hashStmt sha256 sql
  stmtFirst64 := first64 sql
  decision := decision
  denyReason := denyReason
  rows := rows

/-- One administrative request, or the decision on whether to hear one. -/
structure AdminEvent where
  kind : String
  action : String
  target : String
  peerUid : Option UInt32
  peerGid : Option UInt32
  peerUser : String
  decision : AuditDecision
  error : Option String
deriving DecidableEq

def AdminEvent.new (action target : String) (peerUid peerGid : Option UInt32) (peerUser : String)
    (decision : AuditDecision) (error : Option String) : AdminEvent where
  kind := "admin"
  action := action
  target := target
  peerUid := peerUid
  peerGid := peerGid
  peerUser := peerUser
  decision := decision
  error := error

end MiddleWhere
