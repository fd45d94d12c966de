import MiddleWhere.Core.Audit
import MiddleWhere.Core.Policy
import MiddleWhere.Effects.Monitor
import MiddleWhere.Effects.Loop

/-!
# What a client session calls

The sessions of both engines are programs over one interface: the client's socket, the
firewall, the audit log, the backend pool and the backend connections it hands out. Every
answer of the socket, the pool and the backend is possible at any time. The firewall is a
pure function; it is called through the interface so that a trace shows when each text was
evaluated.
-/

namespace MiddleWhere.Net
open Prog Firewall

abbrev ConnId := ℕ

inductive RecvError
  | eof
  | io (reason : String)

structure Column where
  schema : String
  table : String
  orgTable : String
  name : String
  orgName : String
  characterSet : UInt16
  columnLength : UInt32
  columnType : UInt8
  flags : UInt16
  decimals : UInt8

/-- Floats are kept as their bits. -/
inductive Value
  | null
  | bytes (b : Bytes)
  | int (n : Int64)
  | uint (n : UInt64)
  | float (bits : UInt32)
  | double (bits : UInt64)
  | date (year : UInt16) (month day hour minute second : UInt8) (micros : UInt32)
  | time (negative : Bool) (days : UInt32) (hours minutes seconds : UInt8) (micros : UInt32)

abbrev Row := List Value

/-- The messages of a simple query; a row comes with the names of its columns. -/
inductive SimpleQueryMessage
  | row (columns : List String) (cells : List (Option Bytes))
  | commandComplete (n : UInt64)
  | other

inductive SessionOp
  | recv (n : ℕ)
  | write (bytes : Bytes)
  | flush
  | evaluate (sql : String)
  | emit (event : AuditEvent)
  | poolGet
  | poolPut (conn : ConnId)
  | queryIter (conn : ConnId) (sql : String)
  | rows (conn : ConnId)
  | dropResult (conn : ConnId)
  | simpleQuery (conn : ConnId) (sql : String)
  | prepare (conn : ConnId) (sql : String)
  | fillBytes (n : ℕ)

/-- `queryIter` answers the columns of the first result set, `rows` the rows that `next` will
yield and the error that ends them, if one does, and `prepare` the type OIDs of the
parameters and the columns. -/
abbrev SessionOp.Res : SessionOp → Type
  | .recv _ => Except RecvError Bytes
  | .write _ | .flush => Except String Unit
  | .evaluate _ => Decision
  | .emit _ | .poolPut _ => Unit
  | .poolGet => Except String ConnId
  | .queryIter _ _ => Except String (Option (List Column))
  | .rows _ => List Row × Option String
  | .dropResult _ => Except String Unit
  | .simpleQuery _ _ => Except String (List SimpleQueryMessage)
  | .prepare _ _ => Except String (List UInt32 × List (String × UInt32))
  | .fillBytes _ => Bytes

abbrev sessionSig : Sig := ⟨SessionOp, SessionOp.Res⟩

abbrev SessionEvent := Event sessionSig

abbrev SessionProg (ε α : Type) := Prog sessionSig ε α

def ask {ε : Type} (o : SessionOp) : SessionProg ε o.Res := perform (S := sessionSig) o

/-- The third-party code that a session's own code calls. `showF64` prints a finite float. -/
structure SessionDeps where
  sqlparser : Sqlparser
  sha256 : Bytes → Bytes
  sha1 : Bytes → Bytes
  widenF32 : UInt32 → UInt64
  showF64 : UInt64 → String
  formatFloat : UInt64 → String

/-- What the session was accepted with. -/
structure SessionCtx where
  deps : SessionDeps
  envName : String
  clientUser : String
  policy : Policy

def SessionCtx.event (ctx : SessionCtx) (sql : String) (decision : AuditDecision)
    (denyReason : Option String) (rows : Option UInt64) : AuditEvent :=
  .new ctx.deps.sha256 ctx.envName ctx.clientUser sql decision denyReason rows

/-- Only the firewall answers one way; a read that succeeds fills its buffer, as the random
generator does. -/
def sessionSem (profile : PolicyProfile) (policy : Policy) : Sem sessionSig Unit
  | _, .recv n, r, _ => ∀ bytes, r = .ok bytes → bytes.length = n
  | _, .fillBytes n, bytes, _ => bytes.length = n
  | _, .evaluate sql, r, _ => r = Firewall.evaluate sql policy profile
  | _, _, _, _ => True

def SessionOp.fromClient : SessionOp → Prop
  | .recv _ => True
  | _ => False

def SessionOp.toClient : SessionOp → Prop
  | .write _ | .flush => True
  | _ => False

/-- The operations that pass a result on to the client. -/
def SessionOp.passesOn : SessionOp → Prop
  | .write _ | .flush | .rows _ | .dropResult _ => True
  | _ => False

theorem SessionOp.toClient.passesOn {o : SessionOp} (h : o.toClient) : o.passesOn := by
  cases o with
  | write bytes => trivial
  | flush => trivial
  | _ => exact h.elim

/-- Runs `body` with a connection, which goes back to the pool when the function returns. -/
def withConn {ε α : Type} (conn : ConnId) (body : SessionProg ε α) : SessionProg ε α :=
  body.finally_ (.poolPut conn)

end MiddleWhere.Net
