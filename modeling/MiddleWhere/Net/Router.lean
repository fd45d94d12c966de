import MiddleWhere.Net.MysqlServer

/-!
# The MySQL command loop

One command packet after another: quit, ping and query are handled, everything else is
refused. A query is evaluated by the firewall, logged and audited, and run on a pooled
connection whose result set is passed on packet by packet.
-/

namespace MiddleWhere.Net
open Prog Firewall

inductive RouterError
  | framing (e : FramingError)
  | backend (reason : String)

def reply (seq : SequenceCounter) (payload : Bytes) : SessionProg RouterError SequenceCounter :=
  (writePacket seq payload).mapErr .framing

def replyAll : SequenceCounter → List Bytes → SessionProg RouterError SequenceCounter
  | seq, [] => pure seq
  | seq, p :: ps => do replyAll (← reply seq p) ps

/-- `while let Some(row) = qr.next().await? { .. }`, up to the end of the rows. -/
def replyRows (deps : SessionDeps) : SequenceCounter → List Row →
    SessionProg RouterError SequenceCounter
  | seq, [] => pure seq
  | seq, row :: rows => do
    let packet ← lift (rowTextPacket deps row)
    replyRows deps (← reply seq packet) rows

theorem replyRows_cons (deps : SessionDeps) (seq : SequenceCounter) (row : Row)
    (rows : List Row) : replyRows deps seq (row :: rows) =
      (reply seq (rowText deps row)).bind fun seq => replyRows deps seq rows := by
  rw [replyRows, rowTextPacket_eq]
  rfl

/-- The result set of a statement that has columns. -/
def replyResultSet (deps : SessionDeps) (seq : SequenceCounter) (conn : ConnId)
    (cols : List Column) : SessionProg RouterError ℕ := do
  let seq ← reply seq (columnCountPacket cols.length)
  let seq ← replyAll seq (cols.map columnDefPacket)
  let (rows, failure) ← ask (.rows conn)
  let seq ← replyRows deps seq rows
  match failure with
  | some e => fail (.backend e)
  | none =>
    let _ ← reply seq (okEofPacket 0 0)
    return rows.length

/-- The block that turns a query's result into packets and yields the row count. -/
def replyResult (deps : SessionDeps) (seq : SequenceCounter) (conn : ConnId) :
    Option (List Column) → SessionProg RouterError ℕ
  | some (c :: cs) => replyResultSet deps seq conn (c :: cs)
  | _ => do
    let _ ← ask (.dropResult conn)
    let _ ← reply seq okPacket
    return 0

def denyQuery (ctx : SessionCtx) (seq : SequenceCounter) (sql reason : String) :
    SessionProg RouterError Unit := do
  -- the log line shows `&sql[..sql.len().min(64)]`
  let _ ← lift (Str.strSlice sql 0 (min (Str.len sql) 64))
  ask (.emit (ctx.event sql .deny (some reason) none))
  let _ ← reply seq (errPacket 1064 "42000" reason)
  return ()

/-- An infrastructure failure: audited with its cause, answered without it. -/
def failQuery (ctx : SessionCtx) (seq : SequenceCounter) (sql cause message : String) :
    SessionProg RouterError Unit := do
  ask (.emit (ctx.event sql .error (some cause) none))
  let _ ← reply seq (errPacket 1815 "HY000" message)
  return ()

def runQueryOn (ctx : SessionCtx) (seq : SequenceCounter) (sql : String) (conn : ConnId) :
    SessionProg RouterError Unit := do
  match ← ask (.queryIter conn sql) with
  | .error e => failQuery ctx seq sql ("backend: " ++ e) "query execution failed"
  | .ok columns =>
    let rowCount ← replyResult ctx.deps seq conn columns
    ask (.emit (ctx.event sql .allow none (some (UInt64.ofNat rowCount))))

def handleComQuery (ctx : SessionCtx) (seq : SequenceCounter) (sql : String) :
    SessionProg RouterError Unit := do
  match ← ask (.evaluate sql) with
  | .deny reason => denyQuery ctx seq sql reason
  | .allow =>
    match ← ask .poolGet with
    | .error e => failQuery ctx seq sql ("pool: " ++ e) "backend unavailable"
    | .ok conn => withConn conn (runQueryOn ctx seq sql conn)

theorem runQueryOn_eq (ctx : SessionCtx) (seq : SequenceCounter) (sql : String) (conn : ConnId) :
    runQueryOn ctx seq sql conn = .call (.queryIter conn sql) fun
      | .error e => failQuery ctx seq sql ("backend: " ++ e) "query execution failed"
      | .ok columns => (replyResult ctx.deps seq conn columns).bind fun n =>
        .call (.emit (ctx.event sql .allow none (some (UInt64.ofNat n)))) fun _ =>
          .halt (.ok ()) := rfl

theorem handleComQuery_eq (ctx : SessionCtx) (seq : SequenceCounter) (sql : String) :
    handleComQuery ctx seq sql = .call (.evaluate sql) fun
      | .deny reason => denyQuery ctx seq sql reason
      | .allow => .call .poolGet fun
        | .error e => failQuery ctx seq sql ("pool: " ++ e) "backend unavailable"
        | .ok conn => withConn conn (runQueryOn ctx seq sql conn) := rfl

theorem reply_uses (seq : SequenceCounter) (payload : Bytes) :
    (reply seq payload).Uses SessionOp.toClient :=
  uses_mapErr (writePacket_uses seq payload)

theorem replyAll_uses (seq : SequenceCounter) (payloads : List Bytes) :
    (replyAll seq payloads).Uses SessionOp.toClient := by
  induction payloads generalizing seq with
  | nil => trivial
  | cons p ps ih => exact uses_bind (reply_uses seq p) fun seq' => ih seq'

theorem replyRows_uses (deps : SessionDeps) (seq : SequenceCounter) (rows : List Row) :
    (replyRows deps seq rows).Uses SessionOp.toClient := by
  induction rows generalizing seq with
  | nil => trivial
  | cons row rows ih =>
    rw [replyRows_cons]
    exact uses_bind (reply_uses seq _) fun seq' => ih seq'

theorem replyResultSet_uses (deps : SessionDeps) (seq : SequenceCounter) (conn : ConnId)
    (cols : List Column) : (replyResultSet deps seq conn cols).Uses SessionOp.passesOn := by
  have hwrite {α : Type} {p : SessionProg RouterError α} (hp : p.Uses SessionOp.toClient) :
      p.Uses SessionOp.passesOn := uses_mono (fun o => SessionOp.toClient.passesOn) hp
  unfold replyResultSet
  apply uses_bind (hwrite (reply_uses _ _))
  intro seq
  apply uses_bind (hwrite (replyAll_uses _ _))
  intro seq
  refine ⟨trivial, fun r => ?_⟩
  apply uses_bind (hwrite (replyRows_uses _ _ _))
  intro seq
  cases r.2 with
  | none => exact uses_bind (hwrite (reply_uses _ _)) fun _ => trivial
  | some e => trivial

theorem replyResult_uses (deps : SessionDeps) (seq : SequenceCounter) (conn : ConnId)
    (cols : Option (List Column)) : (replyResult deps seq conn cols).Uses SessionOp.passesOn := by
  unfold replyResult
  split
  · exact replyResultSet_uses deps seq conn _
  · refine ⟨trivial, fun _ => ?_⟩
    apply uses_bind (uses_mono (fun o => SessionOp.toClient.passesOn) (reply_uses seq okPacket))
    exact fun _ => trivial

def hex2 (b : UInt8) : String := "0x" ++ String.ofList (hexByte b)

/-- Reads the next command; the end of the stream ends the session. -/
def readCommand : SessionProg RouterError (Option Bytes) := do
  match ← (readPacket 0).attempt with
  | .ok (pkt, _) => return some pkt
  | .error (.unexpectedEof _) => return none
  | .error e => fail (.framing e)

theorem readCommand_uses : readCommand.Uses SessionOp.fromClient := by
  apply uses_bind (uses_attempt (readPacket_uses 0))
  intro r
  rcases r with e | p
  · cases e <;> trivial
  · trivial

/-- One command. The read left the counter at one. -/
def handleCommand (ctx : SessionCtx) (pkt : Bytes) : SessionProg RouterError (Option Unit) :=
  match pkt with
  | [] => fail (.framing (.io "empty command packet"))
  | cmd :: body =>
    if cmd = 0x01 then return none
    else if cmd = 0x0E then do
      let _ ← reply 1 okPacket
      return some ()
    else if cmd = 0x03 then do
      handleComQuery ctx 1 (Str.fromUtf8Lossy body)
      return some ()
    else do
      let _ ← reply 1 (errPacket 1148 "42000" ("command " ++ hex2 cmd ++ " not supported"))
      return some ()

def serveSession (ctx : SessionCtx) : Loop sessionSig RouterError Unit Bytes where
  read := readCommand
  handle _ pkt := handleCommand ctx pkt

/-- The traces of a MySQL session. -/
def mysqlSem (ctx : SessionCtx) : Sem sessionSig Unit :=
  sessionSem (mysqlProfile ctx.deps.sqlparser) ctx.policy

end MiddleWhere.Net
