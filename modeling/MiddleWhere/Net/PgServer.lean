import MiddleWhere.Net.PgRender

/-!
# The PostgreSQL session

Simple queries and the extended query protocol: prepared statements and portals are tables
by name, a portal holds the text with its parameters inlined, and after an error the
session skips messages until the next Sync. Text reaches the backend from three places:
a Parse, a simple query and an Execute.
-/

namespace MiddleWhere.Net
open Prog Firewall

def sqlstateInsufficientPrivilege : String := "42501"
def sqlstateInternal : String := "58000"
def sqlstateFeatureNotSupported : String := "0A000"

def toAsciiUppercase (cs : List Char) : List Char := cs.map Char.toUpper

/-- The verb is what comes before the first white space or parenthesis. -/
def commandTag (sql : String) (rows : ℕ) : String :=
  let verb := String.ofList (toAsciiUppercase
    ((Str.trimStart sql.toList).takeWhile fun c => !(Str.isWhitespace c || c == '(')))
  if verb = "INSERT" then "INSERT 0 " ++ toString rows
  else if ["SELECT", "WITH", "VALUES", "SHOW", "TABLE"].contains verb then
    "SELECT " ++ toString rows
  else if verb = "UPDATE" then "UPDATE " ++ toString rows
  else if verb = "DELETE" then "DELETE " ++ toString rows
  else if verb ≠ "" then verb
  else "SELECT 0"

structure ResultSet where
  cols : List String
  rows : List (List (Option Bytes))
  tag : String

/-- The loop of `run_query` over the backend's messages. -/
def collect : List SimpleQueryMessage → List String → List (List (Option Bytes)) → UInt64 →
    List String × List (List (Option Bytes)) × UInt64
  | [], cols, rows, affected => (cols, rows, affected)
  | .row columns cells :: msgs, cols, rows, affected =>
    collect msgs (if cols.isEmpty then columns else cols) (rows ++ [cells]) affected
  | .commandComplete n :: msgs, cols, rows, _ => collect msgs cols rows n
  | .other :: msgs, cols, rows, affected => collect msgs cols rows affected

def resultSet (sql : String) (msgs : List SimpleQueryMessage) : ResultSet :=
  let (cols, rows, affected) := collect msgs [] [] 0
  let tag :=
    if rows.isEmpty && cols.isEmpty then commandTag sql affected.toNat
    else commandTag sql rows.length
  ⟨cols, rows, tag⟩

def runQuery (conn : ConnId) (sql : String) :
    SessionProg EngineError (Except String ResultSet) := do
  match ← ask (.simpleQuery conn sql) with
  | .error e => return .error e
  | .ok msgs => return .ok (resultSet sql msgs)

def writeRows : List (List (Option Bytes)) → SessionProg EngineError Unit
  | [] => pure ()
  | row :: rows => do
    writeRaw (dataRow row)
    writeRows rows

def writeResultSet (rs : ResultSet) : SessionProg EngineError Unit := do
  if rs.cols.isEmpty then writeRaw noData
  else
    writeRaw (rowDescription (rs.cols.map fun n => (n, 25)))
    writeRows rs.rows
  writeRaw (commandComplete rs.tag)

/-- The part of `exec_rows_only` that streams the result. -/
def writeRowsOnly (rs : ResultSet) : SessionProg EngineError Unit := do
  writeRows rs.rows
  writeRaw (commandComplete rs.tag)

theorem writeRows_uses (rows : List (List (Option Bytes))) :
    (writeRows rows).Uses SessionOp.toClient := by
  induction rows with
  | nil => trivial
  | cons row rows ih => exact uses_bind (writeRaw_uses _) fun _ => ih

theorem writeResultSet_uses (rs : ResultSet) : (writeResultSet rs).Uses SessionOp.toClient := by
  unfold writeResultSet
  split_ifs with hcols
  · exact uses_bind (writeRaw_uses _) fun _ => writeRaw_uses _
  · exact uses_bind (writeRaw_uses _) fun _ =>
      uses_bind (writeRows_uses _) fun _ => writeRaw_uses _

theorem writeRowsOnly_uses (rs : ResultSet) : (writeRowsOnly rs).Uses SessionOp.toClient :=
  uses_bind (writeRows_uses _) fun _ => writeRaw_uses _

/-- The common body of `exec_rows_only` and `firewalled_exec`, which differ in how they write
the result. -/
def firewalled (write : ResultSet → SessionProg EngineError Unit) (ctx : SessionCtx)
    (sql : String) : SessionProg EngineError Bool := do
  match ← ask (.evaluate sql) with
  | .deny reason =>
    ask (.emit (ctx.event sql .deny (some reason) none))
    writeRaw (errorResponse sqlstateInsufficientPrivilege reason)
    return false
  | .allow =>
    match ← ask .poolGet with
    | .error _ =>
      writeRaw (errorResponse sqlstateInternal "backend unavailable")
      return false
    | .ok conn => withConn conn do
      match ← runQuery conn sql with
      | .error _ =>
        ask (.emit (ctx.event sql .deny (some "backend error") none))
        writeRaw (errorResponse sqlstateInternal "query failed")
        return false
      | .ok rs =>
        write rs
        ask (.emit (ctx.event sql .allow none (some (UInt64.ofNat rs.rows.length))))
        return true

def execRowsOnly (ctx : SessionCtx) (sql : String) : SessionProg EngineError Bool :=
  firewalled writeRowsOnly ctx sql

def firewalledExec (ctx : SessionCtx) (sql : String) : SessionProg EngineError Bool :=
  firewalled writeResultSet ctx sql

def backendDescribe (sql : String) :
    SessionProg EngineError (Except String (List ℤ × List (String × ℤ))) := do
  match ← ask .poolGet with
  | .error e => return .error e
  | .ok conn => withConn conn do
    match ← ask (.prepare conn sql) with
    | .error e => return .error e
    | .ok (params, cols) =>
      return .ok (params.map fun oid => asI32 oid.toNat,
        cols.map fun (name, oid) => (name, asI32 oid.toNat))

/-! ## The loop -/

structure Prepared where
  sql : String
  paramOids : List ℤ
  colMeta : List (String × ℤ)

structure Portal where
  stmt : String
  sql : String

structure PgState where
  prepared : Table Prepared := ∅
  portals : Table Portal := ∅
  skipUntilSync : Bool := false

/-- An ErrorResponse, after which messages are skipped until Sync. -/
def failUntilSync (st : PgState) (sqlstate message : String) :
    SessionProg EngineError (Option PgState) := do
  writeRaw (errorResponse sqlstate message)
  return some { st with skipUntilSync := true }

/-- The text before the first NUL. -/
def queryText (body : Bytes) : String := Str.fromUtf8Lossy (body.takeWhile (· ≠ 0))

def onQuery (ctx : SessionCtx) (st : PgState) (body : Bytes) :
    SessionProg EngineError (Option PgState) := do
  let sql := queryText body
  if (Str.trim sql.toList).isEmpty then writeRaw emptyQueryResponse
  else
    let _ ← firewalledExec ctx sql
  writeRaw readyForQuery
  return some st

def onParse (ctx : SessionCtx) (st : PgState) (body : Bytes) :
    SessionProg EngineError (Option PgState) := do
  if st.skipUntilSync then return some st
  else match ← lift (parseParse body) with
    | none => failUntilSync st sqlstateFeatureNotSupported "bad Parse"
    | some m =>
      match ← ask (.evaluate m.query) with
      | .deny reason =>
        ask (.emit (ctx.event m.query .deny (some reason) none))
        failUntilSync st sqlstateInsufficientPrivilege reason
      | .allow =>
        match ← backendDescribe m.query with
        | .ok (paramOids, colMeta) =>
          let st := { st with prepared := st.prepared.insert m.stmt ⟨m.query, paramOids, colMeta⟩ }
          writeRaw parseComplete
          return some st
        | .error _ => failUntilSync st sqlstateInternal "statement parse failed"

/-- The loop of Bind that renders the parameters, up to the first that is refused. -/
def renderAll (deps : SessionDeps) (oids formats : List ℤ) :
    ℕ → List (Option Bytes) → Outcome String (List String)
  | _, [] => .ok []
  | i, val :: vals => do
    let literal ← renderParam deps (oids[i]?.getD 0) (formats[i]?.getD 0) val
    let rest ← renderAll deps oids formats (i + 1) vals
    return literal :: rest

def onBind (ctx : SessionCtx) (st : PgState) (body : Bytes) :
    SessionProg EngineError (Option PgState) := do
  if st.skipUntilSync then return some st
  else match ← lift (parseBind body) with
    | none => failUntilSync st sqlstateFeatureNotSupported "bad Bind"
    | some m =>
      match st.prepared[m.stmt]? with
      | none => failUntilSync st sqlstateInternal "unknown prepared statement"
      | some prep =>
        match renderAll ctx.deps prep.paramOids m.paramFormats 0 m.params with
        | .panic => lift .panic
        | .err e => failUntilSync st sqlstateFeatureNotSupported e
        | .ok rendered =>
          let inlined ← lift (inlineParams prep.sql rendered)
          let st := { st with portals := st.portals.insert m.portal ⟨m.stmt, inlined⟩ }
          writeRaw bindComplete
          return some st

/-- What a Describe reports: the parameter types for a statement only, and the columns. -/
def describe (st : PgState) (kind : UInt8) (name : String) :
    Option (Option (List ℤ) × List (String × ℤ)) :=
  if kind = 0x53 then (st.prepared[name]?).map fun p => (some p.paramOids, p.colMeta)
  else do
    let po ← st.portals[name]?
    let p ← st.prepared[po.stmt]?
    return (none, p.colMeta)

def onDescribe (st : PgState) (body : Bytes) : SessionProg EngineError (Option PgState) := do
  if st.skipUntilSync then return some st
  else match ← lift (parseDescribeOrClose body) with
    | none =>
      writeRaw noData
      return some st
    | some (kind, name) =>
      match describe st kind name with
      | none =>
        writeRaw noData
        return some st
      | some (paramOids, colMeta) =>
        if let some oids := paramOids then writeRaw (parameterDescription oids)
        if colMeta.isEmpty then writeRaw noData else writeRaw (rowDescription colMeta)
        return some st

def onExecute (ctx : SessionCtx) (st : PgState) (body : Bytes) :
    SessionProg EngineError (Option PgState) := do
  if st.skipUntilSync then return some st
  else
    let portalName := (← lift (parseExecute body)).getD ""
    match st.portals[portalName]? with
    | none => failUntilSync st sqlstateInternal "unknown portal"
    | some portal =>
      if ← execRowsOnly ctx portal.sql then return some st
      else return some { st with skipUntilSync := true }

def onClose (st : PgState) (body : Bytes) : SessionProg EngineError (Option PgState) := do
  let st := match ← lift (parseDescribeOrClose body) with
    | none => st
    | some (kind, name) =>
      if kind = 0x53 then { st with prepared := st.prepared.erase name }
      else { st with portals := st.portals.erase name }
  writeRaw closeComplete
  return some st

def onUnsupported (st : PgState) : SessionProg EngineError (Option PgState) := do
  writeRaw (errorResponse sqlstateFeatureNotSupported "unsupported message")
  writeRaw readyForQuery
  return some st

def pgHandle (ctx : SessionCtx) (st : PgState) (tag : UInt8) (body : Bytes) :
    SessionProg EngineError (Option PgState) :=
  if tag = 0x51 then onQuery ctx st body
  else if tag = 0x50 then onParse ctx st body
  else if tag = 0x42 then onBind ctx st body
  else if tag = 0x44 then onDescribe st body
  else if tag = 0x45 then onExecute ctx st body
  else if tag = 0x43 then onClose st body
  else if tag = 0x48 then return some st
  else if tag = 0x53 then do
    writeRaw readyForQuery
    return some { st with skipUntilSync := false }
  else if tag = 0x58 then return none
  else onUnsupported st

def pgRead : SessionProg EngineError (Option (UInt8 × Bytes)) := do
  match ← readMessage.attempt with
  | .ok m => return some m
  | .error .closed => return none
  | .error e => fail e.toEngine

theorem pgRead_uses : pgRead.Uses SessionOp.fromClient := by
  apply uses_bind (uses_attempt readMessage_uses)
  intro r
  rcases r with e | m
  · cases e <;> trivial
  · trivial

def serve (ctx : SessionCtx) : Loop sessionSig EngineError PgState (UInt8 × Bytes) where
  read := pgRead
  handle st m := pgHandle ctx st m.1 m.2

theorem serve_handle (ctx : SessionCtx) (st : PgState) (m : UInt8 × Bytes) :
    (serve ctx).handle st m = pgHandle ctx st m.1 m.2 := rfl

/-- The traces of a Postgres session. -/
def pgSem (ctx : SessionCtx) : Sem sessionSig Unit :=
  sessionSem (pgProfile ctx.deps.sqlparser) ctx.policy

/-! ## Messages that can be read -/

theorem pgSem_recv (ctx : SessionCtx) (bytes : Bytes) :
    pgSem ctx () (.recv bytes.length) (.ok bytes) () :=
  fun _ h => congrArg List.length (Except.ok.inj h).symm

section
variable {M : Sem sessionSig Unit} (hM : ∀ bytes, M () (.recv bytes.length) (.ok bytes) ())
include hM

theorem readExact_exec (bytes : Bytes) :
    Exec M (readExact bytes.length) () [⟨.recv bytes.length, .ok bytes⟩] (.ok bytes) () :=
  .step (hM bytes) (.halt _ _)

/-- A message whose header gives the length of its body can be read. -/
theorem pgRead_exec (header : Bytes) (m : UInt8 × Bytes) (hheader : header.length = 4)
    (hlen : asI32 (fromBe header) = m.2.length + 4) (hmax : (m.2.length : ℤ) + 4 ≤ maxMessage) :
    ∃ t, Exec M pgRead () t (.ok (some m)) () := by
  have hrange : 4 ≤ asI32 (fromBe header) ∧ asI32 (fromBe header) ≤ maxMessage := by omega
  have hrest : (asI32 (fromBe header) - 4).toNat = m.2.length := by omega
  have hfive : (m.1 :: header).length = 5 := by rw [List.length_cons, hheader]
  have hfirst := readExact_exec hM (m.1 :: header)
  rw [hfive] at hfirst
  have hmsg : ∃ t, Exec M readMessage () t (.ok m) () := by
    refine ⟨_ ++ ([⟨.recv m.2.length, .ok m.2⟩] ++ []), Exec.bind hfirst ?_⟩
    dsimp only
    rw [if_pos hrange, hrest]
    exact Exec.bind (readExact_exec hM m.2) (.halt _ _)
  obtain ⟨t, ht⟩ := hmsg
  exact ⟨_, Exec.bind ht.attempt (.halt _ _)⟩

end

end MiddleWhere.Net
