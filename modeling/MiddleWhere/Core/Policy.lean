import MiddleWhere.Core.Config
import MiddleWhere.Core.SqlAst

/-!
# The query firewall

Statements are parsed by sqlparser, checked by kind against the policy, and then visited
as whole trees for calls of denylisted functions. The parser and the printer of object
names are third-party code and stay parameters.
-/

namespace MiddleWhere.Firewall
open Sql

/-- What the firewall takes from sqlparser. -/
structure Sqlparser where
  parseMySql : String → Except String (List Statement)
  parsePostgres : String → Except String (List Statement)
  objectNameToString : ObjectName → String

structure PolicyProfile where
  parse : String → Except String (List Statement)
  toString : ObjectName → String
  dangerousFuncs : List String
  safeSetVars : List String

def mysqlDangerousFuncs : List String :=
  ["load_file", "sys_exec", "sys_eval", "sys_get", "lo_import", "lo_export"]

def pgDangerousFuncs : List String :=
  ["load_file", "sys_exec", "sys_eval", "sys_get", "lo_import", "lo_export", "pg_read_file",
    "pg_read_binary_file", "pg_ls_dir", "pg_stat_file", "dblink", "dblink_exec"]

def mysqlSafeSetVars : List String :=
  ["names", "autocommit", "time_zone", "character_set_client", "character_set_results",
    "character_set_connection", "collation_connection", "sql_safe_updates", "wait_timeout",
    "net_read_timeout", "net_write_timeout", "max_execution_time", "group_concat_max_len",
    "transaction_isolation", "tx_isolation"]

def pgSafeSetVars : List String :=
  ["names", "client_encoding", "timezone", "datestyle", "application_name",
    "statement_timeout", "lock_timeout", "idle_in_transaction_session_timeout",
    "extra_float_digits", "bytea_output", "intervalstyle"]

def mysqlProfile (sp : Sqlparser) : PolicyProfile :=
  ⟨sp.parseMySql, sp.objectNameToString, mysqlDangerousFuncs, mysqlSafeSetVars⟩

def pgProfile (sp : Sqlparser) : PolicyProfile :=
  ⟨sp.parsePostgres, sp.objectNameToString, pgDangerousFuncs, pgSafeSetVars⟩

inductive Decision
  | allow
  | deny (reason : String)
deriving DecidableEq

def Decision.reason : Decision → Option String
  | .allow => none
  | .deny r => some r

def toAsciiLowercase (s : String) : String := String.ofList (s.toList.map Char.toLower)

/-- The last path segment, lowercased; the empty string when there is none. -/
def lastSegment (name : ObjectName) : String :=
  match name.getLast? with
  | some i => toAsciiLowercase i.value
  | none => ""

def strContains (s pat : String) : Bool := decide (pat.toList <:+: s.toList)

def strStartsWith (s pat : String) : Bool := decide (pat.toList <+: s.toList)

/-! ## The checks, as the code makes them -/

def scanSelectForOutfile : SetExpr → Option Decision
  | .select into _ _ =>
      if into.isSome then some (.deny "INTO OUTFILE/DUMPFILE not allowed") else none
  | .query (.mk _ body _) => scanSelectForOutfile body
  | .setOperation left right => (scanSelectForOutfile left).or (scanSelectForOutfile right)
  | _ => none

def checkQuery (q : Query) : Decision := (scanSelectForOutfile q.body).getD .allow

def checkSetNames (toString : ObjectName → String) (safeSetVars : List String) :
    List ObjectName → Decision
  | [] => .allow
  | n :: rest =>
    let full := toAsciiLowercase (toString n)
    if strContains full "@@global" || strContains full "global." then
      .deny "SET GLOBAL not allowed by policy"
    else if strStartsWith full "@" then .deny "setting user-defined variables not allowed"
    else if !safeSetVars.contains (lastSegment n) then
      .deny "this session variable is not on the allowlist"
    else checkSetNames toString safeSetVars rest

def checkSet (toString : ObjectName → String) (local_ _hivevar : Bool)
    (vars : OneOrManyWithParens ObjectName) (safeSetVars : List String) : Decision :=
  if local_ then .deny "SET LOCAL not allowed by policy"
  else checkSetNames toString safeSetVars vars.toList

structure Grants where
  allowDml : Bool
  allowDdl : Bool
  allowAdmin : Bool
deriving DecidableEq

def grantsOf : Policy → Grants
  | .readOnly => ⟨false, false, false⟩
  | .readWrite => ⟨true, false, false⟩
  | .custom dml ddl admin => ⟨dml, ddl, admin⟩

/-- The arms of `check_statement` that look at the kind of a statement only. -/
def checkKind (g : Grants) : StatementKind → Decision
  | .explainTable => .allow
  | .showCreate | .showColumns | .showTables | .showFunctions | .showStatus | .showVariables
  | .showVariable | .showDatabases | .showSchemas | .showCollation => .allow
  | .use => .allow
  | .setNames | .setNamesDefault => .allow
  | .insert | .update | .delete =>
      if g.allowDml then .allow else .deny "DML not allowed by policy"
  | .truncate | .drop | .createTable | .createView | .createIndex | .createSchema
  | .createDatabase | .alterTable | .alterIndex | .alterView =>
      if g.allowDdl then .allow else .deny "DDL not allowed by policy"
  | .grant | .revoke => if g.allowAdmin then .allow else .deny "admin not allowed by policy"
  | .startTransaction | .commit | .rollback | .savepoint => .allow
  | .setTransaction => .allow
  | .other _ => .deny "statement kind not allowed by policy"

def checkStatement (g : Grants) (profile : PolicyProfile) : Statement → Decision
  | .query q => checkQuery q
  | .explain statement => checkStatement g profile statement
  | .setVariable local_ hivevar vars _ =>
      checkSet profile.toString local_ hivevar vars profile.safeSetVars
  | .of kind _ _ _ _ => checkKind g kind

/-! `visit` is sqlparser's derived traversal: it offers every expression of a tree to the
visitor, in tree order, and stops at the first that breaks. -/

mutual

def visitExpr (p : Expr → Bool) : Expr → Bool
  | .function name args subqueries exprs =>
      p (.function name args subqueries exprs) || visitExprs p args ||
        visitQueries p subqueries || visitExprs p exprs
  | .subquery q => p (.subquery q) || visitQuery p q
  | .exists q negated => p (.exists q negated) || visitQuery p q
  | .inSubquery e q negated => p (.inSubquery e q negated) || visitExpr p e || visitQuery p q
  | .identifier name => p (.identifier name)
  | .eq left right => p (.eq left right) || visitExpr p left || visitExpr p right
  | .leading first exprs => p (.leading first exprs) || visitExpr p first || visitExprs p exprs
  | .other exprs => p (.other exprs) || visitExprs p exprs

def visitExprs (p : Expr → Bool) : List Expr → Bool
  | [] => false
  | e :: es => visitExpr p e || visitExprs p es

def visitQuery (p : Expr → Bool) : Query → Bool
  | .mk with_ body exprs => visitQueries p with_ || visitSetExpr p body || visitExprs p exprs

def visitQueries (p : Expr → Bool) : List Query → Bool
  | [] => false
  | q :: qs => visitQuery p q || visitQueries p qs

def visitSetExpr (p : Expr → Bool) : SetExpr → Bool
  | .select _ from_ exprs => visitTables p from_ || visitExprs p exprs
  | .query q => visitQuery p q
  | .setOperation left right => visitSetExpr p left || visitSetExpr p right
  | .values exprs => visitExprs p exprs
  | .insert statement => visitStatement p statement
  | .update statement => visitStatement p statement
  | .table => false

def visitFactor (p : Expr → Bool) : TableFactor → Bool
  | .table _ exprs => visitExprs p exprs
  | .callTable _ args exprs => visitExprs p args || visitExprs p exprs
  | .derived q => visitQuery p q
  | .tableFunction e => visitExpr p e
  | .function _ args => visitExprs p args
  | .nestedJoin t => visitTable p t
  | .pivot f exprs => visitFactor p f || visitExprs p exprs
  | .other exprs => visitExprs p exprs

def visitTable (p : Expr → Bool) : TableWithJoins → Bool
  | .mk relation joins => visitFactor p relation || visitJoins p joins

def visitTables (p : Expr → Bool) : List TableWithJoins → Bool
  | [] => false
  | t :: ts => visitTable p t || visitTables p ts

def visitJoin (p : Expr → Bool) : Join → Bool
  | .mk relation constraint => visitFactor p relation || visitExprs p constraint

def visitJoins (p : Expr → Bool) : List Join → Bool
  | [] => false
  | j :: js => visitJoin p j || visitJoins p js

def visitStatement (p : Expr → Bool) : Statement → Bool
  | .query q => visitQuery p q
  | .explain statement => visitStatement p statement
  | .setVariable _ _ _ value => visitExprs p value
  | .of _ tables queries exprs statements =>
      visitTables p tables || visitQueries p queries || visitExprs p exprs ||
        visitStatements p statements

def visitStatements (p : Expr → Bool) : List Statement → Bool
  | [] => false
  | s :: ss => visitStatement p s || visitStatements p ss

end

/-- The test of `DangerVisitor`. -/
def isDangerous (funcs : List String) : Expr → Bool
  | .function name _ _ _ => funcs.contains (lastSegment name)
  | _ => false

def scanDangerous (funcs : List String) (stmt : Statement) : Decision :=
  if visitStatement (isDangerous funcs) stmt then .deny "dangerous builtin not allowed"
  else .allow

/-- `for stmt in &stmts { if let d @ Deny(_) = check(stmt) { return d } }`. -/
def firstDeny (check : Statement → Decision) : List Statement → Decision
  | [] => .allow
  | s :: ss =>
    match check s with
    | .allow => firstDeny check ss
    | .deny r => .deny r

def evaluate (sql : String) (policy : Policy) (profile : PolicyProfile) : Decision :=
  match profile.parse sql with
  | .error _ => .deny "statement did not parse"
  | .ok stmts =>
    if stmts.isEmpty then .deny "empty statement"
    else
      let g := grantsOf policy
      if stmts.length > 1 && !(g.allowDml && g.allowDdl) then
        .deny "multiple statements per request not allowed"
      else
        match firstDeny (checkStatement g profile) stmts with
        | .deny r => .deny r
        | .allow => firstDeny (scanDangerous profile.dangerousFuncs) stmts

/-! ## The reasons of a refusal

Every refusal carries one of these texts: none of them depends on the statement. -/

def denyReasons : List String :=
  ["statement did not parse", "empty statement", "multiple statements per request not allowed",
    "INTO OUTFILE/DUMPFILE not allowed", "SET LOCAL not allowed by policy",
    "SET GLOBAL not allowed by policy", "setting user-defined variables not allowed",
    "this session variable is not on the allowlist", "DML not allowed by policy",
    "DDL not allowed by policy", "admin not allowed by policy",
    "statement kind not allowed by policy", "dangerous builtin not allowed"]

def Decision.Listed : Decision → Prop
  | .allow => True
  | .deny r => r ∈ denyReasons

instance : DecidablePred Decision.Listed
  | .allow => isTrue trivial
  | .deny r => inferInstanceAs (Decidable (r ∈ denyReasons))

theorem Decision.Listed.ite {c : Prop} [Decidable c] {d d' : Decision} (h : d.Listed)
    (h' : d'.Listed) : (if c then d else d').Listed := by
  split_ifs
  · exact h
  · exact h'

theorem scanSelectForOutfile_listed (b : SetExpr) :
    ∀ d, scanSelectForOutfile b = some d → d.Listed := by
  fun_induction scanSelectForOutfile b with
  | case1 into from_ exprs hinto =>
    intro d h
    obtain rfl := Option.some.inj h
    decide
  | case2 => exact nofun
  | case3 with_ body exprs ih => exact ih
  | case4 left right ihl ihr =>
    intro d h
    rcases Option.or_eq_some_iff.mp h with hl | ⟨-, hr⟩
    · exact ihl d hl
    · exact ihr d hr
  | case5 => exact nofun

theorem checkSetNames_listed (toString : ObjectName → String) (safe : List String)
    (names : List ObjectName) : (checkSetNames toString safe names).Listed := by
  induction names with
  | nil => trivial
  | cons n rest ih =>
    exact .ite (by decide) (.ite (by decide) (.ite (by decide) ih))

theorem checkKind_listed (g : Grants) (k : StatementKind) : (checkKind g k).Listed := by
  have hgrant (b : Bool) (reason : String) (hr : reason ∈ denyReasons) :
      (if b then Decision.allow else .deny reason).Listed := .ite trivial hr
  cases k with
  | insert | update | delete => exact hgrant g.allowDml _ (by decide)
  | truncate | drop | createTable | createView | createIndex | createSchema | createDatabase
  | alterTable | alterIndex | alterView => exact hgrant g.allowDdl _ (by decide)
  | grant | revoke => exact hgrant g.allowAdmin _ (by decide)
  | other _ => exact (by decide : "statement kind not allowed by policy" ∈ denyReasons)
  | _ => trivial

theorem checkStatement_listed (g : Grants) (profile : PolicyProfile) (stmt : Statement) :
    (checkStatement g profile stmt).Listed := by
  fun_induction checkStatement g profile stmt with
  | case1 q =>
    unfold checkQuery
    cases h : scanSelectForOutfile q.body with
    | none => trivial
    | some d => exact scanSelectForOutfile_listed q.body d h
  | case2 stmt ih => exact ih
  | case3 local_ hivevar vars value => exact .ite (by decide) (checkSetNames_listed _ _ _)
  | case4 kind => exact checkKind_listed g kind

theorem firstDeny_listed {check : Statement → Decision} (h : ∀ s, (check s).Listed)
    (stmts : List Statement) : (firstDeny check stmts).Listed := by
  induction stmts with
  | nil => trivial
  | cons s ss ih =>
    have hs := h s
    unfold firstDeny
    cases hc : check s with
    | allow => exact ih
    | deny r => rwa [hc] at hs

theorem scanDangerous_listed (funcs : List String) (stmt : Statement) :
    (scanDangerous funcs stmt).Listed :=
  .ite (by decide) trivial

theorem evaluate_listed (sql : String) (policy : Policy) (profile : PolicyProfile) :
    (evaluate sql policy profile).Listed := by
  unfold evaluate
  split
  · decide
  · rename_i stmts hparse
    have hkinds := firstDeny_listed (checkStatement_listed (grantsOf policy) profile) stmts
    apply Decision.Listed.ite (by decide)
    apply Decision.Listed.ite (by decide)
    split
    · rename_i r hdeny
      rwa [hdeny] at hkinds
    · exact firstDeny_listed (scanDangerous_listed _) stmts

end MiddleWhere.Firewall
