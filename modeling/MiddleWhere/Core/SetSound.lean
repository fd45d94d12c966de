import MiddleWhere.Core.PolicySound

/-!
# What a SET statement assigns

The firewall checks the variables that the parser names on the left of a SET statement. The
server may assign more: MySQL reads `SET a = 1, b = 2` as two assignments, where sqlparser
takes the second for a comparison among the values of `a`. PostgreSQL has one variable for
each statement, and takes a qualified name for a variable of that whole name.

`SET NAMES` and `SET TRANSACTION` are statements of their own and name no variable.
-/

namespace MiddleWhere.Firewall
open Sql

inductive Scope
  | session | global | persist | user
deriving DecidableEq

structure Target where
  scope : Scope
  name : String
deriving DecidableEq

def Target.Listed (safeSetVars : List String) (t : Target) : Prop :=
  t.scope = .session ∧ t.name ∈ safeSetVars

/-- The two dialects that the proxy speaks. -/
inductive Dialect
  | mySql | postgres

def Dialect.profile (sp : Sqlparser) : Dialect → PolicyProfile
  | .mySql => mysqlProfile sp
  | .postgres => pgProfile sp

/-! ## Targets of assignments -/

def dotted (name : ObjectName) : String :=
  ".".intercalate (name.map fun i => toAsciiLowercase i.value)

/-- How MySQL spells scopes; the first prefix that fits counts. -/
def mysqlScopes : List (String × Scope) :=
  [("@@global.", .global), ("@@session.", .session), ("@@local.", .session),
    ("@@persist_only.", .persist), ("@@persist.", .persist), ("@@", .session), ("@", .user)]

def mysqlTarget (full : String) : Target :=
  match mysqlScopes.find? fun p => strStartsWith full p.1 with
  | some (spelling, scope) => ⟨scope, String.ofList (full.toList.drop spelling.length)⟩
  | none => ⟨.session, full⟩

def Dialect.target : Dialect → ObjectName → Target
  | .mySql, name => mysqlTarget (dotted name)
  | .postgres, name => ⟨.session, dotted name⟩

/-- The name before an `=` at the start of a value's text: whatever binds weaker than `=` has
it on its left. -/
def assignee : Expr → Option ObjectName
  | .eq (.identifier name) _ => some name
  | .eq left _ => assignee left
  | .leading first _ => assignee first
  | .inSubquery e _ _ => assignee e
  | _ => none

def Dialect.trailing : Dialect → List Expr → List Target
  | .mySql, values => ((values.drop 1).filterMap assignee).map (Dialect.target .mySql)
  | .postgres, _ => []

/-- The variables that the server assigns when it runs the statement. -/
def Dialect.targets (d : Dialect) : Statement → List Target
  | .setVariable _ _ vars value => vars.toList.map d.target ++ d.trailing value
  | _ => []

variable {d : Dialect} {sp : Sqlparser} {reads : String → List Statement} {sql : String}
  {stmts : List Statement} {policy : Policy}

/-- `reads sql` are the statements that the server runs when it is given `sql`; of a text that
it refuses there are none. -/
def SetComplete (d : Dialect) (sp : Sqlparser) (reads : String → List Statement)
    (policy : Policy) (sql : String) : Prop :=
  evaluate sql policy (d.profile sp) = .allow →
    ∀ s ∈ reads sql, ∀ t ∈ d.targets s, t.Listed (d.profile sp).safeSetVars

/-- The targets that no check has looked at as a whole. -/
inductive Unchecked (d : Dialect) (stmts : List Statement) : Statement → Target → Prop
  | qualified {local_ hivevar : Bool} {vars : OneOrManyWithParens ObjectName}
      {value : List Expr} {name : ObjectName} : name ∈ vars.toList → name.length ≠ 1 →
      Unchecked d stmts (.setVariable local_ hivevar vars value) (d.target name)
  | trailing {local_ hivevar : Bool} {vars : OneOrManyWithParens ObjectName}
      {value : List Expr} {t : Target} : t ∈ d.trailing value →
      Unchecked d stmts (.setVariable local_ hivevar vars value) t
  | unparsed {s : Statement} {t : Target} : s ∉ stmts → t ∈ d.targets s → Unchecked d stmts s t

theorem Unchecked.mem {s : Statement} {t : Target} (h : Unchecked d stmts s t) :
    t ∈ d.targets s := by
  cases h with
  | qualified hname hlen =>
    exact List.mem_append_left _ (List.mem_map_of_mem hname)
  | trailing ht => exact List.mem_append_right _ ht
  | unparsed hs ht => exact ht

/-! ## The names that are checked -/

theorem mysqlTarget_listed : ∀ v ∈ mysqlSafeSetVars, mysqlTarget v = ⟨.session, v⟩ := by decide

/-- On a name without a qualifier the allowlist decides. -/
theorem listed_of_settable {name : ObjectName} (h : Settable (d.profile sp) name)
    (hlen : name.length = 1) : (d.target name).Listed (d.profile sp).safeSetVars := by
  obtain ⟨i, rfl⟩ := List.length_eq_one_iff.mp hlen
  have hlast : lastSegment [i] = dotted [i] := by simp [lastSegment, dotted]
  have hlisted := h.listed
  rw [hlast] at hlisted
  cases d with
  | mySql =>
    have htarget : Dialect.target .mySql [i] = ⟨.session, dotted [i]⟩ :=
      mysqlTarget_listed _ hlisted
    rw [htarget]
    exact ⟨rfl, hlisted⟩
  | postgres => exact ⟨rfl, hlisted⟩

theorem settable_of_admitted {g : Grants} {profile : PolicyProfile}
    (h : Admitted g profile stmts) {local_ hivevar : Bool}
    {vars : OneOrManyWithParens ObjectName} {value : List Expr}
    (hs : .setVariable local_ hivevar vars value ∈ stmts) :
    ∀ n ∈ vars.toList, Settable profile n :=
  (h.walk _ hs _ (.refl _)).2

/-- A target that is neither listed nor unchecked does not exist. -/
theorem listed_or_unchecked (h : Admitted (grantsOf policy) (d.profile sp) stmts) {s : Statement}
    {t : Target} (ht : t ∈ d.targets s) :
    t.Listed (d.profile sp).safeSetVars ∨ Unchecked d stmts s t := by
  by_cases hs : s ∈ stmts
  · cases s with
    | setVariable local_ hivevar vars value =>
      rcases List.mem_append.mp ht with hname | htrail
      · obtain ⟨name, hmem, rfl⟩ := List.mem_map.mp hname
        by_cases hlen : name.length = 1
        · exact Or.inl (listed_of_settable (settable_of_admitted h hs name hmem) hlen)
        · exact Or.inr (.qualified hmem hlen)
      · exact Or.inr (.trailing htrail)
    | _ => cases ht
  · exact Or.inr (.unparsed hs ht)

def twoVarsSql : String := "SET autocommit = 1, sql_log_bin = 0"

def twoVars : Statement :=
  .setVariable false false (.one (bareName "autocommit"))
    [.other [], .eq (.identifier (bareName "sql_log_bin")) (.other [])]

def twoVarsParser : Sqlparser := parserOf twoVarsSql [twoVars]

/-- The server reads the one statement, with both its assignments. -/
def twoVarsReads (text : String) : List Statement := if text = twoVarsSql then [twoVars] else []

theorem twoVars_parsed : (Dialect.profile twoVarsParser .mySql).parse twoVarsSql = .ok [twoVars] := by
  simp [Dialect.profile, mysqlProfile, twoVarsParser, parserOf]

end MiddleWhere.Firewall
