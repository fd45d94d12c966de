import Mathlib
import MiddleWhere.Data.Forest

/-!
# The syntax trees the firewall reads

The part of sqlparser's AST that a policy decision can depend on. A constructor stands for
each node that the firewall names or that holds nodes of another sort; every other node of
a sort is one constructor with the nodes below it. Fields that hold no node and that the
firewall never reads (aliases, data types, options) are left out.

The sorts are put together in `Node`, whose immediate parts make a forest, so that a
property can speak of a node at any depth of a statement.
-/

namespace MiddleWhere.Sql

structure Ident where
  value : String
  quoteStyle : Option Char
deriving DecidableEq

abbrev ObjectName := List Ident

inductive OneOrManyWithParens (α : Type)
  | one (a : α)
  | many (as : List α)

def OneOrManyWithParens.toList {α : Type} : OneOrManyWithParens α → List α
  | .one a => [a]
  | .many as => as

/-- The statements whose fields the firewall does not look into. `other` is any kind that it
does not name, with what the statement does to the database. -/
inductive StatementKind
  | explainTable
  | showCreate | showColumns | showTables | showFunctions | showStatus | showVariables
  | showVariable | showDatabases | showSchemas | showCollation
  | use | setNames | setNamesDefault
  | insert | update | delete
  | truncate | drop | createTable | createView | createIndex | createSchema | createDatabase
  | alterTable | alterIndex | alterView
  | grant | revoke
  | startTransaction | commit | rollback | savepoint | setTransaction
  | other (modifies : Bool)
deriving DecidableEq

mutual

/-- `exprs` of a function holds its filter, window and ordering expressions. `identifier` may be
compound; `leading` is any other node whose text begins with that of its first part. -/
inductive Expr
  | function (name : ObjectName) (args : List Expr) (subqueries : List Query) (exprs : List Expr)
  | subquery (query : Query)
  | exists (query : Query) (negated : Bool)
  | inSubquery (expr : Expr) (query : Query) (negated : Bool)
  | identifier (name : ObjectName)
  | eq (left right : Expr)
  | leading (first : Expr) (exprs : List Expr)
  | other (exprs : List Expr)

/-- `exprs` holds the expressions of ORDER BY, LIMIT, OFFSET and FETCH. -/
inductive Query
  | mk (with_ : List Query) (body : SetExpr) (exprs : List Expr)

/-- `exprs` of a select holds its projection, WHERE, GROUP BY, HAVING and the like. -/
inductive SetExpr
  | select (into : Option ObjectName) (from_ : List TableWithJoins) (exprs : List Expr)
  | query (query : Query)
  | setOperation (left right : SetExpr)
  | values (exprs : List Expr)
  | insert (statement : Statement)
  | update (statement : Statement)
  | table

/-- `callTable` is a table name followed by an argument list, `function` a `LATERAL` call. -/
inductive TableFactor
  | table (name : ObjectName) (exprs : List Expr)
  | callTable (name : ObjectName) (args : List Expr) (exprs : List Expr)
  | derived (subquery : Query)
  | tableFunction (expr : Expr)
  | function (name : ObjectName) (args : List Expr)
  | nestedJoin (table : TableWithJoins)
  | pivot (table : TableFactor) (exprs : List Expr)
  | other (exprs : List Expr)

inductive TableWithJoins
  | mk (relation : TableFactor) (joins : List Join)

inductive Join
  | mk (relation : TableFactor) (constraint : List Expr)

inductive Statement
  | query (query : Query)
  | explain (statement : Statement)
  | setVariable (local_ hivevar : Bool) (vars : OneOrManyWithParens ObjectName)
      (value : List Expr)
  | of (kind : StatementKind) (tables : List TableWithJoins) (queries : List Query)
      (exprs : List Expr) (statements : List Statement)

end

inductive Node
  | expr (e : Expr)
  | query (q : Query)
  | setExpr (b : SetExpr)
  | factor (f : TableFactor)
  | table (t : TableWithJoins)
  | join (j : Join)
  | statement (s : Statement)

def Query.body : Query → SetExpr
  | .mk _ body _ => body

/-! ## Immediate parts -/

def Expr.parts : Expr → List Node
  | .function _ args subqueries exprs =>
      args.map .expr ++ subqueries.map .query ++ exprs.map .expr
  | .subquery q => [.query q]
  | .exists q _ => [.query q]
  | .inSubquery e q _ => [.expr e, .query q]
  | .identifier _ => []
  | .eq left right => [.expr left, .expr right]
  | .leading first exprs => .expr first :: exprs.map .expr
  | .other exprs => exprs.map .expr

def Query.parts : Query → List Node
  | .mk with_ body exprs => with_.map .query ++ [.setExpr body] ++ exprs.map .expr

def SetExpr.parts : SetExpr → List Node
  | .select _ from_ exprs => from_.map .table ++ exprs.map .expr
  | .query q => [.query q]
  | .setOperation l r => [.setExpr l, .setExpr r]
  | .values exprs => exprs.map .expr
  | .insert s => [.statement s]
  | .update s => [.statement s]
  | .table => []

def TableFactor.parts : TableFactor → List Node
  | .table _ exprs => exprs.map .expr
  | .callTable _ args exprs => args.map .expr ++ exprs.map .expr
  | .derived q => [.query q]
  | .tableFunction e => [.expr e]
  | .function _ args => args.map .expr
  | .nestedJoin t => [.table t]
  | .pivot f exprs => .factor f :: exprs.map .expr
  | .other exprs => exprs.map .expr

def TableWithJoins.parts : TableWithJoins → List Node
  | .mk f joins => .factor f :: joins.map .join

def Join.parts : Join → List Node
  | .mk f exprs => .factor f :: exprs.map .expr

def Statement.parts : Statement → List Node
  | .query q => [.query q]
  | .explain s => [.statement s]
  | .setVariable _ _ _ value => value.map .expr
  | .of _ tables queries exprs statements =>
      tables.map .table ++ queries.map .query ++ exprs.map .expr ++ statements.map .statement

def Node.parts : Node → List Node
  | .expr e => e.parts
  | .query q => q.parts
  | .setExpr b => b.parts
  | .factor f => f.parts
  | .table t => t.parts
  | .join j => j.parts
  | .statement s => s.parts

noncomputable def Node.rank : Node → ℕ
  | .expr e => sizeOf e
  | .query q => sizeOf q
  | .setExpr b => sizeOf b
  | .factor f => sizeOf f
  | .table t => sizeOf t
  | .join j => sizeOf j
  | .statement s => sizeOf s

theorem rank_lt_of_mem_map {α : Type} [SizeOf α] {inject : α → Node}
    (hrank : ∀ a, (inject a).rank = sizeOf a) {as : List α} {m : Node}
    (h : m ∈ as.map inject) : m.rank < sizeOf as := by
  obtain ⟨a, ha, rfl⟩ := List.mem_map.mp h
  rw [hrank]
  exact List.sizeOf_lt_of_mem ha

theorem Expr.rank_lt {e : Expr} {m : Node} (h : m ∈ e.parts) : m.rank < sizeOf e := by
  cases e with
  | function name args subqueries exprs =>
    simp only [Expr.parts, List.mem_append] at h
    rcases h with (h | h) | h <;> have := rank_lt_of_mem_map (fun _ => rfl) h <;>
      simp only [Expr.function.sizeOf_spec] <;> omega
  | subquery q =>
    obtain rfl := List.mem_singleton.mp h
    simp [Node.rank]
  | «exists» q negated =>
    obtain rfl := List.mem_singleton.mp h
    simp [Node.rank]
  | inSubquery e q negated =>
    rcases List.mem_pair.mp h with rfl | rfl
    · simp [Node.rank]; omega
    · simp [Node.rank]
  | identifier name => cases h
  | eq left right =>
    rcases List.mem_pair.mp h with rfl | rfl
    · simp [Node.rank]; omega
    · simp [Node.rank]
  | leading first exprs =>
    rcases List.mem_cons.mp h with rfl | h
    · simp [Node.rank]; omega
    · have := rank_lt_of_mem_map (fun _ => rfl) h
      simp only [Expr.leading.sizeOf_spec]; omega
  | other exprs =>
    have := rank_lt_of_mem_map (fun _ => rfl) h
    simp only [Expr.other.sizeOf_spec]; omega

theorem Query.rank_lt {q : Query} {m : Node} (h : m ∈ q.parts) : m.rank < sizeOf q := by
  cases q with
  | mk with_ body exprs =>
    simp only [Query.parts, List.mem_append, List.mem_singleton] at h
    rcases h with (h | rfl) | h
    · have := rank_lt_of_mem_map (fun _ => rfl) h
      simp only [Query.mk.sizeOf_spec]; omega
    · simp [Node.rank]; omega
    · have := rank_lt_of_mem_map (fun _ => rfl) h
      simp only [Query.mk.sizeOf_spec]; omega

theorem SetExpr.rank_lt {b : SetExpr} {m : Node} (h : m ∈ b.parts) : m.rank < sizeOf b := by
  cases b with
  | select into from_ exprs =>
    simp only [SetExpr.parts, List.mem_append] at h
    rcases h with h | h <;> have := rank_lt_of_mem_map (fun _ => rfl) h <;>
      simp only [SetExpr.select.sizeOf_spec] <;> omega
  | query q =>
    obtain rfl := List.mem_singleton.mp h
    simp [Node.rank]
  | setOperation l r =>
    rcases List.mem_pair.mp h with rfl | rfl <;> simp [Node.rank]; omega
  | values exprs =>
    have := rank_lt_of_mem_map (fun _ => rfl) h
    simp only [SetExpr.values.sizeOf_spec]; omega
  | insert s =>
    obtain rfl := List.mem_singleton.mp h
    simp [Node.rank]
  | update s =>
    obtain rfl := List.mem_singleton.mp h
    simp [Node.rank]
  | table => cases h

theorem TableFactor.rank_lt {f : TableFactor} {m : Node} (h : m ∈ f.parts) :
    m.rank < sizeOf f := by
  cases f with
  | table name exprs =>
    have := rank_lt_of_mem_map (fun _ => rfl) h
    simp only [TableFactor.table.sizeOf_spec]; omega
  | callTable name args exprs =>
    simp only [TableFactor.parts, List.mem_append] at h
    rcases h with h | h <;> have := rank_lt_of_mem_map (fun _ => rfl) h <;>
      simp only [TableFactor.callTable.sizeOf_spec] <;> omega
  | derived q =>
    obtain rfl := List.mem_singleton.mp h
    simp [Node.rank]
  | tableFunction e =>
    obtain rfl := List.mem_singleton.mp h
    simp [Node.rank]
  | function name args =>
    have := rank_lt_of_mem_map (fun _ => rfl) h
    simp only [TableFactor.function.sizeOf_spec]; omega
  | nestedJoin t =>
    obtain rfl := List.mem_singleton.mp h
    simp [Node.rank]
  | pivot f exprs =>
    rcases List.mem_cons.mp h with rfl | h
    · simp [Node.rank]; omega
    · have := rank_lt_of_mem_map (fun _ => rfl) h
      simp only [TableFactor.pivot.sizeOf_spec]; omega
  | other exprs =>
    have := rank_lt_of_mem_map (fun _ => rfl) h
    simp only [TableFactor.other.sizeOf_spec]; omega

theorem TableWithJoins.rank_lt {t : TableWithJoins} {m : Node} (h : m ∈ t.parts) :
    m.rank < sizeOf t := by
  cases t with
  | mk f joins =>
    rcases List.mem_cons.mp h with rfl | h
    · simp [Node.rank]; omega
    · have := rank_lt_of_mem_map (fun _ => rfl) h
      simp only [TableWithJoins.mk.sizeOf_spec]; omega

theorem Join.rank_lt {j : Join} {m : Node} (h : m ∈ j.parts) : m.rank < sizeOf j := by
  cases j with
  | mk f exprs =>
    rcases List.mem_cons.mp h with rfl | h
    · simp [Node.rank]; omega
    · have := rank_lt_of_mem_map (fun _ => rfl) h
      simp only [Join.mk.sizeOf_spec]; omega

theorem Statement.rank_lt {s : Statement} {m : Node} (h : m ∈ s.parts) : m.rank < sizeOf s := by
  cases s with
  | query q =>
    obtain rfl := List.mem_singleton.mp h
    simp [Node.rank]
  | explain s =>
    obtain rfl := List.mem_singleton.mp h
    simp [Node.rank]
  | setVariable local_ hivevar vars value =>
    have := rank_lt_of_mem_map (fun _ => rfl) h
    simp only [Statement.setVariable.sizeOf_spec]; omega
  | of kind tables queries exprs statements =>
    simp only [Statement.parts, List.mem_append] at h
    rcases h with ((h | h) | h) | h <;> have := rank_lt_of_mem_map (fun _ => rfl) h <;>
      simp only [Statement.of.sizeOf_spec] <;> omega

theorem Node.rank_lt {n m : Node} (h : m ∈ n.parts) : m.rank < n.rank := by
  cases n with
  | expr e => exact Expr.rank_lt h
  | query q => exact Query.rank_lt h
  | setExpr b => exact SetExpr.rank_lt h
  | factor f => exact TableFactor.rank_lt h
  | table t => exact TableWithJoins.rank_lt h
  | join j => exact Join.rank_lt h
  | statement s => exact Statement.rank_lt h

def tree : Forest Node where
  parts := Node.parts
  wf := Subrelation.wf Node.rank_lt (measure Node.rank).wf

/-- `n` is the statement `s` itself or a node at some depth of it. -/
abbrev OccursIn (n : Node) (s : Statement) : Prop := tree.Occurs (.statement s) n

end MiddleWhere.Sql
