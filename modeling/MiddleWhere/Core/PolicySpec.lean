import MiddleWhere.Core.Policy

/-!
# What the firewall admits

The firewall looks at a query along one walk: from a statement through EXPLAIN to its
query, and from there along parenthesised bodies and the arms of set operations. Common
table expressions, FROM clauses, expressions and the INSERT and UPDATE bodies of a query
are parts that the walk skips; a second pass visits them, for function expressions only.
-/

namespace MiddleWhere.Firewall
open Sql

/-! ## The visitor finds what occurs -/

def visitNode (p : Expr → Bool) : Node → Bool
  | .expr e => visitExpr p e
  | .query q => visitQuery p q
  | .setExpr b => visitSetExpr p b
  | .factor f => visitFactor p f
  | .table t => visitTable p t
  | .join j => visitJoin p j
  | .statement s => visitStatement p s

def testNode (p : Expr → Bool) : Node → Bool
  | .expr e => p e
  | _ => false

section
variable (p : Expr → Bool)

@[simp] theorem any_map_expr (es : List Expr) :
    (es.map Node.expr).any (visitNode p) = visitExprs p es := by
  induction es with
  | nil => simp [visitExprs]
  | cons e es ih => rw [List.map_cons, List.any_cons, ih, visitExprs, visitNode]

@[simp] theorem any_map_query (qs : List Query) :
    (qs.map Node.query).any (visitNode p) = visitQueries p qs := by
  induction qs with
  | nil => simp [visitQueries]
  | cons q qs ih => rw [List.map_cons, List.any_cons, ih, visitQueries, visitNode]

@[simp] theorem any_map_table (ts : List TableWithJoins) :
    (ts.map Node.table).any (visitNode p) = visitTables p ts := by
  induction ts with
  | nil => simp [visitTables]
  | cons t ts ih => rw [List.map_cons, List.any_cons, ih, visitTables, visitNode]

@[simp] theorem any_map_join (js : List Join) :
    (js.map Node.join).any (visitNode p) = visitJoins p js := by
  induction js with
  | nil => simp [visitJoins]
  | cons j js ih => rw [List.map_cons, List.any_cons, ih, visitJoins, visitNode]

@[simp] theorem any_map_statement (ss : List Statement) :
    (ss.map Node.statement).any (visitNode p) = visitStatements p ss := by
  induction ss with
  | nil => simp [visitStatements]
  | cons s ss ih => rw [List.map_cons, List.any_cons, ih, visitStatements, visitNode]

theorem visitNode_eq (n : Node) :
    visitNode p n = (testNode p n || (tree.parts n).any (visitNode p)) := by
  cases n with
  | expr e =>
    cases e <;> simp only [tree, Node.parts, Expr.parts, visitNode, visitExpr, testNode,
      List.any_append, List.any_cons, List.any_nil, any_map_expr, any_map_query,
      Bool.or_false, Bool.or_assoc]
  | query q =>
    cases q
    simp only [tree, Node.parts, Query.parts, visitNode, visitQuery, testNode,
      List.any_append, List.any_cons, List.any_nil, any_map_expr, any_map_query,
      Bool.or_false, Bool.false_or]
  | setExpr b =>
    cases b <;> simp only [tree, Node.parts, SetExpr.parts, visitNode, visitSetExpr, testNode,
      List.any_append, List.any_cons, List.any_nil, any_map_expr, any_map_table,
      Bool.or_false, Bool.false_or]
  | factor f =>
    cases f <;> simp only [tree, Node.parts, TableFactor.parts, visitNode, visitFactor, testNode,
      List.any_append, List.any_cons, List.any_nil, any_map_expr, Bool.or_false, Bool.false_or]
  | table t =>
    cases t
    simp only [tree, Node.parts, TableWithJoins.parts, visitNode, visitTable, testNode,
      List.any_cons, any_map_join, Bool.false_or]
  | join j =>
    cases j
    simp only [tree, Node.parts, Join.parts, visitNode, visitJoin, testNode,
      List.any_cons, any_map_expr, Bool.false_or]
  | statement s =>
    cases s <;> simp only [tree, Node.parts, Statement.parts, visitNode, visitStatement,
      testNode, List.any_append, List.any_cons, List.any_nil, any_map_expr, any_map_query,
      any_map_table, any_map_statement, Bool.or_false, Bool.false_or]

end

theorem visitStatement_iff (p : Expr → Bool) (s : Statement) :
    visitStatement p s = true ↔ ∃ e, OccursIn (.expr e) s ∧ p e = true := by
  refine (tree.visit_iff (visitNode_eq p) (.statement s)).trans ?_
  constructor
  · rintro ⟨n, hn, hp⟩
    cases n with
    | expr e => exact ⟨e, hn, hp⟩
    | _ => cases hp
  · rintro ⟨e, he, hp⟩
    exact ⟨.expr e, he, hp⟩

theorem scanDangerous_eq_allow_iff (funcs : List String) (s : Statement) :
    scanDangerous funcs s = .allow ↔
      ∀ e, OccursIn (.expr e) s → isDangerous funcs e = false := by
  unfold scanDangerous
  split_ifs with h
  · obtain ⟨e, he, hp⟩ := (visitStatement_iff _ s).mp h
    simp only [false_iff, not_forall]
    exact ⟨e, he, by simp [hp]⟩
  · simp only [true_iff]
    intro e he
    by_contra hp
    exact h ((visitStatement_iff _ s).mpr ⟨e, he, by simpa using hp⟩)

/-! ## The walk of `check_statement` and `check_query` -/

def followed : Node → List Node
  | .statement (.explain s) => [.statement s]
  | .statement (.query q) => [.query q]
  | .query q => [.setExpr q.body]
  | .setExpr (.query q) => [.query q]
  | .setExpr (.setOperation l r) => [.setExpr l, .setExpr r]
  | _ => []

def skipped : Node → List Node
  | .statement (.explain _) => []
  | .statement (.query _) => []
  | .query (.mk with_ _ exprs) => with_.map .query ++ exprs.map .expr
  | .setExpr (.query _) => []
  | .setExpr (.setOperation _ _) => []
  | n => n.parts

def checkWalk : tree.Walk where
  follow := followed
  skip := skipped
  covers := by
    intro n m
    cases n with
    | query q =>
      cases q
      simp only [tree, Node.parts, Query.parts, followed, skipped, Query.body, List.mem_append,
        List.mem_singleton]
      tauto
    | statement s => cases s <;> simp [tree, Node.parts, Statement.parts, followed, skipped]
    | setExpr b => cases b <;> simp [tree, Node.parts, SetExpr.parts, followed, skipped]
    | _ => simp [tree, followed, skipped]

inductive KindClass
  | read | dml | ddl | admin | unlisted
deriving DecidableEq

def kindClass : StatementKind → KindClass
  | .explainTable | .showCreate | .showColumns | .showTables | .showFunctions | .showStatus
  | .showVariables | .showVariable | .showDatabases | .showSchemas | .showCollation | .use
  | .setNames | .setNamesDefault | .startTransaction | .commit | .rollback | .savepoint
  | .setTransaction => .read
  | .insert | .update | .delete => .dml
  | .truncate | .drop | .createTable | .createView | .createIndex | .createSchema
  | .createDatabase | .alterTable | .alterIndex | .alterView => .ddl
  | .grant | .revoke => .admin
  | .other _ => .unlisted

def Permitted (g : Grants) : KindClass → Prop
  | .read => True
  | .dml => g.allowDml = true
  | .ddl => g.allowDdl = true
  | .admin => g.allowAdmin = true
  | .unlisted => False

theorem checkKind_eq_allow_iff (g : Grants) (kind : StatementKind) :
    checkKind g kind = .allow ↔ Permitted g (kindClass kind) := by
  cases kind <;> simp [checkKind, kindClass, Permitted]

structure Settable (profile : PolicyProfile) (name : ObjectName) : Prop where
  not_global : ¬ (strContains (toAsciiLowercase (profile.toString name)) "@@global" ∨
    strContains (toAsciiLowercase (profile.toString name)) "global.")
  not_user : ¬ strStartsWith (toAsciiLowercase (profile.toString name)) "@"
  listed : lastSegment name ∈ profile.safeSetVars

theorem checkSetNames_eq_allow_iff (profile : PolicyProfile) (names : List ObjectName) :
    checkSetNames profile.toString profile.safeSetVars names = .allow ↔
      ∀ n ∈ names, Settable profile n := by
  induction names with
  | nil => simp [checkSetNames]
  | cons n rest ih =>
    rw [checkSetNames, List.forall_mem_cons, ← ih]
    split_ifs with hglobal huser hlisted
    · have : ¬ Settable profile n := fun h => h.not_global (by simpa using hglobal)
      simp [this]
    · have : ¬ Settable profile n := fun h => h.not_user (by simpa using huser)
      simp [this]
    · have : ¬ Settable profile n := fun h => by simp [h.listed] at hlisted
      simp [this]
    · have : Settable profile n :=
        ⟨by simpa using hglobal, by simpa using huser, by simpa using hlisted⟩
      simp [this]

/-- What the checks ask of one node of the walk. -/
def NodeAdmitted (g : Grants) (profile : PolicyProfile) : Node → Prop
  | .statement (.of kind _ _ _ _) => Permitted g (kindClass kind)
  | .statement (.setVariable local_ _ vars _) =>
      local_ = false ∧ ∀ n ∈ vars.toList, Settable profile n
  | .setExpr (.select into _ _) => into = none
  | _ => True

section
variable (g : Grants) (profile : PolicyProfile)

def WalkAdmitted (n : Node) : Prop := ∀ m, checkWalk.Passes n m → NodeAdmitted g profile m

variable {g profile}

theorem walkAdmitted_iff {n : Node} :
    WalkAdmitted g profile n ↔
      NodeAdmitted g profile n ∧ ∀ m ∈ followed n, WalkAdmitted g profile m := by
  constructor
  · intro h
    refine ⟨h n (.refl n), fun m hm k hk => h k ?_⟩
    exact Forest.Walk.passes_iff.mpr (Or.inr ⟨m, hm, hk⟩)
  · rintro ⟨hn, hfollow⟩ k hk
    obtain rfl | ⟨m, hm, hk⟩ := Forest.Walk.passes_iff.mp hk
    · exact hn
    · exact hfollow m hm k hk

theorem scanSelectForOutfile_eq_none_iff (g : Grants) (profile : PolicyProfile) (b : SetExpr) :
    scanSelectForOutfile b = none ↔ WalkAdmitted g profile (.setExpr b) := by
  induction b using scanSelectForOutfile.induct with
  | case1 into from_ exprs h =>
    rw [walkAdmitted_iff]
    simp [scanSelectForOutfile, h, NodeAdmitted, Option.isSome_iff_ne_none.mp h]
  | case2 into from_ exprs h =>
    rw [walkAdmitted_iff]
    simp [scanSelectForOutfile, NodeAdmitted, followed, Option.not_isSome_iff_eq_none.mp h]
  | case3 with_ body exprs ih =>
    rw [scanSelectForOutfile, ih, walkAdmitted_iff (n := .setExpr (.query _))]
    simp [followed, NodeAdmitted, walkAdmitted_iff (n := .query _), Query.body]
  | case4 left right ihl ihr =>
    rw [scanSelectForOutfile, Option.or_eq_none_iff, ihl, ihr,
      walkAdmitted_iff (n := .setExpr (.setOperation _ _))]
    simp [followed, NodeAdmitted]
  | case5 b hselect hquery hset =>
    rw [walkAdmitted_iff]
    cases b with
    | select into from_ exprs => exact absurd rfl (hselect into from_ exprs)
    | query q => cases q; exact absurd rfl (hquery _ _ _)
    | setOperation l r => exact absurd rfl (hset l r)
    | _ => simp [scanSelectForOutfile, followed, NodeAdmitted]

theorem scanSelectForOutfile_ne_allow (b : SetExpr) : scanSelectForOutfile b ≠ some .allow := by
  induction b using scanSelectForOutfile.induct with
  | case1 into from_ exprs h => simp [scanSelectForOutfile, h]
  | case2 into from_ exprs h => simp [scanSelectForOutfile, h]
  | case3 with_ body exprs ih => simpa [scanSelectForOutfile] using ih
  | case4 left right ihl ihr => simp [scanSelectForOutfile, Option.or_eq_some_iff, ihl, ihr]
  | case5 b hselect hquery hset => simp [scanSelectForOutfile]

theorem checkQuery_eq_allow_iff (g : Grants) (profile : PolicyProfile) (q : Query) :
    checkQuery q = .allow ↔ WalkAdmitted g profile (.query q) := by
  have hbody : checkQuery q = .allow ↔ scanSelectForOutfile q.body = none := by
    unfold checkQuery
    cases h : scanSelectForOutfile q.body with
    | none => simp
    | some d =>
      have hd : d ≠ .allow := fun hd => scanSelectForOutfile_ne_allow q.body (hd ▸ h)
      simp [hd]
  rw [hbody, scanSelectForOutfile_eq_none_iff g profile,
    walkAdmitted_iff (n := .query q)]
  simp [followed, NodeAdmitted]

theorem checkStatement_eq_allow_iff (g : Grants) (profile : PolicyProfile) (s : Statement) :
    checkStatement g profile s = .allow ↔ WalkAdmitted g profile (.statement s) := by
  induction s using checkStatement.induct with
  | case1 q =>
    rw [checkStatement, checkQuery_eq_allow_iff g profile,
      walkAdmitted_iff (n := .statement (.query q))]
    simp [followed, NodeAdmitted]
  | case2 s ih =>
    rw [checkStatement, ih, walkAdmitted_iff (n := .statement (.explain s))]
    simp [followed, NodeAdmitted]
  | case3 local_ hivevar vars value =>
    rw [checkStatement, checkSet, walkAdmitted_iff]
    cases local_
    · simp [followed, NodeAdmitted, checkSetNames_eq_allow_iff]
    · simp [NodeAdmitted]
  | case4 kind tables queries exprs statements =>
    rw [checkStatement, checkKind_eq_allow_iff, walkAdmitted_iff]
    simp [followed, NodeAdmitted]

end

theorem firstDeny_eq_allow_iff (check : Statement → Decision) (stmts : List Statement) :
    firstDeny check stmts = .allow ↔ ∀ s ∈ stmts, check s = .allow := by
  induction stmts with
  | nil => simp [firstDeny]
  | cons s ss ih =>
    rw [firstDeny, List.forall_mem_cons, ← ih]
    cases h : check s <;> simp

/-! ## The whole firewall -/

structure Admitted (g : Grants) (profile : PolicyProfile) (stmts : List Statement) : Prop where
  nonempty : stmts ≠ []
  single : stmts.length ≤ 1 ∨ (g.allowDml = true ∧ g.allowDdl = true)
  walk : ∀ s ∈ stmts, WalkAdmitted g profile (.statement s)
  harmless : ∀ s ∈ stmts, ∀ e, OccursIn (.expr e) s →
    isDangerous profile.dangerousFuncs e = false

theorem admitted_iff {g : Grants} {profile : PolicyProfile} {stmts : List Statement}
    (hempty : stmts.isEmpty = false)
    (hmany : ¬ (stmts.length > 1 && !(g.allowDml && g.allowDdl)) = true) :
    Admitted g profile stmts ↔ firstDeny (checkStatement g profile) stmts = .allow ∧
      firstDeny (scanDangerous profile.dangerousFuncs) stmts = .allow := by
  simp only [firstDeny_eq_allow_iff, checkStatement_eq_allow_iff, scanDangerous_eq_allow_iff]
  constructor
  · intro h
    exact ⟨h.walk, h.harmless⟩
  · intro h
    refine ⟨by simpa using hempty, ?_, h.1, h.2⟩
    by_cases hlen : stmts.length ≤ 1
    · exact Or.inl hlen
    · right
      simpa [Nat.lt_of_not_le hlen] using hmany

theorem evaluate_eq_allow_iff (sql : String) (policy : Policy) (profile : PolicyProfile) :
    evaluate sql policy profile = .allow ↔
      ∃ stmts, profile.parse sql = .ok stmts ∧ Admitted (grantsOf policy) profile stmts := by
  unfold evaluate
  cases hparse : profile.parse sql with
  | error e => simp
  | ok stmts =>
    simp only [Except.ok.injEq, exists_eq_left']
    split_ifs with hempty hmany
    · have : ¬ Admitted (grantsOf policy) profile stmts := fun h =>
        h.nonempty (List.isEmpty_iff.mp hempty)
      simp [this]
    · have : ¬ Admitted (grantsOf policy) profile stmts := fun h => by
        simp only [Bool.and_eq_true, decide_eq_true_eq, Bool.not_eq_true'] at hmany
        rcases h.single with hlen | ⟨hdml, hddl⟩
        · omega
        · simp [hdml, hddl] at hmany
      simp [this]
    · rw [admitted_iff (by simpa using hempty) hmany]
      cases firstDeny (checkStatement (grantsOf policy) profile) stmts <;> simp

end MiddleWhere.Firewall
