import MiddleWhere.Core.PolicySpec

/-!
# What an admitted statement can still do

Two promises of the firewall, over the whole tree of every statement that it lets through:
a read-only environment is not modified, and no denylisted function is called. Each holds
exactly where the passes look. The kind check leaves the parts that its walk skips to
nobody, and the function scan sees a call only when it is an expression.
-/

namespace MiddleWhere.Firewall
open Sql

variable {sql : String} {profile : PolicyProfile} {stmts : List Statement}

/-! ## Read-only environments -/

/-- Writes data, schema or privileges, or is a select with a target. -/
def Modifies : Node → Prop
  | .statement (.of kind _ _ _ _) => match kindClass kind with
    | .read => False
    | .dml | .ddl | .admin => True
    | .unlisted => kind = .other true
  | .setExpr (.select into _ _) => into.isSome = true
  | _ => False

def ReadOnlySound (profile : PolicyProfile) (sql : String) (stmts : List Statement) : Prop :=
  evaluate sql .readOnly profile = .allow → ∀ s ∈ stmts, ∀ n, OccursIn n s → ¬ Modifies n

theorem not_modifies_of_nodeAdmitted {n : Node}
    (h : NodeAdmitted (grantsOf .readOnly) profile n) : ¬ Modifies n := by
  cases n with
  | statement s =>
    cases s with
    | of kind tables queries exprs statements =>
      simp only [NodeAdmitted] at h
      simp only [Modifies]
      cases hclass : kindClass kind <;> simp [hclass, Permitted, grantsOf] at h ⊢
    | _ => exact not_false
  | setExpr b =>
    cases b with
    | select into from_ exprs =>
      have hinto : into = none := h
      simp [Modifies, hinto]
    | _ => exact not_false
  | _ => exact not_false

theorem WalkAdmitted.modifies_iff_skipped {n : Node}
    (h : WalkAdmitted (grantsOf .readOnly) profile n) :
    (∀ m, tree.Occurs n m → ¬ Modifies m) ↔ ∀ m, checkWalk.Skips n m → ¬ Modifies m := by
  constructor
  · intro hall m hm
    exact hall m hm.occurs
  · intro hskip m hm
    rcases Forest.Walk.occurs_iff_passes_or_skips.mp hm with hpass | hs
    · exact not_modifies_of_nodeAdmitted (h m hpass)
    · exact hskip m hs

theorem evaluate_allow_iff_admitted (hparse : profile.parse sql = .ok stmts) (policy : Policy) :
    evaluate sql policy profile = .allow ↔ Admitted (grantsOf policy) profile stmts := by
  rw [evaluate_eq_allow_iff, hparse]
  simp

/-- Only the parts that the walk skips can carry a modification past the firewall. -/
theorem readOnlySound_iff (hparse : profile.parse sql = .ok stmts) :
    ReadOnlySound profile sql stmts ↔
      (Admitted (grantsOf .readOnly) profile stmts →
        ∀ s ∈ stmts, ∀ n, checkWalk.Skips (.statement s) n → ¬ Modifies n) := by
  unfold ReadOnlySound
  rw [evaluate_allow_iff_admitted hparse]
  refine imp_congr_right fun hadm => forall₂_congr fun s hs => ?_
  exact (hadm.walk s hs).modifies_iff_skipped

/-! ## Denylisted functions -/

def calledName : Node → Option ObjectName
  | .expr (.function name _ _ _) => some name
  | .factor (.callTable name _ _) => some name
  | .factor (.function name _) => some name
  | _ => none

def CallsListed (funcs : List String) (n : Node) : Prop :=
  ∃ name, calledName n = some name ∧ lastSegment name ∈ funcs

def DenylistComplete (profile : PolicyProfile) (policy : Policy) (sql : String)
    (stmts : List Statement) : Prop :=
  evaluate sql policy profile = .allow →
    ∀ s ∈ stmts, ∀ n, OccursIn n s → ¬ CallsListed profile.dangerousFuncs n

theorem callsListed_expr_iff (funcs : List String) (e : Expr) :
    CallsListed funcs (.expr e) ↔ isDangerous funcs e = true := by
  cases e <;> simp [CallsListed, calledName, isDangerous]

theorem callsListed_cases {funcs : List String} {n : Node} (h : CallsListed funcs n) :
    (∃ e, n = .expr e) ∨ ∃ f, n = .factor f := by
  obtain ⟨name, hname, -⟩ := h
  cases n with
  | expr e => exact Or.inl ⟨e, rfl⟩
  | factor f => exact Or.inr ⟨f, rfl⟩
  | _ => cases hname

/-- Calls that stand as expressions are all found; those that stand as tables are not. -/
theorem denylistComplete_iff (policy : Policy) (hparse : profile.parse sql = .ok stmts) :
    DenylistComplete profile policy sql stmts ↔
      (Admitted (grantsOf policy) profile stmts →
        ∀ s ∈ stmts, ∀ f, OccursIn (.factor f) s →
          ¬ CallsListed profile.dangerousFuncs (.factor f)) := by
  unfold DenylistComplete
  rw [evaluate_allow_iff_admitted hparse]
  refine imp_congr_right fun hadm => forall₂_congr fun s hs => ?_
  constructor
  · intro hall f hf
    exact hall _ hf
  · intro hfactor n hn hcalls
    obtain ⟨e, rfl⟩ | ⟨f, rfl⟩ := callsListed_cases hcalls
    · have hsafe := hadm.harmless s hs e hn
      rw [callsListed_expr_iff, hsafe] at hcalls
      cases hcalls
    · exact hfactor f hn hcalls

/-! ## Statements that pass -/

def bareName (name : String) : ObjectName := [⟨name, none⟩]

/-- The parser at one text, with the tree that it gives for it. -/
def parserOf (text : String) (tree : List Statement) : Sqlparser where
  parseMySql sql := if sql = text then .ok tree else .error "not parsed"
  parsePostgres sql := if sql = text then .ok tree else .error "not parsed"
  objectNameToString name := ".".intercalate (name.map Ident.value)

/-- `SELECT` of a literal. -/
def selectLiteral : List Statement := [.query (.mk [] (.select none [] [.other []]) [])]

theorem evaluate_selectLiteral {sql : String} {policy : Policy} {profile : PolicyProfile}
    (hparse : profile.parse sql = .ok selectLiteral) : evaluate sql policy profile = .allow := by
  unfold evaluate
  rw [hparse]
  rfl

def cteInsertSql : String := "WITH c AS (INSERT INTO t VALUES (1) RETURNING id) SELECT id FROM c"

def cteInsert : Query :=
  .mk [] (.insert (.of .insert [] [.mk [] (.values [.other []]) []] [.other []] [])) []

def cteInsertTree : List Statement :=
  [.query (.mk [cteInsert] (.select none [.mk (.table (bareName "c") []) []] [.other []]) [])]

def cteInsertProfile : PolicyProfile := pgProfile (parserOf cteInsertSql cteInsertTree)

theorem cteInsert_parsed : cteInsertProfile.parse cteInsertSql = .ok cteInsertTree := by
  simp [cteInsertProfile, pgProfile, parserOf]

theorem not_readOnlySound_cteInsert :
    ¬ ReadOnlySound cteInsertProfile cteInsertSql cteInsertTree := by
  intro h
  have hallow : evaluate cteInsertSql .readOnly cteInsertProfile = .allow := by decide
  refine h hallow _ (List.mem_singleton.mpr rfl)
    (.statement (.of .insert [] [.mk [] (.values [.other []]) []] [.other []] [])) ?_ trivial
  refine .below (m := .query _) (List.mem_singleton.mpr rfl) ?_
  refine .below (m := .query cteInsert) (List.mem_cons_self ..) ?_
  refine .below (m := .setExpr _) (List.mem_singleton.mpr rfl) ?_
  exact .below (m := .statement _) (List.mem_singleton.mpr rfl) (.refl _)

theorem readOnlySound_iff_cteInsert :
    ReadOnlySound cteInsertProfile cteInsertSql cteInsertTree ↔
      (Admitted (grantsOf .readOnly) cteInsertProfile cteInsertTree →
        ∀ s ∈ cteInsertTree, ∀ n, checkWalk.Skips (.statement s) n → ¬ Modifies n) :=
  readOnlySound_iff cteInsert_parsed

def fromReadFileSql : String := "SELECT * FROM PG_READ_FILE('/etc/passwd')"

def fromReadFileTree : List Statement :=
  [.query (.mk [] (.select none
    [.mk (.callTable (bareName "PG_READ_FILE") [.other []] []) []] []) [])]

def fromReadFileProfile : PolicyProfile := pgProfile (parserOf fromReadFileSql fromReadFileTree)

theorem fromReadFile_parsed : fromReadFileProfile.parse fromReadFileSql = .ok fromReadFileTree := by
  simp [fromReadFileProfile, pgProfile, parserOf]

theorem not_denylistComplete_fromReadFile :
    ¬ DenylistComplete fromReadFileProfile .readOnly fromReadFileSql fromReadFileTree := by
  intro h
  have hallow : evaluate fromReadFileSql .readOnly fromReadFileProfile = .allow := by decide
  refine h hallow _ (List.mem_singleton.mpr rfl)
    (.factor (.callTable (bareName "PG_READ_FILE") [.other []] [])) ?_
    ⟨bareName "PG_READ_FILE", rfl, by decide⟩
  refine .below (m := .query _) (List.mem_singleton.mpr rfl) ?_
  refine .below (m := .setExpr _) (List.mem_singleton.mpr rfl) ?_
  refine .below (m := .table _) (List.mem_singleton.mpr rfl) ?_
  exact .below (m := .factor _) (List.mem_singleton.mpr rfl) (.refl _)

theorem denylistComplete_iff_fromReadFile :
    DenylistComplete fromReadFileProfile .readOnly fromReadFileSql fromReadFileTree ↔
      (Admitted (grantsOf .readOnly) fromReadFileProfile fromReadFileTree →
        ∀ s ∈ fromReadFileTree, ∀ f, OccursIn (.factor f) s →
          ¬ CallsListed fromReadFileProfile.dangerousFuncs (.factor f)) :=
  denylistComplete_iff .readOnly fromReadFile_parsed

end MiddleWhere.Firewall
