import MiddleWhere.Core.PolicySpec

/-!
# More grants allow more

Policies are ordered by their grants, one flag at a time. What the firewall admits is
monotone in them: each guard asks for a grant and none asks for the lack of one, and the
limit on the number of statements is only ever lifted by a grant.
-/

namespace MiddleWhere.Firewall
open Sql

instance : Preorder Grants :=
  Preorder.lift fun g => (g.allowDml, g.allowDdl, g.allowAdmin)

variable {g g' : Grants} {profile : PolicyProfile}

theorem Grants.le_iff : g ≤ g' ↔ (g.allowDml = true → g'.allowDml = true) ∧
    (g.allowDdl = true → g'.allowDdl = true) ∧ (g.allowAdmin = true → g'.allowAdmin = true) := by
  have hle : g ≤ g' ↔ (g.allowDml, g.allowDdl, g.allowAdmin) ≤
      (g'.allowDml, g'.allowDdl, g'.allowAdmin) := Iff.rfl
  rw [hle, Prod.mk_le_mk, Prod.mk_le_mk, Bool.le_iff_imp, Bool.le_iff_imp, Bool.le_iff_imp]

theorem Permitted.mono (hle : g ≤ g') {c : KindClass} (h : Permitted g c) : Permitted g' c := by
  have hflags := Grants.le_iff.mp hle
  cases c with
  | read => trivial
  | dml => exact hflags.1 h
  | ddl => exact hflags.2.1 h
  | admin => exact hflags.2.2 h
  | unlisted => exact h

/-- Only the kind of a statement is looked at together with the grants. -/
theorem NodeAdmitted.mono (hle : g ≤ g') {n : Node} (h : NodeAdmitted g profile n) :
    NodeAdmitted g' profile n := by
  cases n with
  | statement s =>
    cases s with
    | of kind tables queries exprs statements => exact Permitted.mono hle h
    | setVariable local_ hivevar vars value => exact h
    | query q => trivial
    | explain s => trivial
  | setExpr b => cases b <;> exact h
  | _ => trivial

theorem WalkAdmitted.mono (hle : g ≤ g') {n : Node} (h : WalkAdmitted g profile n) :
    WalkAdmitted g' profile n := fun m hm => NodeAdmitted.mono hle (h m hm)

theorem Admitted.mono (hle : g ≤ g') {stmts : List Statement} (h : Admitted g profile stmts) :
    Admitted g' profile stmts := by
  have hflags := Grants.le_iff.mp hle
  refine ⟨h.nonempty, ?_, fun s hs => (h.walk s hs).mono hle, h.harmless⟩
  rcases h.single with hone | ⟨hdml, hddl⟩
  · exact .inl hone
  · exact .inr ⟨hflags.1 hdml, hflags.2.1 hddl⟩

/-- The texts that a policy lets through. -/
def allowedBy (profile : PolicyProfile) (policy : Policy) : Set String :=
  {sql | evaluate sql policy profile = .allow}

theorem allowedBy_mono (profile : PolicyProfile) {policy policy' : Policy}
    (hle : grantsOf policy ≤ grantsOf policy') :
    allowedBy profile policy ⊆ allowedBy profile policy' := by
  intro sql hsql
  obtain ⟨stmts, hparse, hadmitted⟩ := (evaluate_eq_allow_iff sql policy profile).mp hsql
  exact (evaluate_eq_allow_iff sql policy' profile).mpr ⟨stmts, hparse, hadmitted.mono hle⟩

/-- What a policy allows grows with its grants, so the named policies lie in between. -/
theorem policy_monotone (profile : PolicyProfile) :
    (∀ policy policy', grantsOf policy ≤ grantsOf policy' →
      allowedBy profile policy ⊆ allowedBy profile policy') ∧
    allowedBy profile .readOnly ⊆ allowedBy profile .readWrite ∧
    allowedBy profile .readWrite = allowedBy profile (.custom true false false) ∧
    ∀ dml ddl admin,
      allowedBy profile .readOnly ⊆ allowedBy profile (.custom dml ddl admin) ∧
      allowedBy profile (.custom dml ddl admin) ⊆ allowedBy profile (.custom true true true) := by
  have hbot : ∀ policy, grantsOf .readOnly ≤ grantsOf policy := fun policy =>
    Grants.le_iff.mpr (by simp [grantsOf])
  have htop : ∀ policy, grantsOf policy ≤ grantsOf (.custom true true true) := fun policy =>
    Grants.le_iff.mpr (by simp [grantsOf])
  have hsame : allowedBy profile .readWrite = allowedBy profile (.custom true false false) :=
    Set.Subset.antisymm (allowedBy_mono profile (le_refl _)) (allowedBy_mono profile (le_refl _))
  exact ⟨fun _ _ => allowedBy_mono profile, allowedBy_mono profile (hbot _), hsame,
    fun _ _ _ => ⟨allowedBy_mono profile (hbot _), allowedBy_mono profile (htop _)⟩⟩

end MiddleWhere.Firewall
