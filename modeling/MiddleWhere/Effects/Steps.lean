import Mathlib

/-!
# Runs of a partial step function

An action may be impossible in a state. What every step keeps is kept by a run; where it
depends on what came before, the invariant speaks of the actions taken so far.
-/

namespace MiddleWhere.Steps

variable {σ α : Type} {step : σ → α → Option σ}

def Runs (step : σ → α → Option σ) (s : σ) (as : List α) (s' : σ) : Prop :=
  as.foldlM step s = some s'

theorem runs_nil {s s' : σ} : Runs step s [] s' ↔ s' = s := by
  simp [Runs, eq_comm]

theorem runs_cons {s s' : σ} {a : α} {as : List α} :
    Runs step s (a :: as) s' ↔ ∃ m, step s a = some m ∧ Runs step m as s' := by
  simp [Runs, Option.bind_eq_some_iff]

theorem runs_append {s s' : σ} {as bs : List α} :
    Runs step s (as ++ bs) s' ↔ ∃ m, Runs step s as m ∧ Runs step m bs s' := by
  simp [Runs, List.foldlM_append, Option.bind_eq_some_iff]

theorem runs_concat {s s' : σ} {as : List α} {a : α} :
    Runs step s (as ++ [a]) s' ↔ ∃ m, Runs step s as m ∧ step m a = some s' := by
  simp [runs_append, runs_cons, runs_nil]

theorem Runs.det {s s' s'' : σ} {as : List α} (h : Runs step s as s') (h' : Runs step s as s'') :
    s' = s'' :=
  Option.some.inj (h.symm.trans h')

/-- The induction over a run, with the actions taken so far. -/
theorem Runs.history {s s' : σ} {as : List α} (h : Runs step s as s') {I : List α → σ → Prop}
    (hstart : I [] s) (hstep : ∀ before a m m', before ++ [a] <+: as → Runs step s before m →
      step m a = some m' → I before m → I (before ++ [a]) m') : I as s' := by
  induction as using List.reverseRecOn generalizing s' with
  | nil => exact runs_nil.mp h ▸ hstart
  | append_singleton as a ih =>
    obtain ⟨m, hm, ha⟩ := runs_concat.mp h
    refine hstep as a m s' (List.prefix_refl _) hm ha (ih hm ?_)
    exact fun before b m m' hpre => hstep before b m m' (hpre.trans (List.prefix_append _ _))

/-- What every step by an action of the run keeps. -/
theorem Runs.keeps {s s' : σ} {as : List α} (h : Runs step s as s') {I : σ → Prop}
    (hstep : ∀ a ∈ as, ∀ m m', step m a = some m' → I m → I m') (hs : I s) : I s' := by
  induction as generalizing s with
  | nil => exact runs_nil.mp h ▸ hs
  | cons a as ih =>
    obtain ⟨m, ha, hm⟩ := runs_cons.mp h
    exact ih hm (fun b hb => hstep b (List.mem_cons_of_mem a hb))
      (hstep a List.mem_cons_self s m ha hs)

end MiddleWhere.Steps
