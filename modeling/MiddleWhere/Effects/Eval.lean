import MiddleWhere.Effects.Prog

/-!
# Worlds that answer one way

When the answer to an operation and the next state are a function of the state, a program
has one execution, and `eval` computes its outcome and the state it leaves.
-/

namespace MiddleWhere
namespace Prog

variable {S : Sig} {ε ε' α β σ : Type}

abbrev Answerer (S : Sig) (σ : Type) := σ → (o : S.Op) → S.Res o × σ

def eval (answer : Answerer S σ) : Prog S ε α → σ → Outcome ε α × σ
  | .halt out, s => (out, s)
  | .call o k, s => (k (answer s o).1).eval answer (answer s o).2

/-- The world in which each operation has its one answer. -/
def Sem.ofAnswerer (answer : Answerer S σ) : Sem S σ :=
  fun s o r s' => answer s o = (r, s')

variable {answer : Answerer S σ} {s s' : σ}

@[simp] theorem eval_halt (out : Outcome ε α) : (Prog.halt out).eval answer s = (out, s) := rfl

@[simp] theorem eval_call (o : S.Op) (k : S.Res o → Prog S ε α) :
    (Prog.call o k).eval answer s = (k (answer s o).1).eval answer (answer s o).2 := rfl

theorem exec_iff_eval {p : Prog S ε α} {out : Outcome ε α} :
    (∃ t, Exec (Sem.ofAnswerer answer) p s t out s') ↔ p.eval answer s = (out, s') := by
  induction p generalizing s with
  | halt o =>
    simp only [exec_halt_iff, eval_halt, Prod.mk.injEq]
    constructor
    · rintro ⟨t, -, hout, hs⟩
      exact ⟨hout.symm, hs.symm⟩
    · rintro ⟨hout, hs⟩
      exact ⟨[], rfl, hout.symm, hs.symm⟩
  | call o k ih =>
    simp only [exec_call_iff, eval_call, ← ih]
    constructor
    · rintro ⟨t, r, s₁, t₁, hanswer, hrest, -⟩
      have hr : answer s o = (r, s₁) := hanswer
      rw [hr]
      exact ⟨t₁, hrest⟩
    · rintro ⟨t₁, hrest⟩
      exact ⟨_, _, _, t₁, rfl, hrest, rfl⟩

theorem eval_bind (p : Prog S ε α) (f : α → Prog S ε β) :
    (p.bind f).eval answer s = match p.eval answer s with
      | (.ok a, s') => (f a).eval answer s'
      | (.err e, s') => (.err e, s')
      | (.panic, s') => (.panic, s') := by
  induction p generalizing s with
  | halt out => cases out <;> rfl
  | call o k ih => exact ih _

/-- The part of a composition that has returned is dropped. -/
theorem eval_bind_ok {p : Prog S ε α} {f : α → Prog S ε β} {a : α}
    (h : p.eval answer s = (.ok a, s')) : (p.bind f).eval answer s = (f a).eval answer s' := by
  rw [eval_bind, h]

theorem eval_mapErr (f : ε → ε') (p : Prog S ε α) :
    (p.mapErr f).eval answer s = ((p.eval answer s).1.mapErr f, (p.eval answer s).2) := by
  induction p generalizing s with
  | halt out => rfl
  | call o k ih => exact ih _

theorem eval_attempt (p : Prog S ε α) :
    (p.attempt : Prog S ε' (Except ε α)).eval answer s =
      ((p.eval answer s).1.attempt, (p.eval answer s).2) := by
  induction p generalizing s with
  | halt out => rfl
  | call o k ih => exact ih _

end Prog
end MiddleWhere
