import MiddleWhere.Effects.Prog

/-!
# What a program keeps

`Keeps M I p` says that every execution of `p` from a state of `I` ends in a state of `I`. A
program that calls only operations which are in a reflexive and transitive relation to what
they leave is so too; that is how a frame condition is proved.
-/

namespace MiddleWhere
namespace Prog

variable {S : Sig} {ε ε' α β σ : Type} {M : Sem S σ} {I : σ → Prop} {A : S.Op → Prop}

def Keeps (M : Sem S σ) (I : σ → Prop) (p : Prog S ε α) : Prop :=
  ∀ s, I s → wp M p (fun _ _ s' => I s') s

theorem keeps_halt (out : Outcome ε α) : Keeps M I (.halt out : Prog S ε α) :=
  fun _ hs => wp_halt.mpr hs

theorem Keeps.bind {p : Prog S ε α} {f : α → Prog S ε β} (hp : Keeps M I p)
    (hf : ∀ a, Keeps M I (f a)) : Keeps M I (p.bind f) := by
  intro s hs
  refine wp_bind.mpr (wp_mono (hp s hs) ?_)
  intro t out s' hs'
  cases out with
  | ok a => exact hf a s' hs'
  | err e => exact hs'
  | panic => exact hs'

theorem Keeps.attempt {p : Prog S ε α} (hp : Keeps M I p) :
    Keeps M I (p.attempt : Prog S ε' (Except ε α)) :=
  fun s hs => wp_attempt.mpr (hp s hs)

/-- The relation of each call to what it leaves holds from one end of the program to the other. -/
theorem related_of_uses {R : σ → σ → Prop} (hrefl : ∀ s, R s s)
    (htrans : ∀ s₁ s₂ s₃, R s₁ s₂ → R s₂ s₃ → R s₁ s₃)
    (hstep : ∀ s o r s', A o → M s o r s' → R s s') {p : Prog S ε α} (hp : p.Uses A) (s : σ) :
    wp M p (fun _ _ s' => R s s') s := by
  induction p generalizing s with
  | halt out => exact wp_halt.mpr (hrefl s)
  | call o k ih =>
    refine wp_call.mpr fun r s' hM => ?_
    have hfirst : R s s' := hstep s o r s' hp.1 hM
    exact wp_mono (ih r (hp.2 r) s') fun _ _ s'' hrest => htrans s s' s'' hfirst hrest

theorem keeps_of_uses (hstep : ∀ s o r s', A o → I s → M s o r s' → I s') {p : Prog S ε α}
    (hp : p.Uses A) : Keeps M I p := by
  intro s hs
  have hrel := related_of_uses (R := fun s s' => I s → I s') (fun _ h => h)
    (fun _ _ _ h h' hs => h' (h hs)) (fun s o r s' hA hM hs => hstep s o r s' hA hs hM) hp s
  exact wp_mono hrel fun _ _ s' hs' => hs' hs

end Prog
end MiddleWhere
