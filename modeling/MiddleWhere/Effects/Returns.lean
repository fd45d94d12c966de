import MiddleWhere.Effects.Prog

/-!
# What holds when a program returns

A specification of the runs that end in a value. An error or a panic meets it; the rules
follow the constructors of programs.
-/

namespace MiddleWhere
namespace Prog

variable {S : Sig} {ε α β σ : Type} {M : Sem S σ}

/-- Whenever `p` returns a value, its trace, the value and the state are in `Q`. -/
def Returns (M : Sem S σ) (p : Prog S ε α) (Q : List (Event S) → α → σ → Prop) (s : σ) : Prop :=
  wp M p (fun t out s' => ∀ a, out = .ok a → Q t a s') s

theorem Returns.exec {p : Prog S ε α} {Q : List (Event S) → α → σ → Prop} {s s' : σ}
    {t : List (Event S)} {a : α} (h : Returns M p Q s) (ht : Exec M p s t (.ok a) s') : Q t a s' :=
  h t _ s' ht a rfl

theorem returns_ok {a : α} {Q : List (Event S) → α → σ → Prop} {s : σ} (h : Q [] a s) :
    Returns M (.halt (.ok a) : Prog S ε α) Q s :=
  wp_halt.mpr fun _ ha => Outcome.ok.inj ha ▸ h

theorem returns_err {e : ε} {Q : List (Event S) → α → σ → Prop} {s : σ} :
    Returns M (.halt (.err e) : Prog S ε α) Q s :=
  wp_halt.mpr nofun

theorem returns_panic {Q : List (Event S) → α → σ → Prop} {s : σ} :
    Returns M (.halt .panic : Prog S ε α) Q s :=
  wp_halt.mpr nofun

theorem returns_call {o : S.Op} {k : S.Res o → Prog S ε α} {Q : List (Event S) → α → σ → Prop}
    {s : σ} (h : ∀ r s', M s o r s' → Returns M (k r) (fun t => Q (⟨o, r⟩ :: t)) s') :
    Returns M (.call o k) Q s :=
  wp_call.mpr h

theorem Returns.mono {p : Prog S ε α} {Q Q' : List (Event S) → α → σ → Prop} {s : σ}
    (h : Returns M p Q s) (hQ : ∀ t a s', Q t a s' → Q' t a s') : Returns M p Q' s :=
  wp_mono h fun t _ s' hq a ha => hQ t a s' (hq a ha)

theorem Returns.bind {p : Prog S ε α} {f : α → Prog S ε β} {Q : List (Event S) → β → σ → Prop}
    {s : σ} (h : Returns M p (fun t a s' => Returns M (f a) (fun t' => Q (t ++ t')) s') s) :
    Returns M (p.bind f) Q s := by
  refine wp_bind.mpr (wp_mono h ?_)
  intro t out s' hout
  cases out with
  | ok a => exact hout a rfl
  | err e => exact nofun
  | panic => exact nofun

/-- What the second part is sure to call, the whole program is. -/
theorem returns_mem_bind {e : Event S} {p : Prog S ε α} {f : α → Prog S ε β} {s : σ}
    (h : ∀ a s', Returns M (f a) (fun t _ _ => e ∈ t) s') :
    Returns M (p.bind f) (fun t _ _ => e ∈ t) s := by
  apply Returns.bind
  intro t out s' _ a _
  exact (h a s').mono fun t' _ _ hmem => List.mem_append_right t hmem

theorem Returns.finally {o : S.Op} {p : Prog S ε α} {Q : List (Event S) → α → σ → Prop} {s : σ}
    (h : Returns M p (fun t a s' => ∀ r s'', M s' o r s'' → Q (t ++ [⟨o, r⟩]) a s'') s) :
    Returns M (p.finally_ o) Q s := by
  refine wp_finally.mpr (wp_mono h ?_)
  intro t out s' hout
  cases out with
  | ok a => exact fun r s'' hM b hb => Outcome.ok.inj hb ▸ hout a rfl r s'' hM
  | err e => exact fun _ _ _ _ => nofun
  | panic => exact nofun

end Prog
end MiddleWhere
