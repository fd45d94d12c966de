import MiddleWhere.Effects.Prog

/-!
# Monitors

A monitor reads the trace of a program event by event, keeps a state and rejects events.
`Guards` says, by recursion on the program, that no execution of it is rejected and that
every complete one ends in a given condition on monitor, outcome and world. It is proved
by unfolding a program call by call, and composes along `bind`.
-/

namespace MiddleWhere
open Prog

structure Monitor (S : Sig) (τ : Type) where
  next : τ → Event S → τ
  ok : τ → Event S → Prop

namespace Monitor

variable {S : Sig} {τ ε ε' α β σ : Type} (m : Monitor S τ)

def after (x : τ) (t : List (Event S)) : τ := t.foldl m.next x

def Accepts : τ → List (Event S) → Prop
  | _, [] => True
  | x, e :: t => m.ok x e ∧ Accepts (m.next x e) t

def Guards (M : Sem S σ) : Prog S ε α → τ → σ → (τ → Outcome ε α → σ → Prop) → Prop
  | .halt out, x, s, Q => Q x out s
  | .call o k, x, s, Q =>
    ∀ r s', M s o r s' → m.ok x ⟨o, r⟩ ∧ Guards M (k r) (m.next x ⟨o, r⟩) s' Q

variable {m} {M : Sem S σ}

@[simp] theorem after_nil (x : τ) : m.after x [] = x := rfl
@[simp] theorem after_cons (x : τ) (e : Event S) (t : List (Event S)) :
    m.after x (e :: t) = m.after (m.next x e) t := rfl

theorem guards_halt {out : Outcome ε α} {x : τ} {s : σ} {Q : τ → Outcome ε α → σ → Prop} :
    m.Guards M (.halt out) x s Q ↔ Q x out s := Iff.rfl

theorem guards_call {o : S.Op} {k : S.Res o → Prog S ε α} {x : τ} {s : σ}
    {Q : τ → Outcome ε α → σ → Prop} : m.Guards M (.call o k) x s Q ↔
      ∀ r s', M s o r s' → m.ok x ⟨o, r⟩ ∧ m.Guards M (k r) (m.next x ⟨o, r⟩) s' Q := Iff.rfl

theorem Guards.mono {p : Prog S ε α} {x : τ} {s : σ} {Q Q' : τ → Outcome ε α → σ → Prop}
    (h : m.Guards M p x s Q) (hQ : ∀ x out s, Q x out s → Q' x out s) : m.Guards M p x s Q' := by
  induction p generalizing x s with
  | halt out => exact hQ _ _ _ h
  | call o k ih => exact fun r s' hM => ⟨(h r s' hM).1, ih r (h r s' hM).2⟩

theorem guards_bind {p : Prog S ε α} {f : α → Prog S ε β} {x : τ} {s : σ}
    {Q : τ → Outcome ε β → σ → Prop} :
    m.Guards M (p.bind f) x s Q ↔ m.Guards M p x s fun x' out s' => match out with
      | .ok a => m.Guards M (f a) x' s' Q
      | .err e => Q x' (.err e) s'
      | .panic => Q x' .panic s' := by
  induction p generalizing x s with
  | halt out => cases out <;> exact Iff.rfl
  | call o k ih =>
    simp only [Prog.call_bind, guards_call, ih]

theorem Guards.bind_any {p : Prog S ε α} {f : α → Prog S ε β} {x : τ} {s : σ}
    (hp : m.Guards M p x s fun _ _ _ => True)
    (hf : ∀ a x s, m.Guards M (f a) x s fun _ _ _ => True) :
    m.Guards M (p.bind f) x s fun _ _ _ => True := by
  apply guards_bind.mpr
  apply hp.mono
  intro x' out s' _
  cases out with
  | ok a => exact hf a x' s'
  | err e => trivial
  | panic => trivial

theorem guards_attempt {p : Prog S ε α} {x : τ} {s : σ}
    {Q : τ → Outcome ε' (Except ε α) → σ → Prop} :
    m.Guards M p.attempt x s Q ↔ m.Guards M p x s fun x' out s' => Q x' out.attempt s' := by
  induction p generalizing x s with
  | halt out => exact Iff.rfl
  | call o k ih => simp only [Prog.attempt, guards_call, ih]

theorem guards_finally {o : S.Op} {p : Prog S ε α} {x : τ} {s : σ}
    {Q : τ → Outcome ε α → σ → Prop} :
    m.Guards M (p.finally_ o) x s Q ↔ m.Guards M p x s fun x' out s' => match out with
      | .panic => Q x' .panic s'
      | out => ∀ r s'', M s' o r s'' → m.ok x' ⟨o, r⟩ ∧ Q (m.next x' ⟨o, r⟩) out s'' := by
  induction p generalizing x s with
  | halt out => cases out <;> exact Iff.rfl
  | call o' k ih => simp only [Prog.finally_, guards_call, ih]

theorem guards_mapErr {f : ε → ε'} {p : Prog S ε α} {x : τ} {s : σ}
    {Q : τ → Outcome ε' α → σ → Prop} :
    m.Guards M (p.mapErr f) x s Q ↔ m.Guards M p x s fun x' out s' => Q x' (out.mapErr f) s' := by
  induction p generalizing x s with
  | halt out => exact Iff.rfl
  | call o k ih => simp only [Prog.mapErr, guards_call, ih]

/-- Operations that the monitor does not heed leave its state alone. -/
theorem Guards.of_uses {A : S.Op → Prop}
    (hA : ∀ o r x, A o → m.ok x ⟨o, r⟩ ∧ m.next x ⟨o, r⟩ = x) {p : Prog S ε α} (hp : p.Uses A)
    (x : τ) (s : σ) : m.Guards M p x s fun x' _ _ => x' = x := by
  induction p generalizing s with
  | halt out => rfl
  | call o k ih =>
    intro r s' _
    obtain ⟨hok, hnext⟩ := hA o r x hp.1
    rw [hnext]
    exact ⟨hok, ih r (hp.2 r) s'⟩

/-- Nor is a program rejected whose operations the monitor lets pass in every state. -/
theorem Guards.of_passes {A : S.Op → Prop} (hA : ∀ o r x, A o → m.ok x ⟨o, r⟩)
    {p : Prog S ε α} (hp : p.Uses A) (x : τ) (s : σ) : m.Guards M p x s fun _ _ _ => True := by
  induction p generalizing x s with
  | halt out => trivial
  | call o k ih => exact fun r s' _ => ⟨hA o r x hp.1, ih r (hp.2 r) _ s'⟩

theorem Guards.accepts {p : Prog S ε α} {x : τ} {s s' : σ} {t : List (Event S)}
    {Q : τ → Outcome ε α → σ → Prop} (h : m.Guards M p x s Q) (ht : Prog.Stops M p s t s') :
    m.Accepts x t := by
  induction ht generalizing x with
  | here p s => trivial
  | call hM _ ih => exact ⟨(h _ _ hM).1, ih (h _ _ hM).2⟩

theorem Guards.ends {p : Prog S ε α} {x : τ} {s s' : σ} {t : List (Event S)}
    {out : Outcome ε α} {Q : τ → Outcome ε α → σ → Prop} (h : m.Guards M p x s Q)
    (ht : Prog.Exec M p s t out s') : Q (m.after x t) out s' := by
  induction ht generalizing x with
  | halt out s => exact h
  | call hM _ ih => exact ih (h _ _ hM).2

theorem accepts_append {x : τ} {t t' : List (Event S)} :
    m.Accepts x (t ++ t') ↔ m.Accepts x t ∧ m.Accepts (m.after x t) t' := by
  induction t generalizing x with
  | nil => simp [Accepts]
  | cons e t ih => simp only [List.cons_append, Accepts, ih, after_cons, and_assoc]

theorem after_append (x : τ) (t t' : List (Event S)) :
    m.after x (t ++ t') = m.after (m.after x t) t' := by
  simp [after]

/-- An accepted trace, at each of its events. -/
theorem Accepts.ok_at {x : τ} {pre post : List (Event S)} {e : Event S}
    (h : m.Accepts x (pre ++ e :: post)) : m.ok (m.after x pre) e :=
  (accepts_append.mp h).2.1

/-! ## Rules over histories -/

/-- Keeps the whole trace: `rule pre e` is what `e` must satisfy after `pre`. -/
def history (rule : List (Event S) → Event S → Prop) : Monitor S (List (Event S)) where
  next pre e := pre ++ [e]
  ok := rule

variable {rule : List (Event S) → Event S → Prop}

@[simp] theorem history_ok (pre : List (Event S)) (e : Event S) :
    (history rule).ok pre e = rule pre e := rfl

@[simp] theorem history_next (pre : List (Event S)) (e : Event S) :
    (history rule).next pre e = pre ++ [e] := rfl

@[simp] theorem history_after (t t' : List (Event S)) : (history rule).after t t' = t ++ t' := by
  induction t' generalizing t with
  | nil => simp
  | cons e t' ih => simp [ih]

theorem rule_of_accepts {pre post : List (Event S)} {e : Event S}
    (h : (history rule).Accepts [] (pre ++ e :: post)) : rule pre e := by
  have hok := h.ok_at
  rwa [history_after, history_ok] at hok

/-- Something kept from each prefix to the next holds of the whole trace. -/
theorem Accepts.invariant {P : List (Event S) → Prop} {t : List (Event S)}
    (h : (history rule).Accepts [] t) (hnil : P [])
    (hstep : ∀ pre e, P pre → rule pre e → P (pre ++ [e])) : P t := by
  induction t using List.reverseRecOn with
  | nil => exact hnil
  | append_singleton pre e ih =>
    have hpre := (accepts_append.mp h).1
    exact hstep pre e (ih hpre) (rule_of_accepts h)

/-- Events that the rule allows only where there was none before happen at most once. -/
theorem Accepts.countP_le_one {p : Event S → Bool} {t : List (Event S)}
    (h : (history rule).Accepts [] t)
    (hrule : ∀ pre e, rule pre e → p e = true → pre.countP p = 0) : t.countP p ≤ 1 := by
  induction t using List.reverseRecOn with
  | nil => simp
  | append_singleton pre e ih =>
    have hcount : (pre ++ [e]).countP p = pre.countP p + if p e then 1 else 0 := by
      simp [List.countP_singleton]
    by_cases hp : p e = true
    · have hnone := hrule pre e (rule_of_accepts h) hp
      simp [hcount, hnone, hp]
    · have hpre := ih (accepts_append.mp h).1
      simpa [hcount, hp] using hpre

end Monitor
end MiddleWhere
