import Mathlib

/-!
# Transforms that may refuse

A transform rewrites a state and may stop with an error, at which point the state is what
it has written so far. `Ensures m s E Q` says what `m` started in `s` leaves behind: `E`
of the error and the state if it refuses, `Q` of the value and the state if it returns.
`Atomic m s Q` is the case that a refusal leaves the state as it was.
-/

namespace MiddleWhere

abbrev Transform (σ ε α : Type) := ExceptT ε (StateM σ) α

namespace Transform

variable {σ ε α β : Type}

/-- The result and the state that `m` leaves. -/
def exec (m : Transform σ ε α) (s : σ) : Except ε α × σ := StateT.run (ExceptT.run m) s

def Ensures (m : Transform σ ε α) (s : σ) (E : ε → σ → Prop) (Q : α → σ → Prop) : Prop :=
  match m.exec s with
  | (.error e, s') => E e s'
  | (.ok a, s') => Q a s'

abbrev Atomic (m : Transform σ ε α) (s : σ) (Q : α → σ → Prop) : Prop :=
  m.Ensures s (fun _ s' => s' = s) Q

def ofExcept : Except ε α → Transform σ ε α
  | .ok a => pure a
  | .error e => throw e

variable {s : σ} {E : ε → σ → Prop} {Q Q' : α → σ → Prop}

@[simp] theorem exec_pure (a : α) (s : σ) : exec (pure a : Transform σ ε α) s = (.ok a, s) := rfl

@[simp] theorem exec_throw (e : ε) (s : σ) :
    exec (throw e : Transform σ ε α) s = (.error e, s) := rfl

@[simp] theorem exec_get (s : σ) : exec (get : Transform σ ε σ) s = (.ok s, s) := rfl

@[simp] theorem exec_set (s' s : σ) :
    exec (set s' : Transform σ ε PUnit) s = (.ok .unit, s') := rfl

@[simp] theorem exec_ofExcept (x : Except ε α) (s : σ) : exec (ofExcept x) s = (x, s) := by
  cases x <;> rfl

theorem exec_bind (m : Transform σ ε α) (f : α → Transform σ ε β) (s : σ) :
    exec (m >>= f) s = match m.exec s with
      | (.error e, s') => (.error e, s')
      | (.ok a, s') => (f a).exec s' := by
  unfold exec ExceptT.run StateT.run
  simp only [bind, ExceptT.bind, ExceptT.mk, StateT.bind, ExceptT.bindCont]
  cases m s with
  | mk r s' => cases r <;> rfl

@[simp] theorem ensures_pure {a : α} : (pure a : Transform σ ε α).Ensures s E Q ↔ Q a s := Iff.rfl

@[simp] theorem ensures_throw {e : ε} : (throw e : Transform σ ε α).Ensures s E Q ↔ E e s := Iff.rfl

@[simp] theorem ensures_get {Q : σ → σ → Prop} :
    (get : Transform σ ε σ).Ensures s E Q ↔ Q s s := Iff.rfl

@[simp] theorem ensures_set {s' : σ} {Q : PUnit → σ → Prop} :
    (set s' : Transform σ ε PUnit).Ensures s E Q ↔ Q .unit s' := Iff.rfl

@[simp] theorem ensures_bind {m : Transform σ ε α} {f : α → Transform σ ε β}
    {Q : β → σ → Prop} :
    (m >>= f).Ensures s E Q ↔ m.Ensures s E fun a s' => (f a).Ensures s' E Q := by
  unfold Ensures
  rw [exec_bind]
  rcases m.exec s with ⟨r, s'⟩
  cases r <;> rfl

@[simp] theorem ensures_map {m : Transform σ ε α} {f : α → β} {Q : β → σ → Prop} :
    (f <$> m).Ensures s E Q ↔ m.Ensures s E fun a s' => Q (f a) s' := by
  rw [← bind_pure_comp, ensures_bind]
  rfl

@[simp] theorem ensures_ite {c : Prop} [Decidable c] {m m' : Transform σ ε α} :
    (if c then m else m').Ensures s E Q ↔
      (c → m.Ensures s E Q) ∧ (¬ c → m'.Ensures s E Q) := by
  by_cases h : c
  · simp [h]
  · simp [h]

theorem Ensures.mono {m : Transform σ ε α} (h : m.Ensures s E Q) (hQ : ∀ a s', Q a s' → Q' a s') :
    m.Ensures s E Q' := by
  unfold Ensures at h ⊢
  rcases hrun : m.exec s with ⟨r, s'⟩
  rw [hrun] at h
  cases r with
  | error e => exact h
  | ok a => exact hQ a s' h

theorem Ensures.of_exec {m : Transform σ ε α} {a : α} {s' : σ} (h : m.Ensures s E Q)
    (hrun : m.exec s = (.ok a, s')) : Q a s' := by
  unfold Ensures at h
  rw [hrun] at h
  exact h

theorem ensures_iff {m : Transform σ ε α} : m.Ensures s E Q ↔
    (∃ e s', m.exec s = (.error e, s') ∧ E e s') ∨ ∃ a s', m.exec s = (.ok a, s') ∧ Q a s' := by
  unfold Ensures
  rcases m.exec s with ⟨r, s'⟩
  cases r with
  | error e => simp
  | ok a => simp

end Transform
end MiddleWhere
