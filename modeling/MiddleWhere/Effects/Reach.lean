import MiddleWhere.Effects.Prog

/-!
# Where a program can be

The states in which a program can return a value, and those in which it can be cut off, without
its trace. Both compose along `bind`.
-/

namespace MiddleWhere
namespace Prog

variable {S : Sig} {ε ε' α β σ : Type} {M : Sem S σ} {A : S.Op → Prop}

def Ends (M : Sem S σ) (p : Prog S ε α) (s : σ) (a : α) (s' : σ) : Prop :=
  ∃ t, Exec M p s t (.ok a) s'

def Reaches (M : Sem S σ) (p : Prog S ε α) (s s' : σ) : Prop := ∃ t, Stops M p s t s'

theorem Ends.reaches {p : Prog S ε α} {s s' : σ} {a : α} (h : Ends M p s a s') :
    Reaches M p s s' := by
  obtain ⟨t, ht⟩ := h
  exact ⟨t, ht.stops⟩

theorem reaches_here (p : Prog S ε α) (s : σ) : Reaches M p s s := ⟨[], .here p s⟩

@[simp] theorem ends_halt_ok {a b : α} {s s' : σ} :
    Ends M (.halt (.ok a) : Prog S ε α) s b s' ↔ b = a ∧ s' = s := by
  simp [Ends, exec_halt_iff]

@[simp] theorem ends_halt_err {e : ε} {b : α} {s s' : σ} :
    ¬ Ends M (.halt (.err e) : Prog S ε α) s b s' := by
  simp [Ends, exec_halt_iff]

@[simp] theorem reaches_halt {out : Outcome ε α} {s s' : σ} :
    Reaches M (.halt out) s s' ↔ s' = s := by
  simp [Reaches, stops_halt_iff]

theorem ends_call {o : S.Op} {k : S.Res o → Prog S ε α} {s s'' : σ} {a : α} :
    Ends M (.call o k) s a s'' ↔ ∃ r s', M s o r s' ∧ Ends M (k r) s' a s'' := by
  constructor
  · rintro ⟨t, ht⟩
    obtain ⟨r, s', t', hM, hk, -⟩ := exec_call_iff.mp ht
    exact ⟨r, s', hM, t', hk⟩
  · rintro ⟨r, s', hM, t, hk⟩
    exact ⟨_, .call hM hk⟩

theorem reaches_call {o : S.Op} {k : S.Res o → Prog S ε α} {s s'' : σ} :
    Reaches M (.call o k) s s'' ↔ s'' = s ∨ ∃ r s', M s o r s' ∧ Reaches M (k r) s' s'' := by
  constructor
  · rintro ⟨t, ht⟩
    obtain ⟨-, rfl⟩ | ⟨r, s', t', hM, hk, -⟩ := stops_call_iff.mp ht
    · exact Or.inl rfl
    · exact Or.inr ⟨r, s', hM, t', hk⟩
  · rintro (rfl | ⟨r, s', hM, t, hk⟩)
    · exact reaches_here _ _
    · exact ⟨_, .call hM hk⟩

theorem ends_bind {p : Prog S ε α} {f : α → Prog S ε β} {s s'' : σ} {b : β} :
    Ends M (p.bind f) s b s'' ↔ ∃ a s', Ends M p s a s' ∧ Ends M (f a) s' b s'' := by
  constructor
  · rintro ⟨t, ht⟩
    obtain ⟨a, t₁, t₂, s', hp, hf, -⟩ | ⟨e, he, -⟩ | ⟨he, -⟩ := exec_bind_iff.mp ht
    · exact ⟨a, s', ⟨t₁, hp⟩, t₂, hf⟩
    · cases he
    · cases he
  · rintro ⟨a, s', ⟨t₁, hp⟩, t₂, hf⟩
    exact ⟨_, hp.bind hf⟩

theorem reaches_bind {p : Prog S ε α} {f : α → Prog S ε β} {s s'' : σ} :
    Reaches M (p.bind f) s s'' ↔
      Reaches M p s s'' ∨ ∃ a s', Ends M p s a s' ∧ Reaches M (f a) s' s'' := by
  constructor
  · rintro ⟨t, ht⟩
    obtain hp | ⟨a, t₁, t₂, s', hp, hf, -⟩ := stops_bind_iff.mp ht
    · exact Or.inl ⟨t, hp⟩
    · exact Or.inr ⟨a, s', ⟨t₁, hp⟩, t₂, hf⟩
  · rintro (⟨t, hp⟩ | ⟨a, s', ⟨t₁, hp⟩, t₂, hf⟩)
    · exact ⟨t, stops_bind_iff.mpr (Or.inl hp)⟩
    · exact ⟨_, stops_bind_iff.mpr (Or.inr ⟨a, t₁, t₂, s', hp, hf, rfl⟩)⟩

theorem ends_perform {o : S.Op} {r : S.Res o} {s s' : σ} :
    Ends M (perform o : Prog S ε (S.Res o)) s r s' ↔ M s o r s' := by
  simp only [perform, ends_call, ends_halt_ok]
  constructor
  · rintro ⟨r', s₁, hM, rfl, rfl⟩
    exact hM
  · intro hM
    exact ⟨r, s', hM, rfl, rfl⟩

theorem reaches_perform {o : S.Op} {s s' : σ} :
    Reaches M (perform o : Prog S ε (S.Res o)) s s' ↔ s' = s ∨ ∃ r, M s o r s' := by
  simp only [perform, reaches_call, reaches_halt]
  constructor
  · rintro (rfl | ⟨r, s₁, hM, rfl⟩)
    · exact Or.inl rfl
    · exact Or.inr ⟨r, hM⟩
  · rintro (rfl | ⟨r, hM⟩)
    · exact Or.inl rfl
    · exact Or.inr ⟨r, s', hM, rfl⟩

@[simp] theorem ends_ofExcept {x : Except ε α} {a : α} {s s' : σ} :
    Ends M (ofExcept x) s a s' ↔ x = .ok a ∧ s' = s := by
  cases x with
  | ok b => simp [eq_comm]
  | error e => simp

@[simp] theorem reaches_ofExcept {x : Except ε α} {s s' : σ} :
    Reaches M (ofExcept x) s s' ↔ s' = s := by
  cases x with
  | ok b => simp
  | error e => simp

@[simp] theorem ends_mapErr {f : ε → ε'} {p : Prog S ε α} {s s' : σ} {a : α} :
    Ends M (p.mapErr f) s a s' ↔ Ends M p s a s' := by
  induction p generalizing s with
  | halt out => cases out <;> simp [Ends, Prog.mapErr, Outcome.mapErr, exec_halt_iff]
  | call o k ih => simp only [Prog.mapErr, ends_call, ih]

@[simp] theorem reaches_mapErr {f : ε → ε'} {p : Prog S ε α} {s s' : σ} :
    Reaches M (p.mapErr f) s s' ↔ Reaches M p s s' := by
  induction p generalizing s with
  | halt out => simp only [Prog.mapErr, reaches_halt]
  | call o k ih => simp only [Prog.mapErr, reaches_call, ih]

/-- What every call keeps holds wherever the program is cut off. -/
theorem Reaches.keeps {I : σ → Prop} {p : Prog S ε α} {s s' : σ} (h : Reaches M p s s')
    (hp : p.Uses A) (hstep : ∀ s o r s', A o → M s o r s' → I s → I s') (hs : I s) : I s' := by
  induction p generalizing s with
  | halt out => exact reaches_halt.mp h ▸ hs
  | call o k ih =>
    obtain rfl | ⟨r, s₁, hM, hk⟩ := reaches_call.mp h
    · exact hs
    · exact ih r hk (hp.2 r) (hstep _ _ _ _ hp.1 hM hs)

/-- A program whose calls leave the state alone is where it started. -/
theorem Reaches.eq_of_uses {p : Prog S ε α} {s s' : σ} (h : Reaches M p s s') (hp : p.Uses A)
    (hquiet : ∀ s o r s', A o → M s o r s' → s' = s) : s' = s :=
  h.keeps (I := (· = s)) hp (fun _ _ _ _ ho hM hs => (hquiet _ _ _ _ ho hM).trans hs) rfl

theorem always_iff_reaches {p : Prog S ε α} {Q : σ → Prop} {s : σ} :
    always M p (fun _ => Q) s ↔ ∀ s', Reaches M p s s' → Q s' := by
  constructor
  · rintro h s' ⟨t, ht⟩
    exact h t s' ht
  · intro h t s' ht
    exact h s' ⟨t, ht⟩

end Prog
end MiddleWhere
