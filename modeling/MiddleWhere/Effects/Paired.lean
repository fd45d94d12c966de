import MiddleWhere.Effects.Prog

/-!
# Two runs side by side

A recorded run keeps, for each call, the entries that the semantics gives for it, so that an
operation that is itself a run of another program can put its own steps on the record. `Both`
speaks of two recorded runs whose records agree wherever both have an entry: the records then
have one length and related entries, and the two ends are related too. The rules follow the
constructors of programs and compose along `bind`.
-/

namespace MiddleWhere
namespace Prog

variable {S : Sig} {ε ε' α α₁ α₂ β β₁ β₂ σ L : Type}

/-- `M s o r l s'`: in state `s` the operation `o` may answer `r`, put `l` on the record and
leave `s'`. -/
abbrev RecSem (S : Sig) (σ L : Type) := σ → (o : S.Op) → S.Res o → List L → σ → Prop

inductive Recorded (M : RecSem S σ L) : Prog S ε α → σ → List L → Outcome ε α → σ → Prop
  | halt (out : Outcome ε α) (s : σ) : Recorded M (.halt out) s [] out s
  | call {o : S.Op} {k : S.Res o → Prog S ε α} {s s' s'' : σ} {r : S.Res o}
      {l rest : List L} {out : Outcome ε α} :
      M s o r l s' → Recorded M (k r) s' rest out s'' → Recorded M (.call o k) s (l ++ rest) out s''

/-- Every call goes on the record with its answer. -/
def Sem.recorded (M : Sem S σ) : RecSem S σ (Event S) :=
  fun s o r l s' => M s o r s' ∧ l = [⟨o, r⟩]

variable {M : RecSem S σ L}

theorem recorded_halt_iff {out out' : Outcome ε α} {s s' : σ} {l : List L} :
    Recorded M (.halt out) s l out' s' ↔ l = [] ∧ out' = out ∧ s' = s := by
  constructor
  · intro h
    cases h
    exact ⟨rfl, rfl, rfl⟩
  · intro h
    obtain ⟨hl, hout, hs⟩ := h
    rw [hl, hout, hs]
    exact .halt out s

theorem recorded_call_iff {o : S.Op} {k : S.Res o → Prog S ε α} {s s'' : σ} {l : List L}
    {out : Outcome ε α} : Recorded M (.call o k) s l out s'' ↔
      ∃ r now s' rest, M s o r now s' ∧ Recorded M (k r) s' rest out s'' ∧ l = now ++ rest := by
  constructor
  · intro h
    cases h with
    | call hM hk => exact ⟨_, _, _, _, hM, hk, rfl⟩
  · intro h
    obtain ⟨r, now, s', rest, hM, hk, hl⟩ := h
    rw [hl]
    exact .call hM hk

theorem recorded_iff_exec {M : Sem S σ} {p : Prog S ε α} {s s' : σ} {t : List (Event S)}
    {out : Outcome ε α} : Recorded M.recorded p s t out s' ↔ Exec M p s t out s' := by
  constructor
  · intro h
    induction h with
    | halt out s => exact .halt out s
    | call hM _ ih =>
      obtain ⟨hcall, hl⟩ := hM
      rw [hl]
      exact .call hcall ih
  · intro h
    induction h with
    | halt out s => exact .halt out s
    | call hM _ ih => exact .call ⟨hM, rfl⟩ ih

/-- A composition runs its first part to the end and goes on from how that ended. -/
theorem Recorded.of_bind {p : Prog S ε α} {f : α → Prog S ε β} {s s'' : σ} {l : List L}
    {out : Outcome ε β} (h : Recorded M (p.bind f) s l out s'') :
    ∃ first now s' rest, Recorded M p s now first s' ∧
      Recorded M ((Prog.halt first).bind f) s' rest out s'' ∧ l = now ++ rest := by
  induction p generalizing s l with
  | halt first => exact ⟨first, [], s, l, .halt first s, h, rfl⟩
  | call o k ih =>
    obtain ⟨r, now, s₁, later, hM, hk, hl⟩ := recorded_call_iff.mp h
    obtain ⟨first, now', s', rest, hp, hf, hlater⟩ := ih r hk
    refine ⟨first, now ++ now', s', rest, .call hM hp, hf, ?_⟩
    rw [hl, hlater, List.append_assoc]

theorem Recorded.of_attempt {p : Prog S ε α} {s s' : σ} {l : List L}
    {out : Outcome ε' (Except ε α)} (h : Recorded M p.attempt s l out s') :
    ∃ out₀, out = out₀.attempt ∧ Recorded M p s l out₀ s' := by
  induction p generalizing s l with
  | halt o =>
    obtain ⟨hl, hout, hs⟩ := recorded_halt_iff.mp h
    rw [hl, hs]
    exact ⟨o, hout, .halt o s⟩
  | call o k ih =>
    obtain ⟨r, now, s₁, rest, hM, hk, hl⟩ := recorded_call_iff.mp h
    obtain ⟨out₀, hout, hp⟩ := ih r hk
    rw [hl]
    exact ⟨out₀, hout, .call hM hp⟩

/-! ## Records that agree -/

/-- The entries that both records have at one place are related. -/
def Aligned (E : L → L → Prop) (l₁ l₂ : List L) : Prop :=
  ∀ (i : ℕ) (e₁ e₂ : L), l₁[i]? = some e₁ → l₂[i]? = some e₂ → E e₁ e₂

variable {E O : L → L → Prop}

theorem Aligned.left {l₁ l₂ rest₁ rest₂ : List L}
    (h : Aligned E (l₁ ++ rest₁) (l₂ ++ rest₂)) : Aligned E l₁ l₂ := by
  intro i e₁ e₂ h₁ h₂
  obtain ⟨hi₁, -⟩ := List.getElem?_eq_some_iff.mp h₁
  obtain ⟨hi₂, -⟩ := List.getElem?_eq_some_iff.mp h₂
  apply h i e₁ e₂
  · rw [List.getElem?_append_left hi₁, h₁]
  · rw [List.getElem?_append_left hi₂, h₂]

theorem Aligned.right {l₁ l₂ rest₁ rest₂ : List L} (hlen : l₁.length = l₂.length)
    (h : Aligned E (l₁ ++ rest₁) (l₂ ++ rest₂)) : Aligned E rest₁ rest₂ := by
  intro i e₁ e₂ h₁ h₂
  apply h (l₁.length + i) e₁ e₂
  · rw [List.getElem?_append_right (Nat.le_add_right _ _), Nat.add_sub_cancel_left, h₁]
  · rw [hlen, List.getElem?_append_right (Nat.le_add_right _ _), Nat.add_sub_cancel_left, h₂]

theorem aligned_singleton {e₁ e₂ : L} (h : Aligned E [e₁] [e₂]) : E e₁ e₂ := h 0 e₁ e₂ rfl rfl

theorem aligned_map {L' : Type} {f : L' → L} {l₁ l₂ : List L'}
    (h : Aligned E (l₁.map f) (l₂.map f)) : Aligned (fun e₁ e₂ => E (f e₁) (f e₂)) l₁ l₂ := by
  intro i e₁ e₂ h₁ h₂
  apply h i
  · rw [List.getElem?_map, h₁, Option.map_some]
  · rw [List.getElem?_map, h₂, Option.map_some]

/-! ## Ends that are alike -/

/-- Two values in `R`, or one error. -/
def Alike (R : α₁ → α₂ → Prop) : Except ε α₁ → Except ε α₂ → Prop
  | .ok a₁, .ok a₂ => R a₁ a₂
  | .error e₁, .error e₂ => e₁ = e₂
  | _, _ => False

abbrev SameOutcome (r₁ : Except ε α₁) (r₂ : Except ε α₂) : Prop := Alike (fun _ _ => True) r₁ r₂

def EndsAlike (R : α₁ → α₂ → Prop) : Outcome ε α₁ → Outcome ε α₂ → Prop
  | .ok a₁, .ok a₂ => R a₁ a₂
  | .err e₁, .err e₂ => e₁ = e₂
  | .panic, .panic => True
  | _, _ => False

section
variable {R R' : α₁ → α₂ → Prop}

theorem Alike.mono {r₁ : Except ε α₁} {r₂ : Except ε α₂} (h : Alike R r₁ r₂)
    (hR : ∀ a₁ a₂, R a₁ a₂ → R' a₁ a₂) : Alike R' r₁ r₂ := by
  cases r₁ with
  | ok a₁ =>
    cases r₂ with
    | ok a₂ => exact hR a₁ a₂ h
    | error e => exact h
  | error e => cases r₂ <;> exact h

theorem Alike.mapError {f : ε → ε'} {r₁ : Except ε α₁} {r₂ : Except ε α₂} (h : Alike R r₁ r₂) :
    Alike R (r₁.mapError f) (r₂.mapError f) := by
  cases r₁ with
  | ok a₁ => cases r₂ <;> exact h
  | error e₁ =>
    cases r₂ with
    | ok a₂ => exact h
    | error e₂ => exact congrArg f h

theorem EndsAlike.mono {out₁ : Outcome ε α₁} {out₂ : Outcome ε α₂} (h : EndsAlike R out₁ out₂)
    (hR : ∀ a₁ a₂, R a₁ a₂ → R' a₁ a₂) : EndsAlike R' out₁ out₂ := by
  cases out₁ with
  | ok a₁ =>
    cases out₂ with
    | ok a₂ => exact hR a₁ a₂ h
    | err e => exact h
    | panic => exact h
  | err e => cases out₂ <;> exact h
  | panic => cases out₂ <;> exact h

theorem EndsAlike.attempt {out₁ : Outcome ε α₁} {out₂ : Outcome ε α₂}
    (h : EndsAlike R out₁ out₂) :
    EndsAlike (Alike R) (out₁.attempt : Outcome ε' _) (out₂.attempt : Outcome ε' _) := by
  cases out₁ <;> cases out₂ <;> exact h

/-- Values that have to be equal leave two equal ends. -/
theorem EndsAlike.eq {out₁ out₂ : Outcome ε α} (h : EndsAlike (fun a₁ a₂ => a₁ = a₂) out₁ out₂) :
    out₁ = out₂ := by
  cases out₁ with
  | ok a₁ =>
    cases out₂ with
    | ok a₂ => exact congrArg Outcome.ok h
    | err e => exact h.elim
    | panic => exact h.elim
  | err e₁ =>
    cases out₂ with
    | ok a₂ => exact h.elim
    | err e₂ => exact congrArg Outcome.err h
    | panic => exact h.elim
  | panic =>
    cases out₂ with
    | ok a₂ => exact h.elim
    | err e₂ => exact h.elim
    | panic => rfl

end

/-! ## Rules for two runs -/

/-- Any two runs from `s₁` and `s₂` whose records agree under `E` have records related by `O`,
entry for entry, and end alike. -/
def Both (M : RecSem S σ L) (E O : L → L → Prop) (p₁ : Prog S ε α₁) (p₂ : Prog S ε α₂)
    (Q : α₁ → α₂ → σ → σ → Prop) (s₁ s₂ : σ) : Prop :=
  ∀ l₁ out₁ s₁' l₂ out₂ s₂', Recorded M p₁ s₁ l₁ out₁ s₁' → Recorded M p₂ s₂ l₂ out₂ s₂' →
    Aligned E l₁ l₂ →
      List.Forall₂ O l₁ l₂ ∧ EndsAlike (fun a₁ a₂ => Q a₁ a₂ s₁' s₂') out₁ out₂

variable {s₁ s₂ : σ}

theorem both_halt {out₁ : Outcome ε α₁} {out₂ : Outcome ε α₂} {Q : α₁ → α₂ → σ → σ → Prop}
    (h : EndsAlike (fun a₁ a₂ => Q a₁ a₂ s₁ s₂) out₁ out₂) :
    Both M E O (.halt out₁) (.halt out₂) Q s₁ s₂ := by
  intro l₁ out₁' s₁' l₂ out₂' s₂' h₁ h₂ _
  obtain ⟨hl₁, hout₁, hs₁⟩ := recorded_halt_iff.mp h₁
  obtain ⟨hl₂, hout₂, hs₂⟩ := recorded_halt_iff.mp h₂
  rw [hl₁, hl₂, hout₁, hout₂, hs₁, hs₂]
  exact ⟨.nil, h⟩

theorem both_ok {a₁ : α₁} {a₂ : α₂} {Q : α₁ → α₂ → σ → σ → Prop} (h : Q a₁ a₂ s₁ s₂) :
    Both M E O (.halt (.ok a₁) : Prog S ε α₁) (.halt (.ok a₂)) Q s₁ s₂ :=
  both_halt h

theorem both_err {e : ε} {Q : α₁ → α₂ → σ → σ → Prop} :
    Both M E O (.halt (.err e) : Prog S ε α₁) (.halt (.err e)) Q s₁ s₂ :=
  both_halt rfl

theorem both_ofExcept {r₁ : Except ε α₁} {r₂ : Except ε α₂} {Q : α₁ → α₂ → σ → σ → Prop}
    (h : Alike (fun a₁ a₂ => Q a₁ a₂ s₁ s₂) r₁ r₂) :
    Both M E O (ofExcept r₁ : Prog S ε α₁) (ofExcept r₂) Q s₁ s₂ := by
  cases r₁ <;> cases r₂ <;> exact both_halt h

theorem both_call {o₁ o₂ : S.Op} {k₁ : S.Res o₁ → Prog S ε α₁} {k₂ : S.Res o₂ → Prog S ε α₂}
    {Q : α₁ → α₂ → σ → σ → Prop}
    (h : ∀ r₁ l₁ s₁' r₂ l₂ s₂', M s₁ o₁ r₁ l₁ s₁' → M s₂ o₂ r₂ l₂ s₂' → Aligned E l₁ l₂ →
      List.Forall₂ O l₁ l₂ ∧ Both M E O (k₁ r₁) (k₂ r₂) Q s₁' s₂') :
    Both M E O (.call o₁ k₁) (.call o₂ k₂) Q s₁ s₂ := by
  intro l₁ out₁ s₁'' l₂ out₂ s₂'' h₁ h₂ hE
  obtain ⟨r₁, now₁, s₁', rest₁, hM₁, hk₁, rfl⟩ := recorded_call_iff.mp h₁
  obtain ⟨r₂, now₂, s₂', rest₂, hM₂, hk₂, rfl⟩ := recorded_call_iff.mp h₂
  obtain ⟨hnow, hboth⟩ := h r₁ now₁ s₁' r₂ now₂ s₂' hM₁ hM₂ hE.left
  obtain ⟨hrest, hQ⟩ := hboth _ _ _ _ _ _ hk₁ hk₂ (hE.right hnow.length_eq)
  exact ⟨List.rel_append hnow hrest, hQ⟩

/-- Where every call goes on the record with its answer, one call at a time is compared. -/
theorem both_recorded_call {M : Sem S σ} {E O : Event S → Event S → Prop} {o₁ o₂ : S.Op}
    {k₁ : S.Res o₁ → Prog S ε α₁} {k₂ : S.Res o₂ → Prog S ε α₂} {Q : α₁ → α₂ → σ → σ → Prop}
    (h : ∀ r₁ s₁' r₂ s₂', M s₁ o₁ r₁ s₁' → M s₂ o₂ r₂ s₂' → E ⟨o₁, r₁⟩ ⟨o₂, r₂⟩ →
      O ⟨o₁, r₁⟩ ⟨o₂, r₂⟩ ∧ Both M.recorded E O (k₁ r₁) (k₂ r₂) Q s₁' s₂') :
    Both M.recorded E O (.call o₁ k₁) (.call o₂ k₂) Q s₁ s₂ := by
  apply both_call
  intro r₁ l₁ s₁' r₂ l₂ s₂' hM₁ hM₂ hE
  obtain ⟨hcall₁, rfl⟩ := hM₁
  obtain ⟨hcall₂, rfl⟩ := hM₂
  obtain ⟨hO, hboth⟩ := h r₁ s₁' r₂ s₂' hcall₁ hcall₂ (aligned_singleton hE)
  exact ⟨.cons hO .nil, hboth⟩

theorem both_bind {p₁ : Prog S ε α₁} {p₂ : Prog S ε α₂} {f₁ : α₁ → Prog S ε β₁}
    {f₂ : α₂ → Prog S ε β₂} {R : α₁ → α₂ → σ → σ → Prop} {Q : β₁ → β₂ → σ → σ → Prop}
    (h : Both M E O p₁ p₂ R s₁ s₂)
    (hf : ∀ a₁ a₂ s₁' s₂', R a₁ a₂ s₁' s₂' → Both M E O (f₁ a₁) (f₂ a₂) Q s₁' s₂') :
    Both M E O (p₁.bind f₁) (p₂.bind f₂) Q s₁ s₂ := by
  intro l₁ out₁ s₁'' l₂ out₂ s₂'' h₁ h₂ hE
  obtain ⟨first₁, now₁, s₁', rest₁, hp₁, hf₁, rfl⟩ := h₁.of_bind
  obtain ⟨first₂, now₂, s₂', rest₂, hp₂, hf₂, rfl⟩ := h₂.of_bind
  obtain ⟨hnow, hends⟩ := h _ _ _ _ _ _ hp₁ hp₂ hE.left
  have hboth : Both M E O ((Prog.halt first₁).bind f₁) ((Prog.halt first₂).bind f₂) Q s₁' s₂' := by
    cases first₁ with
    | ok a₁ =>
      cases first₂ with
      | ok a₂ => exact hf a₁ a₂ s₁' s₂' hends
      | err e => exact hends.elim
      | panic => exact hends.elim
    | err e => cases first₂ <;> first | exact both_halt hends | exact hends.elim
    | panic => cases first₂ <;> first | exact both_halt hends | exact hends.elim
  obtain ⟨hrest, hQ⟩ := hboth _ _ _ _ _ _ hf₁ hf₂ (hE.right hnow.length_eq)
  exact ⟨List.rel_append hnow hrest, hQ⟩

theorem Both.mono {p₁ : Prog S ε α₁} {p₂ : Prog S ε α₂} {Q Q' : α₁ → α₂ → σ → σ → Prop}
    (h : Both M E O p₁ p₂ Q s₁ s₂) (hQ : ∀ a₁ a₂ s₁' s₂', Q a₁ a₂ s₁' s₂' → Q' a₁ a₂ s₁' s₂') :
    Both M E O p₁ p₂ Q' s₁ s₂ := by
  intro l₁ out₁ s₁' l₂ out₂ s₂' h₁ h₂ hE
  obtain ⟨hO, hends⟩ := h _ _ _ _ _ _ h₁ h₂ hE
  exact ⟨hO, hends.mono fun a₁ a₂ => hQ a₁ a₂ s₁' s₂'⟩

theorem Both.attempt {p₁ : Prog S ε α₁} {p₂ : Prog S ε α₂} {Q : α₁ → α₂ → σ → σ → Prop}
    (h : Both M E O p₁ p₂ Q s₁ s₂) :
    Both M E O (p₁.attempt : Prog S ε' (Except ε α₁)) p₂.attempt
      (fun r₁ r₂ s₁' s₂' => Alike (fun a₁ a₂ => Q a₁ a₂ s₁' s₂') r₁ r₂) s₁ s₂ := by
  intro l₁ out₁ s₁' l₂ out₂ s₂' h₁ h₂ hE
  obtain ⟨out₁', rfl, hp₁⟩ := h₁.of_attempt
  obtain ⟨out₂', rfl, hp₂⟩ := h₂.of_attempt
  obtain ⟨hO, hends⟩ := h _ _ _ _ _ _ hp₁ hp₂ hE
  exact ⟨hO, hends.attempt⟩

end Prog
end MiddleWhere
