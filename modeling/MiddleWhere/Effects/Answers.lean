import MiddleWhere.Effects.Prog

/-!
# Programs that depend on their answers

Most programs over an interface go on only while the answers are fine. `SucceedsIff P p F`
says it exactly: an execution of `p` ends with a value if and only if `F` holds, a condition
on what `p` was given, and every answer in its trace satisfies `P`.
-/

namespace MiddleWhere
namespace Prog

variable {S : Sig} {ε ε' α β σ : Type} {M : Sem S σ} {P : Event S → Prop} {F G : Prop}

def SucceedsIff (M : Sem S σ) (P : Event S → Prop) (p : Prog S ε α) (F : Prop) (s : σ) : Prop :=
  wp M p (fun t out _ => (∃ a, out = .ok a) ↔ F ∧ ∀ e ∈ t, P e) s

theorem SucceedsIff.congr {p : Prog S ε α} {s : σ} (h : SucceedsIff M P p F s) (hF : F ↔ G) :
    SucceedsIff M P p G s :=
  wp_mono h fun _ _ _ hiff => by rw [← hF]; exact hiff

theorem succeedsIff_ok (a : α) (s : σ) :
    SucceedsIff M P (.halt (.ok a) : Prog S ε α) True s :=
  wp_halt.mpr (by simp)

theorem succeedsIff_err (e : ε) (s : σ) :
    SucceedsIff M P (.halt (.err e) : Prog S ε α) False s :=
  wp_halt.mpr (by simp)

theorem succeedsIff_panic (s : σ) : SucceedsIff M P (.halt .panic : Prog S ε α) False s :=
  wp_halt.mpr (by simp)

theorem SucceedsIff.mapErr {f : ε → ε'} {p : Prog S ε α} {s : σ} (h : SucceedsIff M P p F s) :
    SucceedsIff M P (p.mapErr f) F s := by
  refine wp_mapErr.mpr (wp_mono h ?_)
  intro t out _ hiff
  rw [← hiff]
  cases out <;> simp [Outcome.mapErr]

/-- An answer that is not fine has to end the program without a value. -/
theorem SucceedsIff.call {o : S.Op} {k : S.Res o → Prog S ε α} {s : σ}
    (hfine : ∀ r s', M s o r s' → P ⟨o, r⟩ → SucceedsIff M P (k r) F s')
    (hfail : ∀ r s', M s o r s' → ¬ P ⟨o, r⟩ → SucceedsIff M P (k r) False s') :
    SucceedsIff M P (.call o k) F s := by
  refine wp_call.mpr ?_
  intro r s' hM
  by_cases hP : P ⟨o, r⟩
  · refine wp_mono (hfine r s' hM hP) ?_
    intro t out _ hiff
    rw [hiff, List.forall_mem_cons]
    exact and_congr_right fun _ => (and_iff_right hP).symm
  · refine wp_mono (hfail r s' hM hP) ?_
    intro t out _ hiff
    rw [hiff, List.forall_mem_cons]
    simp [hP]

theorem SucceedsIff.bind {p : Prog S ε α} {f : α → Prog S ε β} {s : σ}
    (hp : SucceedsIff M P p F s) (hf : ∀ a s', SucceedsIff M P (f a) G s') :
    SucceedsIff M P (p.bind f) (F ∧ G) s := by
  refine wp_bind.mpr ?_
  intro t out s' ht
  have hiff := hp t out s' ht
  cases out with
  | ok a =>
    obtain ⟨hF, ht⟩ := hiff.mp ⟨a, rfl⟩
    intro t' out' s'' ht'
    have hiff' : (∃ b, out' = .ok b) ↔ G ∧ ∀ e ∈ t', P e := hf a s' t' out' s'' ht'
    refine hiff'.trans ?_
    rw [List.forall_mem_append]
    exact ⟨fun h => ⟨⟨hF, h.1⟩, ht, h.2⟩, fun h => ⟨h.1.2, h.2.2⟩⟩
  | err e =>
    have hbad : ¬ (F ∧ ∀ e ∈ t, P e) := fun h => by simpa using hiff.mpr h
    exact ⟨fun h => by simp at h, fun h => absurd ⟨h.1.1, h.2⟩ hbad⟩
  | panic =>
    have hbad : ¬ (F ∧ ∀ e ∈ t, P e) := fun h => by simpa using hiff.mpr h
    exact ⟨fun h => by simp at h, fun h => absurd ⟨h.1.1, h.2⟩ hbad⟩

/-- One call whose answer is an early return unless it is fine. -/
theorem succeedsIff_answer {o : S.Op} {f : S.Res o → Except ε α} {s : σ}
    (hP : ∀ r, P ⟨o, r⟩ ↔ ∃ a, f r = .ok a) :
    SucceedsIff M P (.call o fun r => ofExcept (f r)) True s := by
  apply SucceedsIff.call
  · intro r s' _ hr
    obtain ⟨a, ha⟩ := (hP r).mp hr
    rw [ha]
    exact succeedsIff_ok a s'
  · intro r s' _ hr
    cases hf : f r with
    | ok a => exact absurd ((hP r).mpr ⟨a, hf⟩) hr
    | error e => exact succeedsIff_err e s'

end Prog
end MiddleWhere
