import Mathlib.Logic.Relation
import Mathlib.Data.List.Basic
import Mathlib.Order.Basic
import Mathlib.Tactic.Common

/-!
# Trees given by their immediate parts

A family of syntax trees, possibly of several sorts at once, is described by the list of
immediate parts of each node, and taking parts comes to an end. `Occurs` is the relation
"at any depth below". A recursive visitor is characterised by its one-level equation
only, and a walk that follows some parts and skips the others splits everything that
occurs into what it passes and what lies below a skipped part.
-/

namespace MiddleWhere

structure Forest (N : Type*) where
  parts : N → List N
  wf : WellFounded fun m n => m ∈ parts n

namespace Forest

variable {N : Type*} (F : Forest N)

def Occurs : N → N → Prop := Relation.ReflTransGen fun n m => m ∈ F.parts n

variable {F}

theorem Occurs.refl (n : N) : F.Occurs n n := Relation.ReflTransGen.refl

theorem Occurs.below {n m k : N} (hm : m ∈ F.parts n) (h : F.Occurs m k) : F.Occurs n k :=
  Relation.ReflTransGen.head hm h

theorem Occurs.trans {n m k : N} (h : F.Occurs n m) (h' : F.Occurs m k) : F.Occurs n k :=
  Relation.ReflTransGen.trans h h'

theorem occurs_iff {n k : N} : F.Occurs n k ↔ n = k ∨ ∃ m ∈ F.parts n, F.Occurs m k :=
  Relation.ReflTransGen.cases_head_iff

theorem parts_induction {P : N → Prop} (step : ∀ n, (∀ m ∈ F.parts n, P m) → P n) (n : N) :
    P n := by
  induction n using F.wf.induction with
  | _ n ih => exact step n ih

/-- A visitor that tests a node and then its parts finds exactly what occurs. -/
theorem visit_iff {p visit : N → Bool}
    (hvisit : ∀ n, visit n = (p n || (F.parts n).any visit)) (n : N) :
    visit n = true ↔ ∃ k, F.Occurs n k ∧ p k = true := by
  induction n using F.parts_induction with
  | step n ih =>
    rw [hvisit, Bool.or_eq_true, List.any_eq_true]
    constructor
    · rintro (h | ⟨m, hm, h⟩)
      · exact ⟨n, .refl n, h⟩
      · obtain ⟨k, hk, hp⟩ := (ih m hm).mp h
        exact ⟨k, .below hm hk, hp⟩
    · rintro ⟨k, hk, hp⟩
      obtain rfl | ⟨m, hm, hmk⟩ := occurs_iff.mp hk
      · exact Or.inl hp
      · exact Or.inr ⟨m, hm, (ih m hm).mpr ⟨k, hmk, hp⟩⟩

/-! ## Walks that skip some parts -/

structure Walk (F : Forest N) where
  follow : N → List N
  skip : N → List N
  covers : ∀ {n m : N}, m ∈ F.parts n ↔ m ∈ follow n ∨ m ∈ skip n

namespace Walk

variable (W : F.Walk)

def Passes : N → N → Prop := Relation.ReflTransGen fun n m => m ∈ W.follow n

/-- `k` lies in a part that the walk from `n` comes to and does not enter. -/
def Skips (n k : N) : Prop := ∃ m, W.Passes n m ∧ ∃ c ∈ W.skip m, F.Occurs c k

variable {W}

theorem Passes.refl (n : N) : W.Passes n n := Relation.ReflTransGen.refl

theorem passes_iff {n k : N} : W.Passes n k ↔ n = k ∨ ∃ m ∈ W.follow n, W.Passes m k :=
  Relation.ReflTransGen.cases_head_iff

theorem Passes.occurs {n k : N} (h : W.Passes n k) : F.Occurs n k :=
  Relation.ReflTransGen.mono (fun _ _ hm => W.covers.mpr (Or.inl hm)) _ _ h

theorem Skips.occurs {n k : N} (h : W.Skips n k) : F.Occurs n k := by
  obtain ⟨m, hm, c, hc, hk⟩ := h
  exact hm.occurs.trans (.below (W.covers.mpr (Or.inr hc)) hk)

theorem skips_iff {n k : N} :
    W.Skips n k ↔ (∃ c ∈ W.skip n, F.Occurs c k) ∨ ∃ m ∈ W.follow n, W.Skips m k := by
  constructor
  · rintro ⟨m, hm, hk⟩
    obtain rfl | ⟨m', hm', h⟩ := passes_iff.mp hm
    · exact Or.inl hk
    · exact Or.inr ⟨m', hm', m, h, hk⟩
  · rintro (hk | ⟨m', hm', m, hm, hk⟩)
    · exact ⟨n, .refl n, hk⟩
    · exact ⟨m, passes_iff.mpr (Or.inr ⟨m', hm', hm⟩), hk⟩

theorem occurs_iff_passes_or_skips {n k : N} : F.Occurs n k ↔ W.Passes n k ∨ W.Skips n k := by
  constructor
  · intro h
    induction n using F.parts_induction with
    | step n ih =>
      obtain rfl | ⟨m, hm, hk⟩ := occurs_iff.mp h
      · exact Or.inl (.refl n)
      · rcases W.covers.mp hm with hf | hs
        · rcases ih m hm hk with hp | hp
          · exact Or.inl (passes_iff.mpr (Or.inr ⟨m, hf, hp⟩))
          · exact Or.inr (skips_iff.mpr (Or.inr ⟨m, hf, hp⟩))
        · exact Or.inr (skips_iff.mpr (Or.inl ⟨m, hs, hk⟩))
  · rintro (h | h)
    · exact h.occurs
    · exact h.occurs

end Walk
end Forest
end MiddleWhere
