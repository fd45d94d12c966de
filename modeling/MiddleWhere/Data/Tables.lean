import Mathlib

/-!
# Tables with a distinguishing field

A table maps keys to records. `Distinct f t` says that no two records of `t` have the same
value of `f`. The operations that a store of records makes on its tables keep it, each
under its own condition: an insertion of a fresh value, a removal, an update that leaves
the field alone, and a union of two tables that share neither keys nor values.
-/

namespace MiddleWhere.Tables

open Std (ExtTreeMap TransCmp LawfulEqCmp)

variable {κ α β : Type} {cmp : κ → κ → Ordering} [TransCmp cmp]

def Distinct (f : α → β) (t : ExtTreeMap κ α cmp) : Prop :=
  ∀ (k k' : κ) (v v' : α), t[k]? = some v → t[k']? = some v' → f v = f v' → k = k'

variable {f : α → β} {t s : ExtTreeMap κ α cmp} {k : κ} {v : α}

/-- No name of either is a name of the other, and a lookup finds what one of them has. -/
structure DisjointUnion (t s u : ExtTreeMap κ α cmp) : Prop where
  disjoint : ∀ k ∈ s, k ∉ t
  lookup : ∀ (k : κ) (v : α), u[k]? = some v ↔ t[k]? = some v ∨ s[k]? = some v

theorem disjointUnion_union (hdisj : ∀ k ∈ s, k ∉ t) : DisjointUnion t s (t ∪ s) where
  disjoint := hdisj
  lookup k v := by
    rw [ExtTreeMap.getElem?_union, Option.or_eq_some_iff]
    constructor
    · rintro (h | ⟨-, h⟩)
      · exact Or.inr h
      · exact Or.inl h
    · rintro (h | h)
      · have hmem : k ∈ t := ExtTreeMap.mem_iff_isSome_getElem?.mpr (by simp [h])
        have hnot : k ∉ s := fun hk => hdisj k hk hmem
        exact Or.inr ⟨ExtTreeMap.getElem?_eq_none hnot, h⟩
      · exact Or.inl h

theorem DisjointUnion.mem_iff {u : ExtTreeMap κ α cmp} (h : DisjointUnion t s u) {k : κ} :
    k ∈ u ↔ k ∈ t ∨ k ∈ s := by
  simp only [ExtTreeMap.mem_iff_isSome_getElem?, Option.isSome_iff_exists, h.lookup, exists_or]

theorem mem_of_getElem? (h : t[k]? = some v) : k ∈ t :=
  ExtTreeMap.mem_iff_isSome_getElem?.mpr (by simp [h])

theorem exists_of_mem (h : k ∈ t) : ∃ v, t[k]? = some v :=
  Option.isSome_iff_exists.mp (ExtTreeMap.mem_iff_isSome_getElem?.mp h)

theorem distinct_empty : Distinct f (∅ : ExtTreeMap κ α cmp) := by
  intro k k' v v' h
  simp at h

theorem Distinct.union {u : ExtTreeMap κ α cmp} (hu : DisjointUnion t s u) (ht : Distinct f t)
    (hs : Distinct f s)
    (hfield : ∀ (k k' : κ) (v v' : α), t[k]? = some v → s[k']? = some v' → f v ≠ f v') :
    Distinct f u := by
  intro k₁ k₂ v₁ v₂ h₁ h₂ heq
  rw [hu.lookup] at h₁ h₂
  rcases h₁ with h₁ | h₁
  · rcases h₂ with h₂ | h₂
    · exact ht k₁ k₂ v₁ v₂ h₁ h₂ heq
    · exact absurd heq (hfield k₁ k₂ v₁ v₂ h₁ h₂)
  · rcases h₂ with h₂ | h₂
    · exact absurd heq.symm (hfield k₂ k₁ v₂ v₁ h₂ h₁)
    · exact hs k₁ k₂ v₁ v₂ h₁ h₂ heq

variable [LawfulEqCmp cmp]

theorem getElem?_insert_eq_some {k' : κ} {v' : α} :
    (t.insert k v)[k']? = some v' ↔ (k = k' ∧ v = v') ∨ (k ≠ k' ∧ t[k']? = some v') := by
  rw [ExtTreeMap.getElem?_insert]
  by_cases h : k = k'
  · simp [h]
  · simp [h]

theorem getElem?_erase_eq_some {k' : κ} {v' : α} :
    (t.erase k)[k']? = some v' ↔ k ≠ k' ∧ t[k']? = some v' := by
  rw [ExtTreeMap.getElem?_erase]
  by_cases h : k = k'
  · simp [h]
  · simp [h]

theorem erase_of_not_mem (h : k ∉ t) : t.erase k = t := by
  apply ExtTreeMap.ext_getElem?
  intro k'
  rw [ExtTreeMap.getElem?_erase]
  by_cases heq : k = k'
  · simp [← heq, ExtTreeMap.getElem?_eq_none h]
  · simp [heq]

theorem Distinct.insert (h : Distinct f t) (hfresh : ∀ k' v', t[k']? = some v' → k' ≠ k → f v' ≠ f v) :
    Distinct f (t.insert k v) := by
  intro k₁ k₂ v₁ v₂ h₁ h₂ heq
  rw [getElem?_insert_eq_some] at h₁ h₂
  rcases h₁ with ⟨rfl, rfl⟩ | ⟨hne₁, h₁⟩
  · rcases h₂ with ⟨rfl, -⟩ | ⟨hne₂, h₂⟩
    · rfl
    · exact absurd heq.symm (hfresh k₂ v₂ h₂ hne₂.symm)
  · rcases h₂ with ⟨rfl, rfl⟩ | ⟨hne₂, h₂⟩
    · exact absurd heq (hfresh k₁ v₁ h₁ hne₁.symm)
    · exact h k₁ k₂ v₁ v₂ h₁ h₂ heq

/-- Replacing a record by one with the same value of the field. -/
theorem Distinct.update {v₀ : α} (h : Distinct f t) (hk : t[k]? = some v₀) (hf : f v = f v₀) :
    Distinct f (t.insert k v) := by
  apply h.insert
  intro k' v' hk' hne heq
  exact hne (h k' k v' v₀ hk' hk (heq.trans hf))

theorem Distinct.erase (h : Distinct f t) : Distinct f (t.erase k) := by
  intro k₁ k₂ v₁ v₂ h₁ h₂ heq
  rw [getElem?_erase_eq_some] at h₁ h₂
  exact h k₁ k₂ v₁ v₂ h₁.2 h₂.2 heq

end MiddleWhere.Tables
