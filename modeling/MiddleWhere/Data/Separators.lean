import Mathlib

/-!
# Cutting a text at a separator

`cut c` cuts at the first `c` and `rcut c` at the last one. What is cut off before the first
separator, or after the last, has none.
-/

namespace MiddleWhere.Separators

variable {α : Type} [DecidableEq α]

/-- The text before the first `c`, and what is after it if there is one. -/
def cut (c : α) (text : List α) : List α × Option (List α) :=
  match text.dropWhile (· != c) with
  | [] => (text.takeWhile (· != c), none)
  | _ :: rest => (text.takeWhile (· != c), some rest)

/-- The texts before and after the last `c`, if there is one. -/
def rcut (c : α) (text : List α) : Option (List α × List α) :=
  match cut c text.reverse with
  | (_, none) => none
  | (after, some before) => some (before.reverse, after.reverse)

variable {c : α} {text front rest : List α}

theorem bne_of_not_mem (h : c ∉ text) : ∀ a ∈ text, (a != c) = true := by
  intro a ha
  rw [bne_iff_ne]
  rintro rfl
  exact h ha

theorem cut_append (h : c ∉ front) (rest : List α) : cut c (front ++ c :: rest) = (front, some rest) := by
  have hne := bne_of_not_mem h
  rw [cut, List.dropWhile_append_of_pos hne, List.takeWhile_append_of_pos hne,
    List.dropWhile_cons_of_neg (by simp), List.takeWhile_cons_of_neg (by simp), List.append_nil]

theorem cut_whole (h : c ∉ text) : cut c text = (text, none) := by
  have hne := bne_of_not_mem h
  rw [cut, List.dropWhile_eq_nil_iff.mpr hne, List.takeWhile_eq_self_iff.mpr hne]

theorem exists_cut (h : c ∈ text) : ∃ front rest, text = front ++ c :: rest ∧ c ∉ front := by
  obtain ⟨front, rest, htext, hfront⟩ := List.eq_append_cons_of_mem h
  exact ⟨front, rest, htext, hfront⟩

theorem cut_eq_some {text' : List α} (h : cut c text = (front, some text')) :
    text = front ++ c :: text' ∧ c ∉ front := by
  by_cases hc : c ∈ text
  · obtain ⟨front', rest', rfl, hfront⟩ := exists_cut hc
    rw [cut_append hfront] at h
    cases h
    exact ⟨rfl, hfront⟩
  · rw [cut_whole hc] at h
    cases h

/-- Texts that agree agree before and after the first separator. -/
theorem append_inj {front' rest' : List α} (hfront : c ∉ front) (hfront' : c ∉ front')
    (h : front ++ c :: rest = front' ++ c :: rest') : front = front' ∧ rest = rest' := by
  have hcut := congrArg (cut c) h
  rw [cut_append hfront, cut_append hfront'] at hcut
  cases hcut
  exact ⟨rfl, rfl⟩

theorem cut_fst_not_mem (c : α) (text : List α) : c ∉ (cut c text).1 := by
  by_cases h : c ∈ text
  · obtain ⟨front, rest, rfl, hfront⟩ := exists_cut h
    rw [cut_append hfront]
    exact hfront
  · rw [cut_whole h]
    exact h

theorem cut_fst_subset (c : α) (text : List α) : (cut c text).1 ⊆ text := by
  by_cases h : c ∈ text
  · obtain ⟨front, rest, rfl, hfront⟩ := exists_cut h
    rw [cut_append hfront]
    exact List.subset_append_left _ _
  · rw [cut_whole h]
    exact List.Subset.refl _

theorem rcut_append (front : List α) (h : c ∉ rest) : rcut c (front ++ c :: rest) = some (front, rest) := by
  have hrev : (front ++ c :: rest).reverse = rest.reverse ++ c :: front.reverse := by simp
  rw [rcut, hrev, cut_append (by simpa using h)]
  simp

theorem rcut_whole (h : c ∉ text) : rcut c text = none := by
  rw [rcut, cut_whole (by simpa using h)]

theorem exists_rcut (h : c ∈ text) : ∃ front rest, text = front ++ c :: rest ∧ c ∉ rest := by
  obtain ⟨rest, front, htext, hrest⟩ := exists_cut (List.mem_reverse.mpr h)
  refine ⟨front.reverse, rest.reverse, ?_, by simpa using hrest⟩
  have hrev := congrArg List.reverse htext
  simpa using hrev

/-- `rsplit_once(c).map_or(text, |(_, after)| after)` -/
def afterLast (c : α) (text : List α) : List α := ((rcut c text).map Prod.snd).getD text

/-- `rsplit_once(c).map_or(text, |(before, _)| before)` -/
def beforeLast (c : α) (text : List α) : List α := ((rcut c text).map Prod.fst).getD text

theorem afterLast_append (front : List α) (h : c ∉ rest) : afterLast c (front ++ c :: rest) = rest := by
  rw [afterLast, rcut_append front h]
  rfl

theorem beforeLast_append (front : List α) (h : c ∉ rest) :
    beforeLast c (front ++ c :: rest) = front := by
  rw [beforeLast, rcut_append front h]
  rfl

theorem afterLast_not_mem (c : α) (text : List α) : c ∉ afterLast c text := by
  by_cases h : c ∈ text
  · obtain ⟨front, rest, rfl, hrest⟩ := exists_rcut h
    rw [afterLast_append front hrest]
    exact hrest
  · rw [afterLast, rcut_whole h]
    exact h

theorem afterLast_subset (c : α) (text : List α) : afterLast c text ⊆ text := by
  by_cases h : c ∈ text
  · obtain ⟨front, rest, rfl, hrest⟩ := exists_rcut h
    rw [afterLast_append front hrest]
    intro a ha
    simp [ha]
  · rw [afterLast, rcut_whole h]
    exact List.Subset.refl _

theorem beforeLast_subset (c : α) (text : List α) : beforeLast c text ⊆ text := by
  by_cases h : c ∈ text
  · obtain ⟨front, rest, rfl, hrest⟩ := exists_rcut h
    rw [beforeLast_append front hrest]
    exact List.subset_append_left _ _
  · rw [beforeLast, rcut_whole h]
    exact List.Subset.refl _

end MiddleWhere.Separators
