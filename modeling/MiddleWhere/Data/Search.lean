import Mathlib.Data.List.Infix

/-!
# Searching a text for a part of it

`findAfter` is what follows the first occurrence of a part and `rfindBefore` what precedes the
last one. A text in which every delimiter is escaped cannot bring forth an occurrence of a part
that has a delimiter, unescaped characters and a delimiter in it.
-/

namespace MiddleWhere.Search

variable {α : Type} [DecidableEq α]

/-- What is after the first occurrence of `part`. -/
def findAfter (part : List α) : List α → Option (List α)
  | [] => if part.isPrefixOf [] then some [] else none
  | a :: text =>
    if part.isPrefixOf (a :: text) then some ((a :: text).drop part.length)
    else findAfter part text

/-- What is before the last occurrence of `part`. -/
def rfindBefore (part : List α) : List α → Option (List α)
  | [] => if part.isPrefixOf [] then some [] else none
  | a :: text =>
    match rfindBefore part text with
    | some front => some (a :: front)
    | none => if part.isPrefixOf (a :: text) then some [] else none

def contains (text part : List α) : Bool := (findAfter part text).isSome

variable {part text front : List α} {a b : α}

theorem isPrefixOf_eq_false : part.isPrefixOf text = false ↔ ¬ part <+: text := by
  rw [← Bool.not_eq_true, List.isPrefixOf_iff_prefix]

theorem findAfter_prefix (h : part ≠ []) : findAfter part (part ++ text) = some text := by
  cases part with
  | nil => exact absurd rfl h
  | cons a part =>
    have hpre : (a :: part).isPrefixOf (a :: (part ++ text)) = true :=
      List.isPrefixOf_iff_prefix.mpr (List.prefix_append _ _)
    rw [List.cons_append, findAfter, if_pos hpre, ← List.cons_append, List.drop_left]

theorem findAfter_skip (h : ¬ part <+: a :: text) :
    findAfter part (a :: text) = findAfter part text := by
  rw [findAfter, if_neg]
  rwa [List.isPrefixOf_iff_prefix]

theorem findAfter_skip_head (h : a ≠ b) :
    findAfter (a :: part) (b :: text) = findAfter (a :: part) text := by
  apply findAfter_skip
  rw [List.cons_prefix_cons]
  exact fun hpre => h hpre.1

theorem rfindBefore_short (h : text.length < part.length) : rfindBefore part text = none := by
  induction text with
  | nil =>
    rw [rfindBefore, if_neg]
    rw [List.isPrefixOf_iff_prefix]
    intro hpre
    exact absurd hpre.length_le (by omega)
  | cons a text ih =>
    rw [rfindBefore, ih (by simp at h; omega), if_neg]
    rw [List.isPrefixOf_iff_prefix]
    intro hpre
    exact absurd hpre.length_le (by omega)

/-- A text that ends with a part has the last occurrence of it there. -/
theorem rfindBefore_suffix (h : part ≠ []) (front : List α) :
    rfindBefore part (front ++ part) = some front := by
  induction front with
  | nil =>
    cases part with
    | nil => exact absurd rfl h
    | cons a part =>
      have hpre : (a :: part).isPrefixOf (a :: part) = true :=
        List.isPrefixOf_iff_prefix.mpr (List.prefix_refl _)
      rw [List.nil_append, rfindBefore, rfindBefore_short (by simp), if_pos hpre]
  | cons a front ih => rw [List.cons_append, rfindBefore, ih]

/-! ## Escaped texts -/

/-- Every delimiter `d` in the text is escaped by `e`. -/
inductive Guarded (d e : α) : List α → Prop
  | nil : Guarded d e []
  | plain {a : α} {text : List α} (hd : a ≠ d) (he : a ≠ e) (h : Guarded d e text) :
      Guarded d e (a :: text)
  | escaped (a : α) {text : List α} (h : Guarded d e text) : Guarded d e (e :: a :: text)

variable {d e c : α} {key more tail guarded : List α}

theorem Guarded.append (h : Guarded d e text) (htail : Guarded d e tail) :
    Guarded d e (text ++ tail) := by
  induction h with
  | nil => exact htail
  | plain hd he _ ih => exact .plain hd he ih
  | escaped a _ ih => exact .escaped a ih

theorem Guarded.of_plain (hd : d ∉ text) (he : e ∉ text) : Guarded d e text := by
  induction text with
  | nil => exact .nil
  | cons a text ih =>
    rw [List.mem_cons, not_or] at hd he
    exact .plain (Ne.symm hd.1) (Ne.symm he.1) (ih hd.2 he.2)

theorem Guarded.flatMap {β : Type} {f : β → List α} (h : ∀ b, Guarded d e (f b)) (bs : List β) :
    Guarded d e (bs.flatMap f) := by
  induction bs with
  | nil => exact .nil
  | cons b bs ih =>
    rw [List.flatMap_cons]
    exact (h b).append ih

/-- The next delimiter after plain characters is the one that ends the escaped text. -/
theorem Guarded.not_key (h : Guarded d e guarded) (hde : d ≠ e) (hd : d ∉ key) (he : e ∉ key)
    (hab : a ≠ b) : ¬ key ++ d :: a :: more <+: guarded ++ d :: b :: tail := by
  induction h generalizing key with
  | nil =>
    cases key with
    | nil =>
      rw [List.nil_append, List.nil_append, List.cons_prefix_cons, List.cons_prefix_cons]
      rintro ⟨-, h, -⟩
      exact hab h
    | cons k key =>
      rw [List.nil_append, List.cons_append, List.cons_prefix_cons]
      rintro ⟨rfl, -⟩
      simp at hd
  | plain hd' he' _ ih =>
    cases key with
    | nil =>
      rw [List.nil_append, List.cons_append, List.cons_prefix_cons]
      rintro ⟨h, -⟩
      exact hd' h.symm
    | cons k key =>
      rw [List.mem_cons, not_or] at hd he
      rw [List.cons_append, List.cons_append, List.cons_prefix_cons]
      rintro ⟨-, h⟩
      exact ih hd.2 he.2 h
  | escaped x _ ih =>
    cases key with
    | nil =>
      rw [List.nil_append, List.cons_append, List.cons_prefix_cons]
      rintro ⟨h, -⟩
      exact hde h
    | cons k key =>
      rw [List.cons_append, List.cons_append, List.cons_prefix_cons]
      rintro ⟨rfl, -⟩
      simp at he

/-- An escaped text up to its closing delimiter has no part that holds a whole key. -/
theorem Guarded.findAfter (h : Guarded d e guarded) (hde : d ≠ e) (hd : d ∉ key) (he : e ∉ key)
    (hab : a ≠ b) :
    findAfter (d :: (key ++ d :: a :: more)) (guarded ++ d :: b :: tail) =
      Search.findAfter (d :: (key ++ d :: a :: more)) (d :: b :: tail) := by
  induction h with
  | nil => rfl
  | plain hd' _ _ ih => rw [List.cons_append, findAfter_skip_head hd'.symm, ih]
  | @escaped x text h ih =>
    rw [List.cons_append, List.cons_append, findAfter_skip_head hde, findAfter_skip, ih]
    rw [List.cons_prefix_cons]
    rintro ⟨-, hpre⟩
    exact h.not_key hde hd he hab hpre

/-- The same with the opening delimiter. -/
theorem Guarded.findAfter_value (h : Guarded d e guarded) (hde : d ≠ e) (hd : d ∉ key)
    (he : e ∉ key) (hab : a ≠ b) :
    Search.findAfter (d :: (key ++ d :: a :: more)) (d :: (guarded ++ d :: b :: tail)) =
      Search.findAfter (d :: (key ++ d :: a :: more)) (d :: b :: tail) := by
  rw [findAfter_skip, h.findAfter hde hd he hab]
  rw [List.cons_prefix_cons]
  rintro ⟨-, hpre⟩
  exact h.not_key hde hd he hab hpre

end MiddleWhere.Search
