import Mathlib.Data.List.Basic
import Mathlib.Tactic.Common

/-!
# Lexing by longest match

A lexer is given by its munch: the kind of the lexeme at the front of a text, and how many
symbols it takes beyond the first. A text is lexed by munching it up, and the lexemes of a
text spell it. A prefix of a text is read with everything that follows in sight, so that
readings compose.
-/

namespace MiddleWhere.Sql

variable {α κ : Type}

structure Lexeme (α κ : Type) where
  kind : κ
  text : List α
  deriving DecidableEq

/-- The text that a sequence of lexemes spells. -/
def spell (ls : List (Lexeme α κ)) : List α := ls.flatMap Lexeme.text

@[simp] theorem spell_nil : spell ([] : List (Lexeme α κ)) = [] := rfl

@[simp] theorem spell_cons (l : Lexeme α κ) (ls : List (Lexeme α κ)) :
    spell (l :: ls) = l.text ++ spell ls := rfl

@[simp] theorem spell_append (ls ls' : List (Lexeme α κ)) :
    spell (ls ++ ls') = spell ls ++ spell ls' := by
  simp [spell]

section
variable (munch : List α → Option (κ × ℕ))

def lexFuel : ℕ → List α → Option (List (Lexeme α κ))
  | _, [] => some []
  | 0, _ :: _ => none
  | n + 1, a :: as =>
    match munch (a :: as) with
    | none => none
    | some (k, more) => (lexFuel n (as.drop more)).map (⟨k, a :: as.take more⟩ :: ·)

def lex (as : List α) : Option (List (Lexeme α κ)) := lexFuel munch as.length as

/-- The lexemes at the front of a text, and the rest. -/
inductive Reads : List α → List (Lexeme α κ) → List α → Prop
  | done {rest : List α} : Reads rest [] rest
  | step {a : α} {as : List α} {k : κ} {more : ℕ} {ls : List (Lexeme α κ)} {rest : List α} :
      munch (a :: as) = some (k, more) → Reads (as.drop more) ls rest →
      Reads (a :: as) (⟨k, a :: as.take more⟩ :: ls) rest

end

variable {munch : List α → Option (κ × ℕ)} {as bs rest : List α} {ls ls' : List (Lexeme α κ)}

theorem Reads.of_lexFuel {n : ℕ} (h : lexFuel munch n as = some ls) : Reads munch as ls [] := by
  induction n generalizing as ls with
  | zero =>
    cases as with
    | nil =>
      obtain rfl : [] = ls := by simpa [lexFuel] using h
      exact .done
    | cons a as => simp [lexFuel] at h
  | succ n ih =>
    cases as with
    | nil =>
      obtain rfl : [] = ls := by simpa [lexFuel] using h
      exact .done
    | cons a as =>
      rw [lexFuel] at h
      cases hm : munch (a :: as) with
      | none => simp [hm] at h
      | some found =>
        obtain ⟨k, more⟩ := found
        rw [hm] at h
        obtain ⟨tail, htail, rfl⟩ := Option.map_eq_some_iff.mp h
        exact .step hm (ih htail)

theorem Reads.lexFuel {n : ℕ} (h : Reads munch as ls []) (hn : as.length ≤ n) :
    lexFuel munch n as = some ls := by
  generalize hrest : ([] : List α) = rest at h
  induction h generalizing n with
  | done =>
    subst hrest
    cases n <;> rfl
  | @step a as k more ls rest hm _ ih =>
    cases n with
    | zero => simp at hn
    | succ n =>
      have hlen : (as.drop more).length ≤ n := by
        have hdrop := List.length_drop (i := more) (l := as)
        simp only [List.length_cons] at hn
        omega
      simp only [Sql.lexFuel, hm, ih hlen hrest, Option.map_some]

/-- A text lexes to what is read of it to its end. -/
theorem lex_eq_some_iff : lex munch as = some ls ↔ Reads munch as ls [] :=
  ⟨Reads.of_lexFuel, fun h => h.lexFuel (Nat.le_refl _)⟩

theorem Reads.append (h : Reads munch as ls bs) (h' : Reads munch bs ls' rest) :
    Reads munch as (ls ++ ls') rest := by
  induction h with
  | done => exact h'
  | step hm _ ih => exact .step hm (ih h')

theorem Reads.spells (h : Reads munch as ls rest) : as = spell ls ++ rest := by
  induction h with
  | done => rfl
  | step _ _ ih =>
    rw [spell_cons, List.append_assoc, ← ih, List.cons_append, List.take_append_drop]

/-- The lexemes of a text spell it. -/
theorem spell_lex (h : lex munch as = some ls) : spell ls = as := by
  have hspells := (lex_eq_some_iff.mp h).spells
  rw [hspells, List.append_nil]

/-- One lexeme, read with what follows in sight. -/
theorem Reads.lexeme {a : α} {text : List α} {k : κ}
    (hm : munch (a :: text ++ rest) = some (k, text.length)) :
    Reads munch (a :: text ++ rest) [⟨k, a :: text⟩] rest := by
  have hstep : Reads munch (a :: (text ++ rest)) [⟨k, a :: (text ++ rest).take text.length⟩]
      ((text ++ rest).drop text.length) := .step hm .done
  rwa [List.take_left, List.drop_left] at hstep

theorem Reads.inv {a : α} (h : Reads munch (a :: as) ls []) :
    ∃ k more tail, munch (a :: as) = some (k, more) ∧ Reads munch (as.drop more) tail [] ∧
      ls = ⟨k, a :: as.take more⟩ :: tail := by
  cases h with
  | step hm htail => exact ⟨_, _, _, hm, htail, rfl⟩

/-- What each lexeme has by its munch, all of them have. -/
theorem Reads.forall {P : Lexeme α κ → Prop} (h : Reads munch as ls rest)
    (hmunch : ∀ a as k more, munch (a :: as) = some (k, more) → P ⟨k, a :: as.take more⟩) :
    ∀ l ∈ ls, P l := by
  induction h with
  | done => simp
  | step hm _ ih =>
    intro l hl
    rcases List.mem_cons.mp hl with rfl | hl
    · exact hmunch _ _ _ _ hm
    · exact ih l hl

end MiddleWhere.Sql
