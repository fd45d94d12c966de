import Mathlib

/-!
# How a fallible computation ends

A computation returns a value, returns an error to its caller, or panics. A panic is
kept apart from an error on purpose: no caller can catch it, and it ends every other
computation of the process with it. Indexing, slicing and word arithmetic are stated
here as computations that panic outside their range, so that a translation keeps every
place where the original could abort.
-/

namespace MiddleWhere

inductive Outcome (ε α : Type)
  | ok (a : α)
  | err (e : ε)
  | panic
deriving DecidableEq

namespace Outcome

variable {ε ε' α β γ : Type}

def bind (x : Outcome ε α) (f : α → Outcome ε β) : Outcome ε β :=
  match x with
  | .ok a => f a
  | .err e => .err e
  | .panic => .panic

instance : Monad (Outcome ε) where
  pure := .ok
  bind := Outcome.bind

@[simp] theorem pure_eq (a : α) : (pure a : Outcome ε α) = .ok a := rfl
@[simp] theorem ok_bind (a : α) (f : α → Outcome ε β) : (.ok a >>= f) = f a := rfl
@[simp] theorem err_bind (e : ε) (f : α → Outcome ε β) : (.err e >>= f) = .err e := rfl
@[simp] theorem panic_bind (f : α → Outcome ε β) :
    ((.panic : Outcome ε α) >>= f) = .panic := rfl

/-- What a `match` on the returned result sees; a panic is not among the cases. -/
def attempt : Outcome ε α → Outcome ε' (Except ε α)
  | .ok a => .ok (.ok a)
  | .err e => .ok (.error e)
  | .panic => .panic

def mapErr (f : ε → ε') : Outcome ε α → Outcome ε' α
  | .ok a => .ok a
  | .err e => .err (f e)
  | .panic => .panic

def ofOption (e : ε) : Option α → Outcome ε α
  | some a => .ok a
  | none => .err e

def Safe (x : Outcome ε α) : Prop := x ≠ .panic

@[simp] theorem safe_ok (a : α) : (.ok a : Outcome ε α).Safe := nofun
@[simp] theorem safe_err (e : ε) : (.err e : Outcome ε α).Safe := nofun
@[simp] theorem not_safe_panic : ¬ (.panic : Outcome ε α).Safe := fun h => h rfl

@[simp] theorem safe_ofOption (e : ε) (x : Option α) : (ofOption e x).Safe := by
  cases x <;> simp [ofOption]

theorem safe_bind {x : Outcome ε α} {f : α → Outcome ε β} (hx : x.Safe)
    (hf : ∀ a, x = .ok a → (f a).Safe) : (x >>= f).Safe := by
  cases x with
  | ok a => exact hf a rfl
  | err e => exact safe_err e
  | panic => exact absurd rfl hx

theorem bind_eq_ok_iff {x : Outcome ε α} {f : α → Outcome ε β} {b : β} :
    (x >>= f) = .ok b ↔ ∃ a, x = .ok a ∧ f a = .ok b := by
  cases x <;> simp

theorem bind_eq_panic_iff {x : Outcome ε α} {f : α → Outcome ε β} :
    (x >>= f) = .panic ↔ x = .panic ∨ ∃ a, x = .ok a ∧ f a = .panic := by
  cases x <;> simp

/-! ## Partial operations of the machine -/

def index (xs : List α) (i : ℕ) : Outcome ε α :=
  match xs[i]? with
  | some a => .ok a
  | none => .panic

/-- `xs[i..j]`. -/
def slice (xs : List α) (i j : ℕ) : Outcome ε (List α) :=
  if i ≤ j ∧ j ≤ xs.length then .ok ((xs.drop i).take (j - i)) else .panic

/-- Addition of unsigned words of width `w`, with overflow counted as a panic. -/
def addWord (w a b : ℕ) : Outcome ε ℕ :=
  if a + b < 2 ^ w then .ok (a + b) else .panic

theorem index_of_lt {xs : List α} {i : ℕ} (h : i < xs.length) :
    (index xs i : Outcome ε α) = .ok xs[i] := by
  simp [index, h]

theorem index_eq_panic_iff {xs : List α} {i : ℕ} :
    (index xs i : Outcome ε α) = .panic ↔ xs.length ≤ i := by
  unfold index
  cases h : xs[i]? with
  | none => simpa using h
  | some a => simpa using (List.getElem?_eq_some_iff.mp h).1

theorem slice_of_le {xs : List α} {i j : ℕ} (hij : i ≤ j) (hj : j ≤ xs.length) :
    (slice xs i j : Outcome ε (List α)) = .ok ((xs.drop i).take (j - i)) := by
  simp [slice, hij, hj]

theorem slice_eq_panic_iff {xs : List α} {i j : ℕ} :
    (slice xs i j : Outcome ε (List α)) = .panic ↔ ¬ (i ≤ j ∧ j ≤ xs.length) := by
  unfold slice
  split_ifs with h <;> simp [h]

theorem slice_eq_ok_iff {xs ys : List α} {i j : ℕ} : (slice xs i j : Outcome ε (List α)) = .ok ys ↔
    i ≤ j ∧ j ≤ xs.length ∧ (xs.drop i).take (j - i) = ys := by
  unfold slice
  split_ifs with h
  · simp [h]
  · simp only [reduceCtorEq, false_iff]
    exact fun hall => h ⟨hall.1, hall.2.1⟩

/-- What comes after a slice does not matter. -/
theorem slice_append {xs zs ys : List α} {i j : ℕ}
    (h : (slice xs i j : Outcome ε (List α)) = .ok zs) :
    (slice (xs ++ ys) i j : Outcome ε (List α)) = .ok zs := by
  obtain ⟨hij, hj, htake⟩ := slice_eq_ok_iff.mp h
  have hlength : (xs ++ ys).length = xs.length + ys.length := List.length_append
  refine slice_eq_ok_iff.mpr ⟨hij, by omega, ?_⟩
  rw [List.drop_append_of_le_length (by omega), List.take_append_of_le_length]
  · exact htake
  · rw [List.length_drop]
    omega

theorem addWord_of_lt {w a b : ℕ} (h : a + b < 2 ^ w) :
    (addWord w a b : Outcome ε ℕ) = .ok (a + b) := by
  simp [addWord, h]

end Outcome
end MiddleWhere
