import Mathlib

/-!
# Decoders of lists

A decoder takes what it needs from the front of its input and leaves the rest. `Reads d x a`
says that it takes exactly `x` and finds `a` there, whatever comes after, so that the
readings of the fields of a record compose.
-/

namespace MiddleWhere

abbrev Decoder (τ α : Type) := StateT (List τ) Option α

variable {τ α β γ : Type}

def Reads (d : Decoder τ α) (x : List τ) (a : α) : Prop :=
  ∀ rest, d (x ++ rest) = some (a, rest)

def token : Decoder τ τ
  | [] => none
  | b :: rest => some (b, rest)

def takeN (n : ℕ) : Decoder τ (List τ) := fun input =>
  if n ≤ input.length then some (input.take n, input.drop n) else none

def repeatN (d : Decoder τ α) : ℕ → Decoder τ (List α)
  | 0 => pure []
  | n + 1 => do
    let a ← d
    let as ← repeatN d n
    return a :: as

/-- The input has to be used up. -/
def whole (d : Decoder τ α) (input : List τ) : Option α :=
  match d input with
  | some (a, []) => some a
  | _ => none

/-- What follows is left alone. -/
def front (d : Decoder τ α) (input : List τ) : Option α := (d input).map Prod.fst

theorem Reads.whole {d : Decoder τ α} {x : List τ} {a : α} (h : Reads d x a) :
    whole d x = some a := by
  have hx : d x = some (a, []) := by simpa using h []
  simp [MiddleWhere.whole, hx]

theorem Reads.front {d : Decoder τ α} {x : List τ} {a : α} (h : Reads d x a) (rest : List τ) :
    front d (x ++ rest) = some a := by
  simp [MiddleWhere.front, h rest]

theorem reads_pure (a : α) : Reads (pure a : Decoder τ α) [] a := fun _ => rfl

theorem Reads.bind {d : Decoder τ α} {f : α → Decoder τ β} {x y : List τ} {a : α} {b : β}
    (h : Reads d x a) (hf : Reads (f a) y b) : Reads (d >>= f) (x ++ y) b := by
  intro rest
  have hd : d (x ++ (y ++ rest)) = some (a, y ++ rest) := h (y ++ rest)
  calc (d >>= f) (x ++ y ++ rest)
      = (d (x ++ (y ++ rest))).bind fun p => f p.1 p.2 := by rw [List.append_assoc]; rfl
    _ = f a (y ++ rest) := by rw [hd]; rfl
    _ = some (b, rest) := hf rest

theorem Reads.map {d : Decoder τ α} {x : List τ} {a : α} (h : Reads d x a) (f : α → β) :
    Reads (f <$> d) x (f a) := by
  intro rest
  calc (f <$> d) (x ++ rest)
      = (d (x ++ rest)).bind fun p => some (f p.1, p.2) := rfl
    _ = some (f a, rest) := by rw [h rest]; rfl

theorem reads_token (b : τ) : Reads token [b] b := fun _ => rfl

theorem reads_takeN (x : List τ) : Reads (takeN x.length) x x := by
  intro rest
  simp [takeN]

/-- One reading after another, each found by its encoding. -/
theorem reads_repeatN {d : Decoder τ α} {encode : β → List τ} {view : β → α} {xs : List β}
    (h : ∀ x ∈ xs, Reads d (encode x) (view x)) :
    Reads (repeatN d xs.length) (xs.flatMap encode) (xs.map view) := by
  induction xs with
  | nil => exact reads_pure []
  | cons x xs ih =>
    have hx : Reads d (encode x) (view x) := h x List.mem_cons_self
    have hxs := ih fun y hy => h y (List.mem_cons_of_mem x hy)
    exact hx.bind (f := fun a => do return a :: (← repeatN d xs.length)) (hxs.map (view x :: ·))

end MiddleWhere
