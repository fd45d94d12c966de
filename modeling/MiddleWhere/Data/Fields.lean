import MiddleWhere.Effects.Outcome

/-!
# Fields at positions

A parser that walks a buffer by a position reads each field where the fields before it end.
`At buf pos field` says that the field stands there, so that a layout splits into its fields
once and every access follows from its own field.
-/

namespace MiddleWhere

variable {α ε : Type} {buf a b : List α} {pos : ℕ}

def At (buf : List α) (pos : ℕ) (field : List α) : Prop :=
  ∃ front rest, buf = front ++ (field ++ rest) ∧ front.length = pos

theorem At.start (field rest : List α) : At (field ++ rest) 0 field := ⟨[], rest, rfl, rfl⟩

theorem At.split (h : At buf pos (a ++ b)) : At buf pos a ∧ At buf (pos + a.length) b := by
  obtain ⟨front, rest, rfl, rfl⟩ := h
  exact ⟨⟨front, b ++ rest, by simp, rfl⟩, ⟨front ++ a, rest, by simp, by simp⟩⟩

theorem At.left (h : At buf pos (a ++ b)) : At buf pos a := h.split.1

theorem At.right (h : At buf pos (a ++ b)) : At buf (pos + a.length) b := h.split.2

theorem At.le (h : At buf pos a) : pos + a.length ≤ buf.length := by
  obtain ⟨front, rest, rfl, rfl⟩ := h
  simp only [List.length_append]
  omega

theorem At.drop (h : At buf pos a) : ∃ rest, buf.drop pos = a ++ rest := by
  obtain ⟨front, rest, rfl, rfl⟩ := h
  exact ⟨rest, List.drop_left⟩

theorem At.slice (h : At buf pos a) :
    (Outcome.slice buf pos (pos + a.length) : Outcome ε (List α)) = .ok a := by
  obtain ⟨rest, hdrop⟩ := h.drop
  rw [Outcome.slice_of_le (by omega) h.le, hdrop, Nat.add_sub_cancel_left, List.take_left]

/-- All that is left of the buffer. -/
theorem At.slice_rest (h : At buf pos a) : ∃ rest,
    (Outcome.slice buf pos buf.length : Outcome ε (List α)) = .ok (a ++ rest) := by
  obtain ⟨rest, hdrop⟩ := h.drop
  refine ⟨rest, ?_⟩
  have hle := h.le
  have hlen : (buf.drop pos).length = buf.length - pos := List.length_drop
  rw [Outcome.slice_of_le (by omega) le_rfl, ← hlen, List.take_length, hdrop]

theorem At.index {x : α} (h : At buf pos [x]) : (Outcome.index buf pos : Outcome ε α) = .ok x := by
  obtain ⟨front, rest, rfl, rfl⟩ := h
  simp [Outcome.index]

end MiddleWhere
