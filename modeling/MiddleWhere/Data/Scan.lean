import MiddleWhere.Data.Decoder

/-!
# Scanners

A scanner is a decoder that does not look past a tail that begins with something it does not
read: it finds the same, or fails alike, with the tail and without it.
-/

namespace MiddleWhere

variable {τ α β : Type} {stop : List τ → Prop} {d e : Decoder τ α} {f : α → Decoder τ β}
  {text tail rest : List τ} {a : α}

theorem whole_eq_some_iff : whole d text = some a ↔ d text = some (a, []) := by
  rw [whole]
  cases h : d text with
  | none => simp
  | some p =>
    obtain ⟨b, rest⟩ := p
    cases rest <;> simp

structure Scanner (stop : List τ → Prop) (d : Decoder τ α) : Prop where
  blind : ∀ text tail, stop tail → d (text ++ tail) = (d text).map fun p => (p.1, p.2 ++ tail)
  suffix : ∀ text a rest, d text = some (a, rest) → ∃ used, text = used ++ rest

namespace Scanner

theorem pure (a : α) : Scanner stop (pure a : Decoder τ α) where
  blind _ _ _ := rfl
  suffix text b rest h := by
    obtain ⟨rfl, rfl⟩ : a = b ∧ text = rest := by simpa [Pure.pure, StateT.pure] using h
    exact ⟨[], rfl⟩

theorem failure : Scanner stop (failure : Decoder τ α) where
  blind _ _ _ := rfl
  suffix _ _ _ h := by cases h

theorem bind (h : Scanner stop d) (hf : ∀ a, Scanner stop (f a)) : Scanner stop (d >>= f) where
  blind text tail htail := by
    have hd := h.blind text tail htail
    show (d (text ++ tail)).bind _ = ((d text).bind _).map _
    rw [hd]
    cases d text with
    | none => rfl
    | some p => exact (hf p.1).blind p.2 tail htail
  suffix text b rest hrun := by
    change (d text).bind (fun p => f p.1 p.2) = some (b, rest) at hrun
    obtain ⟨⟨a, middle⟩, ha, hb⟩ := Option.bind_eq_some_iff.mp hrun
    obtain ⟨used, rfl⟩ := h.suffix text a middle ha
    obtain ⟨used', rfl⟩ := (hf a).suffix middle b rest hb
    exact ⟨used ++ used', by rw [List.append_assoc]⟩

theorem map (h : Scanner stop d) (f : α → β) : Scanner stop (f <$> d) :=
  h.bind (f := fun a => Pure.pure (f a)) fun a => Scanner.pure (f a)

theorem orElse (h : Scanner stop d) (h' : Scanner stop e) : Scanner stop (d <|> e) where
  blind text tail htail := by
    have hd := h.blind text tail htail
    have he := h'.blind text tail htail
    show (d (text ++ tail) <|> e (text ++ tail)) = (d text <|> e text).map _
    rw [hd]
    cases d text with
    | none => simpa using he
    | some p => rfl
  suffix text a rest hrun := by
    change (d text <|> e text) = some (a, rest) at hrun
    cases hd : d text with
    | none =>
      rw [hd] at hrun
      exact h'.suffix text a rest (by simpa using hrun)
    | some p =>
      rw [hd] at hrun
      exact h.suffix text a rest (by simpa using hd.trans hrun)

/-- A scanner that gets to the tail has read all the text before it. -/
theorem whole_of_append (h : Scanner stop d) (htail : stop tail)
    (hrun : d (text ++ tail) = some (a, tail)) : whole d text = some a := by
  rw [h.blind text tail htail] at hrun
  obtain ⟨⟨b, rest⟩, hb, heq⟩ := Option.map_eq_some_iff.mp hrun
  obtain ⟨rfl, hrest⟩ := Prod.mk.inj heq
  obtain rfl : rest = [] := by simpa using hrest
  exact whole_eq_some_iff.mpr hb

theorem append_of_whole (h : Scanner stop d) (htail : stop tail)
    (hrun : whole d text = some a) : d (text ++ tail) = some (a, tail) := by
  rw [h.blind text tail htail, whole_eq_some_iff.mp hrun]
  rfl

end Scanner

/-! ## Single tokens and runs of them -/

variable [DecidableEq τ]

def given (t : τ) : Decoder τ Unit
  | [] => none
  | b :: rest => if b = t then some ((), rest) else none

theorem given_eq_some_iff {t : τ} {u : Unit} : given t text = some (u, rest) ↔ text = t :: rest := by
  cases text with
  | nil => simp [given]
  | cons b text =>
    by_cases hb : b = t <;> simp [given, hb]

theorem given_cons (t : τ) (rest : List τ) : given t (t :: rest) = some ((), rest) :=
  given_eq_some_iff.mpr rfl

theorem scanner_given {t : τ} (h : ∀ tail, stop tail → tail.head? ≠ some t) :
    Scanner stop (given t) where
  blind text tail htail := by
    cases text with
    | nil =>
      cases tail with
      | nil => rfl
      | cons b tail =>
        have hb : b ≠ t := by simpa using h _ htail
        simp [given, hb]
    | cons b text => by_cases hb : b = t <;> simp [given, hb]
  suffix text u rest hrun := ⟨[t], given_eq_some_iff.mp hrun⟩

theorem takeWhile_append_of_head {p : τ → Bool} (text : List τ) (h : ∀ b, tail.head? = some b → p b = false) :
    (text ++ tail).takeWhile p = text.takeWhile p ∧
      (text ++ tail).dropWhile p = text.dropWhile p ++ tail := by
  induction text with
  | nil =>
    cases tail with
    | nil => exact ⟨rfl, rfl⟩
    | cons b tail =>
      have hb : p b = false := h b rfl
      simp [hb]
  | cons b text ih =>
    by_cases hb : p b = true
    · simp [hb, ih]
    · simp [hb]

end MiddleWhere
