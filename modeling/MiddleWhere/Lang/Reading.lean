import MiddleWhere.Data.Percent

/-!
# Readers that never lengthen a text

A reader goes over a text move by move. A move takes some characters and yields as many or fewer
in their place: it copies a character, drops a quote, resolves an escape. So what is read is what
was written if and only if every move copies what it takes.
-/

namespace MiddleWhere.Reading

inductive Move (σ : Type)
  | stop
  | fail
  | eat (n : ℕ) (out : List Char) (next : σ)
deriving DecidableEq

/-- A move takes something of the text, and yields no more than it takes. -/
def Move.Within {σ : Type} (move : Move σ) (text : List Char) : Prop :=
  match move with
  | .stop | .fail => True
  | .eat n out _ => 0 < n ∧ n ≤ text.length ∧ out.length ≤ n

structure Reader (σ : Type) where
  move : σ → List Char → Move σ
  within : ∀ s text, (move s text).Within text

variable {σ : Type}

/-- What is read from the text, and what is left of it. -/
def Reader.run (R : Reader σ) : ℕ → σ → List Char → Option (List Char × List Char)
  | 0, _, _ => none
  | fuel + 1, s, text =>
    match R.move s text with
    | .stop => some ([], text)
    | .fail => none
    | .eat n out next => (R.run fuel next (text.drop n)).map fun p => (out ++ p.1, p.2)

/-- A move takes at least one character, so this much fuel is enough. -/
def Reader.read (R : Reader σ) (s : σ) (text : List Char) : Option (List Char × List Char) :=
  R.run (text.length + 1) s text

/-- Each move over `path` copies what it takes, and before `after` the reader stops. -/
inductive Verbatim (R : Reader σ) (after : List Char) : σ → List Char → Prop
  | stop {s : σ} (h : R.move s after = .stop) : Verbatim R after s []
  | eat {s next : σ} {piece text : List Char} (hpiece : piece ≠ [])
      (h : R.move s (piece ++ (text ++ after)) = .eat piece.length piece next)
      (hrest : Verbatim R after next text) : Verbatim R after s (piece ++ text)

variable {R : Reader σ} {s next : σ} {path text after out rest : List Char} {fuel : ℕ}

theorem run_length_le (h : R.run fuel s text = some (out, rest)) :
    ∃ used, text = used ++ rest ∧ out.length ≤ used.length := by
  induction fuel generalizing s text out with
  | zero => cases h
  | succ fuel ih =>
    rw [Reader.run] at h
    have hwithin := R.within s text
    cases hmove : R.move s text with
    | stop =>
      rw [hmove] at h
      cases h
      exact ⟨[], rfl, le_refl _⟩
    | fail =>
      rw [hmove] at h
      cases h
    | eat n part next =>
      rw [hmove] at h hwithin
      obtain ⟨⟨out', rest'⟩, hrun, heq⟩ := Option.map_eq_some_iff.mp h
      cases heq
      obtain ⟨used, hused, hlen⟩ := ih hrun
      refine ⟨text.take n ++ used, ?_, ?_⟩
      · rw [List.append_assoc, ← hused, List.take_append_drop]
      · obtain ⟨-, hn, hpart⟩ := hwithin
        simp only [List.length_append, List.length_take]
        omega

theorem verbatim_of_run (h : R.run fuel s (path ++ after) = some (path, after)) :
    Verbatim R after s path := by
  induction fuel generalizing s path with
  | zero => cases h
  | succ fuel ih =>
    rw [Reader.run] at h
    have hwithin := R.within s (path ++ after)
    cases hmove : R.move s (path ++ after) with
    | stop =>
      rw [hmove] at h
      simp only [Option.some.injEq, Prod.mk.injEq] at h
      obtain ⟨rfl, -⟩ := h
      exact .stop hmove
    | fail =>
      rw [hmove] at h
      cases h
    | eat n part next =>
      rw [hmove] at h hwithin
      obtain ⟨⟨out, rest⟩, hrun, heq⟩ := Option.map_eq_some_iff.mp h
      obtain ⟨hpath, rfl⟩ := Prod.mk.inj heq
      obtain ⟨used, hused, hlen⟩ := run_length_le hrun
      dsimp only at hrun hused hlen hwithin ⊢
      obtain ⟨hpos, hn, hpart⟩ := hwithin
      -- the lengths leave no room for a move that shortens
      have htotal : (path ++ rest).length = n + (used ++ rest).length := by
        rw [← hused, List.length_drop]
        omega
      have hsum : path.length = part.length + out.length := by rw [← hpath, List.length_append]
      simp only [List.length_append] at htotal
      have hpartlen : part.length = n := by omega
      have houtlen : out.length = used.length := by omega
      have htext : path ++ rest = (path ++ rest).take n ++ (used ++ rest) := by
        rw [← hused, List.take_append_drop]
      rw [← List.append_assoc, List.append_left_inj] at htext
      have htake : part = (path ++ rest).take n ∧ out = used := by
        have heq : part ++ out = (path ++ rest).take n ++ used := hpath.trans htext
        apply List.append_inj heq
        rw [List.length_take, hpartlen]
        omega
      obtain ⟨htake, rfl⟩ := htake
      have hne : part ≠ [] := by
        rintro rfl
        simp at hpartlen
        omega
      have hmove' : R.move s (part ++ (out ++ rest)) = .eat part.length part next := by
        rw [← List.append_assoc, hpath, hmove, hpartlen]
      rw [hused] at hrun
      rw [← hpath]
      exact .eat hne hmove' (ih hrun)

theorem run_of_verbatim (h : Verbatim R after s path) (hfuel : (path ++ after).length < fuel) :
    R.run fuel s (path ++ after) = some (path, after) := by
  induction h generalizing fuel with
  | stop hmove =>
    obtain ⟨fuel, rfl⟩ : ∃ k, fuel = k + 1 := ⟨fuel - 1, by omega⟩
    rw [List.nil_append, Reader.run, hmove]
  | @eat s next piece text hpiece hmove _ ih =>
    obtain ⟨fuel, rfl⟩ : ∃ k, fuel = k + 1 := ⟨fuel - 1, by omega⟩
    have hpos : 0 < piece.length := List.length_pos_iff.mpr hpiece
    have hrest : R.run fuel next (text ++ after) = some (text, after) := by
      apply ih
      simp only [List.length_append] at hfuel ⊢
      omega
    rw [List.append_assoc, Reader.run, hmove]
    dsimp only
    rw [List.drop_left, hrest]
    rfl

/-- What is read is what was written if and only if every move copies what it takes. -/
theorem read_eq_iff : R.read s (path ++ after) = some (path, after) ↔ Verbatim R after s path :=
  ⟨verbatim_of_run, fun h => run_of_verbatim h (Nat.lt_succ_self _)⟩

/-- One character after another. -/
theorem Verbatim.cons {c : Char} (h : R.move s (c :: (text ++ after)) = .eat 1 [c] next)
    (hrest : Verbatim R after next text) : Verbatim R after s (c :: text) :=
  Verbatim.eat (List.cons_ne_nil c []) h hrest

/-! ## What is done with a word once it is read -/

/-- What `f` makes of a word is not longer, and is the word itself if it is as long. -/
def Shortens (f : List Char → Option (List Char)) : Prop :=
  ∀ word out, f word = some out → out.length ≤ word.length ∧ (word.length ≤ out.length → out = word)

theorem Shortens.comp {f g : List Char → Option (List Char)} (hf : Shortens f) (hg : Shortens g) :
    Shortens fun word => (f word).bind g := by
  intro word out h
  obtain ⟨middle, hmiddle, hout⟩ := Option.bind_eq_some_iff.mp h
  obtain ⟨hlen, hsame⟩ := hf word middle hmiddle
  obtain ⟨hlen', hsame'⟩ := hg middle out hout
  refine ⟨hlen'.trans hlen, fun hle => ?_⟩
  obtain rfl := hsame (hle.trans hlen')
  exact hsame' hle

theorem Shortens.bind_eq_self_iff {f g : List Char → Option (List Char)} (hf : Shortens f)
    (hg : Shortens g) (word : List Char) :
    (f word).bind g = some word ↔ f word = some word ∧ g word = some word := by
  constructor
  · intro h
    obtain ⟨middle, hmiddle, hout⟩ := Option.bind_eq_some_iff.mp h
    obtain rfl := (hf word middle hmiddle).2 (hg middle word hout).1
    exact ⟨hmiddle, hout⟩
  · rintro ⟨h, h'⟩
    rw [h, Option.bind_some, h']

/-- A word is read and then changed by `f`. -/
def Reader.readAs (R : Reader σ) (f : List Char → Option (List Char)) (s : σ) (text : List Char) :
    Option (List Char × List Char) :=
  (R.read s text).bind fun p => (f p.1).map fun out => (out, p.2)

theorem readAs_eq_iff {f : List Char → Option (List Char)} (hf : Shortens f) :
    R.readAs f s (path ++ after) = some (path, after) ↔
      R.read s (path ++ after) = some (path, after) ∧ f path = some path := by
  constructor
  · intro h
    obtain ⟨⟨word, rest⟩, hread, hmap⟩ := Option.bind_eq_some_iff.mp h
    obtain ⟨out, hout, heq⟩ := Option.map_eq_some_iff.mp hmap
    obtain ⟨rfl, rfl⟩ := Prod.mk.inj heq
    obtain ⟨used, hused, hlen⟩ := run_length_le hread
    obtain rfl := List.append_cancel_right hused
    obtain rfl := (hf word out hout).2 hlen
    exact ⟨hread, hout⟩
  · rintro ⟨hread, hout⟩
    rw [Reader.readAs, hread, Option.bind_some, hout]
    rfl

/-! ## Numerals in escapes -/

def isDigitIn (radix : ℕ) (c : Char) : Bool := (Percent.hexValue c).any (· < radix)

/-- The number that these digits spell. -/
def numeral (radix : ℕ) (digits : List Char) : Option ℕ :=
  if !digits.isEmpty && digits.all (isDigitIn radix) then
    some (digits.foldl (fun n c => n * radix + (Percent.hexValue c).getD 0) 0)
  else none

end MiddleWhere.Reading
