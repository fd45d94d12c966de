import MiddleWhere.Data.Scan
import MiddleWhere.Lang.Reading

/-!
# Words of the POSIX shell

A word is read as far as the text alone determines it: where a word begins with a tilde or has an
unquoted parameter, command substitution or pattern in it, what it stands for is up to the machine,
and the reader fails.
-/

namespace MiddleWhere.Shell
open Reading

def isBlank (c : Char) : Bool := c == ' ' || c == '\t' || c == '\n'

def isOperator (c : Char) : Bool := ";&|<>()".toList.contains c

/-- What opens an expansion or is a pattern by itself. -/
def isActive (c : Char) : Bool := "$*?".toList.contains c || c == Char.ofNat 0x60

def endsWord (c : Char) : Bool := isBlank c || isOperator c

/-- What follows `[` makes a bracket expression of it. It lies within one component of a path, and
its first character, after `!`, does not close it. -/
def closesBracket (rest : List Char) : Bool :=
  let body := rest.takeWhile fun c => !(endsWord c || c == '/')
  let body := if body.head? = some '!' then body.drop 1 else body
  (body.drop 1).contains ']'

inductive Mode
  | start
  | bare
  | single
  | double
deriving DecidableEq

/-- A backslash out of quotes; with a newline it is not there at all. -/
def escapeMove (s : Mode) : List Char → Move Mode
  | [] => .eat 1 ['\\'] .bare
  | d :: _ => if d = '\n' then .eat 2 [] s else .eat 2 [d] .bare

def bareMove (s : Mode) : List Char → Move Mode
  | [] => .stop
  | c :: rest =>
    if endsWord c then .stop
    else if c = '\'' then .eat 1 [] .single
    else if c = '"' then .eat 1 [] .double
    else if c = '\\' then escapeMove s rest
    else if isActive c then .fail
    else if c = '[' ∧ closesBracket rest then .fail
    else .eat 1 [c] .bare

/-- Before a word. Where there is none, none is read. -/
def startMove : List Char → Move Mode
  | [] => .fail
  | c :: rest =>
    if c = ' ' ∨ c = '\t' then .eat 1 [] .start
    else if c = '\n' ∨ isOperator c ∨ c = '#' ∨ c = '~' then .fail
    else bareMove .start (c :: rest)

def singleMove : List Char → Move Mode
  | [] => .fail
  | c :: _ => if c = '\'' then .eat 1 [] .bare else .eat 1 [c] .single

def doubleMove : List Char → Move Mode
  | [] => .fail
  | c :: rest =>
    if c = '"' then .eat 1 [] .bare
    else if c = '$' ∨ c = Char.ofNat 0x60 then .fail
    else if c = '\\' then
      match rest with
      | [] => .fail
      | d :: _ =>
        if d = '\n' then .eat 2 [] .double
        else if "$\"\\".toList.contains d || d == Char.ofNat 0x60 then .eat 2 [d] .double
        else .eat 1 ['\\'] .double
    else .eat 1 [c] .double

def move : Mode → List Char → Move Mode
  | .start => startMove
  | .bare => bareMove .bare
  | .single => singleMove
  | .double => doubleMove

theorem escapeMove_within (s : Mode) (c : Char) (rest : List Char) :
    (escapeMove s rest).Within (c :: rest) := by
  cases rest with
  | nil => simp [escapeMove, Move.Within]
  | cons d rest =>
    simp only [escapeMove]
    split_ifs <;> simp [Move.Within]

theorem bareMove_within (s : Mode) (text : List Char) : (bareMove s text).Within text := by
  cases text with
  | nil => trivial
  | cons c rest =>
    simp only [bareMove]
    split_ifs
    · trivial
    · simp [Move.Within]
    · simp [Move.Within]
    · exact escapeMove_within s c rest
    · trivial
    · trivial
    · simp [Move.Within]

theorem move_within (s : Mode) (text : List Char) : (move s text).Within text := by
  cases s with
  | start =>
    cases text with
    | nil => trivial
    | cons c rest =>
      simp only [move, startMove]
      split_ifs
      · simp [Move.Within]
      · trivial
      · exact bareMove_within .start (c :: rest)
  | bare => exact bareMove_within .bare text
  | single =>
    cases text with
    | nil => trivial
    | cons c rest =>
      simp only [move, singleMove]
      split_ifs <;> simp [Move.Within]
  | double =>
    cases text with
    | nil => trivial
    | cons c rest =>
      cases rest with
      | nil =>
        simp only [move, doubleMove]
        split_ifs <;> simp [Move.Within]
      | cons d rest =>
        simp only [move, doubleMove]
        split_ifs <;> simp [Move.Within]

def shell : Reader Mode := ⟨move, move_within⟩

/-- The next word, and what is after it. -/
def word (text : List Char) : Option (List Char × List Char) := shell.read .start text

/-! ## Plain words -/

def isPlainChar (c : Char) : Bool :=
  !(endsWord c || c == '\'' || c == '"' || c == '\\' || isActive c)

/-- Texts that stand for themselves. -/
structure Plain (text : List Char) : Prop where
  nonempty : text ≠ []
  head : text.head? ≠ some '#' ∧ text.head? ≠ some '~'
  chars : ∀ c ∈ text, isPlainChar c = true
  brackets : ∀ front rest, text = front ++ '[' :: rest → closesBracket rest = false

variable {s next : Mode} {c : Char} {text rest after piece : List Char}

theorem isPlainChar_iff : isPlainChar c = true ↔
    endsWord c = false ∧ c ≠ '\'' ∧ c ≠ '"' ∧ c ≠ '\\' ∧ isActive c = false := by
  simp [isPlainChar, and_assoc]

theorem bareMove_plain (hc : isPlainChar c = true) (hbracket : c = '[' → closesBracket rest = false) :
    bareMove s (c :: rest) = .eat 1 [c] .bare := by
  obtain ⟨hend, hsingle, hdouble, hescape, hactive⟩ := isPlainChar_iff.mp hc
  rw [bareMove, if_neg (by simp [hend]), if_neg hsingle, if_neg hdouble, if_neg hescape,
    if_neg (by simp [hactive]), if_neg]
  rintro ⟨rfl, hclose⟩
  rw [hbracket rfl] at hclose
  cases hclose

/-- A move out of quotes that copies what it takes has a plain character before it. -/
theorem plain_of_bareMove (hpiece : piece ≠ []) (hafter : after ≠ [])
    (h : bareMove s (piece ++ (text ++ after)) = .eat piece.length piece next) :
    ∃ c, piece = [c] ∧ next = .bare ∧ isPlainChar c = true ∧
      (c = '[' → closesBracket (text ++ after) = false) := by
  obtain ⟨c, piece, rfl⟩ := List.exists_cons_of_ne_nil hpiece
  rw [List.cons_append, bareMove] at h
  split_ifs at h with hend hsingle hdouble hescape hactive hbracket
  · simp at h
  · simp at h
  · subst hescape
    cases hrest : piece ++ (text ++ after) with
    | nil =>
      simp only [List.append_eq_nil_iff] at hrest
      exact absurd hrest.2.2 hafter
    | cons d others =>
      rw [hrest, escapeMove] at h
      split_ifs at h
      · simp at h
      · simp only [Move.eat.injEq] at h
        obtain ⟨hlen, hout, -⟩ := h
        rw [← hout] at hlen
        simp at hlen
  · simp only [Move.eat.injEq] at h
    obtain ⟨-, hout, rfl⟩ := h
    obtain rfl : [] = piece := (List.cons.inj hout).2
    refine ⟨c, rfl, rfl, ?_, ?_⟩
    · rw [isPlainChar_iff]
      exact ⟨by simpa using hend, hsingle, hdouble, hescape, by simpa using hactive⟩
    · intro hopen
      simpa [hopen] using hbracket

/-- What ends a word is not looked past for the end of a bracket expression. -/
theorem closesBracket_append (hafter : ∃ c tail, after = c :: tail ∧ endsWord c = true) :
    closesBracket (text ++ after) = closesBracket text := by
  obtain ⟨c, tail, rfl, hc⟩ := hafter
  have htake : (text ++ c :: tail).takeWhile (fun c => !(endsWord c || c == '/')) =
      text.takeWhile fun c => !(endsWord c || c == '/') := by
    refine (takeWhile_append_of_head text ?_).1
    intro b hb
    obtain rfl : c = b := by simpa using hb
    simp [hc]
  rw [closesBracket, htake, closesBracket]

/-- Texts that are read off as they stand within a word. -/
structure PlainRest (text : List Char) : Prop where
  chars : ∀ c ∈ text, isPlainChar c = true
  brackets : ∀ front rest, text = front ++ '[' :: rest → closesBracket rest = false

theorem plainRest_nil : PlainRest [] where
  chars := by simp
  brackets front rest h := by simp at h

theorem plainRest_cons : PlainRest (c :: text) ↔
    isPlainChar c = true ∧ (c = '[' → closesBracket text = false) ∧ PlainRest text := by
  constructor
  · rintro ⟨hchars, hbrackets⟩
    rw [List.forall_mem_cons] at hchars
    refine ⟨hchars.1, fun h => hbrackets [] text (by rw [h]; rfl), hchars.2, fun front rest h => ?_⟩
    exact hbrackets (c :: front) rest (by rw [h]; rfl)
  · rintro ⟨hc, hopen, hchars, hbrackets⟩
    refine ⟨List.forall_mem_cons.mpr ⟨hc, hchars⟩, fun front rest h => ?_⟩
    cases front with
    | nil =>
      obtain ⟨rfl, rfl⟩ := List.cons.inj h
      exact hopen rfl
    | cons d front => exact hbrackets front rest (List.cons.inj h).2

theorem verbatim_bare_iff (hafter : ∃ c tail, after = c :: tail ∧ endsWord c = true) :
    Verbatim shell after .bare text ↔ PlainRest text := by
  constructor
  · intro h
    generalize hs : Mode.bare = s at h
    induction h with
    | stop => exact plainRest_nil
    | @eat s next piece text hpiece hmove _ ih =>
      subst hs
      have hne : after ≠ [] := by
        obtain ⟨c, tail, rfl, -⟩ := hafter
        exact List.cons_ne_nil c tail
      obtain ⟨c, rfl, rfl, hc, hopen⟩ := plain_of_bareMove hpiece hne hmove
      rw [closesBracket_append hafter] at hopen
      exact plainRest_cons.mpr ⟨hc, hopen, ih rfl⟩
  · intro h
    induction text with
    | nil =>
      obtain ⟨c, tail, rfl, hc⟩ := hafter
      refine .stop ?_
      show bareMove .bare (c :: tail) = .stop
      rw [bareMove, if_pos hc]
    | cons c text ih =>
      obtain ⟨hc, hopen, htext⟩ := plainRest_cons.mp h
      refine Verbatim.cons ?_ (ih htext)
      exact bareMove_plain hc fun h => by rw [closesBracket_append hafter, hopen h]

/-- A text is read as one word, and as itself, if and only if it is plain. -/
theorem word_eq_iff (hafter : ∃ c tail, after = c :: tail ∧ endsWord c = true) :
    word (text ++ after) = some (text, after) ↔ Plain text := by
  rw [word, read_eq_iff]
  constructor
  · intro h
    cases h with
    | stop h =>
      obtain ⟨c, tail, rfl, hc⟩ := hafter
      simp only [shell, move, startMove] at h
      split_ifs at h with hblank hnone
      simp only [endsWord, isBlank, Bool.or_eq_true, beq_iff_eq] at hc
      tauto
    | @eat _ next piece text hpiece hmove hrest =>
      have hne : after ≠ [] := by
        obtain ⟨c, tail, rfl, -⟩ := hafter
        exact List.cons_ne_nil c tail
      obtain ⟨c, others, rfl⟩ := List.exists_cons_of_ne_nil hpiece
      change startMove (c :: (others ++ (text ++ after))) = _ at hmove
      rw [startMove] at hmove
      split_ifs at hmove with hblank hnone
      · simp at hmove
      · obtain ⟨d, heq, rfl, hc, hopen⟩ := plain_of_bareMove hpiece hne hmove
        obtain ⟨rfl, rfl⟩ := List.cons.inj heq
        rw [closesBracket_append hafter] at hopen
        obtain ⟨hchars, hbrackets⟩ :=
          plainRest_cons.mpr ⟨hc, hopen, (verbatim_bare_iff hafter).mp hrest⟩
        simp only [not_or] at hnone
        exact ⟨by simp, by simpa using ⟨hnone.2.2.1, hnone.2.2.2⟩, hchars, hbrackets⟩
  · rintro ⟨hne, hhead, hchars, hbrackets⟩
    obtain ⟨c, text, rfl⟩ := List.exists_cons_of_ne_nil hne
    obtain ⟨hc, hopen, htext⟩ := plainRest_cons.mp ⟨hchars, hbrackets⟩
    refine Verbatim.cons ?_ ((verbatim_bare_iff hafter).mpr htext)
    have hend := (isPlainChar_iff.mp hc).1
    show startMove (c :: (text ++ after)) = .eat 1 [c] .bare
    simp only [endsWord, isBlank, Bool.or_eq_false_iff, beq_eq_false_iff_ne] at hend
    have hhead' : c ≠ '#' ∧ c ≠ '~' := by simpa using hhead
    rw [startMove, if_neg (by tauto), if_neg (by simp [hend.1.2, hend.2, hhead'.1, hhead'.2])]
    exact bareMove_plain hc fun h => by rw [closesBracket_append hafter, hopen h]

end MiddleWhere.Shell
