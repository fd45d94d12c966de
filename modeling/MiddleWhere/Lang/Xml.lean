import MiddleWhere.Lang.Reading

/-!
# Text of an XML element

References are resolved and the ends of lines are all made line feeds. What is not well-formed is
not read.
-/

namespace MiddleWhere.Xml
open Reading

def isXmlChar (c : Char) : Bool :=
  let n := c.toNat
  n == 0x9 || n == 0xA || n == 0xD || (0x20 ≤ n && n ≤ 0xD7FF) || (0xE000 ≤ n && n ≤ 0xFFFD) ||
    0x10000 ≤ n

def namedReference (name : List Char) : Option Char :=
  if name = "amp".toList then some '&'
  else if name = "lt".toList then some '<'
  else if name = "gt".toList then some '>'
  else if name = "quot".toList then some '"'
  else if name = "apos".toList then some '\''
  else none

/-- What is between `&` and `;`. -/
def referent (name : List Char) : Option Char :=
  match name with
  | '#' :: 'x' :: digits => (numeral 16 digits).map Char.ofNat |>.filter isXmlChar
  | '#' :: digits => (numeral 10 digits).map Char.ofNat |>.filter isXmlChar
  | name => namedReference name

def referenceMove (rest : List Char) : Move Unit :=
  let name := rest.takeWhile (· != ';')
  if name.length < rest.length then
    match referent name with
    | some c => .eat (name.length + 2) [c] ()
    | none => .fail
  else .fail

def move : Unit → List Char → Move Unit
  | _, [] => .fail
  | _, c :: rest =>
    if c = '<' then .stop
    else if c = '&' then referenceMove rest
    else if c = ']' ∧ [']', '>'] <+: rest then .fail
    else if c = '\r' then .eat (if rest.head? = some '\n' then 2 else 1) ['\n'] ()
    else if isXmlChar c then .eat 1 [c] ()
    else .fail

theorem referenceMove_within (c : Char) (rest : List Char) :
    (referenceMove rest).Within (c :: rest) := by
  simp only [referenceMove]
  split_ifs with hlen
  · cases referent (rest.takeWhile (· != ';')) with
    | none => trivial
    | some d =>
      simp only [Move.Within, List.length_cons, List.length_nil]
      omega
  · trivial

theorem move_within (s : Unit) (text : List Char) : (move s text).Within text := by
  cases text with
  | nil => trivial
  | cons c rest =>
    simp only [move]
    split_ifs with hmarkup href hend hreturn hnewline hchar
    · trivial
    · exact referenceMove_within c rest
    · trivial
    · cases rest with
      | nil => simp at hnewline
      | cons d rest => simp [Move.Within]
    · simp [Move.Within]
    · simp [Move.Within]
    · trivial

def xml : Reader Unit := ⟨move, move_within⟩

/-- The text up to the next tag. -/
def elementText (text : List Char) : Option (List Char × List Char) := xml.read () text

/-! ## Plain text -/

def isPlainChar (c : Char) : Bool := isXmlChar c && c != '<' && c != '&' && c != '\r'

/-- Texts that stand for themselves. -/
structure Plain (text : List Char) : Prop where
  chars : ∀ c ∈ text, isPlainChar c = true
  ends : ¬ "]]>".toList <:+: text

variable {c : Char} {text rest after piece : List Char}

theorem isPlainChar_iff :
    isPlainChar c = true ↔ isXmlChar c = true ∧ c ≠ '<' ∧ c ≠ '&' ∧ c ≠ '\r' := by
  simp [isPlainChar, and_assoc]

theorem move_plain (hc : isPlainChar c = true) (hend : ¬ "]]>".toList <+: c :: rest) :
    move () (c :: rest) = .eat 1 [c] () := by
  obtain ⟨hchar, hmarkup, href, hreturn⟩ := isPlainChar_iff.mp hc
  have hend' : ¬ (c = ']' ∧ [']', '>'] <+: rest) := by
    rintro ⟨rfl, hpre⟩
    exact hend ((List.cons_prefix_cons).mpr ⟨rfl, hpre⟩)
  rw [move, if_neg hmarkup, if_neg href, if_neg hend', if_neg hreturn, if_pos hchar]

theorem plain_of_move (hpiece : piece ≠ [])
    (h : move () (piece ++ rest) = .eat piece.length piece ()) :
    ∃ c, piece = [c] ∧ isPlainChar c = true ∧ ¬ "]]>".toList <+: c :: rest := by
  obtain ⟨c, piece, rfl⟩ := List.exists_cons_of_ne_nil hpiece
  rw [List.cons_append, move] at h
  split_ifs at h with hmarkup href hend hreturn hnewline hchar
  · simp only [referenceMove] at h
    split_ifs at h
    cases hname : referent ((piece ++ rest).takeWhile (· != ';')) with
    | none =>
      rw [hname] at h
      cases h
    | some d =>
      rw [hname] at h
      simp only [Move.eat.injEq] at h
      obtain ⟨hlen, hout, -⟩ := h
      rw [← hout] at hlen
      simp at hlen
  · simp only [Move.eat.injEq] at h
    obtain ⟨-, hout, -⟩ := h
    rw [hreturn] at hout
    exact absurd (List.cons.inj hout).1 (by decide)
  · simp only [Move.eat.injEq] at h
    obtain ⟨-, hout, -⟩ := h
    rw [hreturn] at hout
    exact absurd (List.cons.inj hout).1 (by decide)
  · simp only [Move.eat.injEq] at h
    obtain ⟨-, hout, -⟩ := h
    obtain rfl : [] = piece := (List.cons.inj hout).2
    refine ⟨c, rfl, isPlainChar_iff.mpr ⟨hchar, hmarkup, href, hreturn⟩, fun hpre => hend ?_⟩
    obtain ⟨hc, hrest⟩ := List.cons_prefix_cons.mp hpre
    exact ⟨hc.symm, hrest⟩

/-- A part without the separator does not reach past it. -/
theorem prefix_append_iff {part tail : List Char} (hc : c ∉ part) :
    part <+: text ++ c :: tail ↔ part <+: text := by
  constructor
  · intro h
    have htext : text ++ [c] <+: text ++ c :: tail := ⟨tail, by simp⟩
    obtain hlen | hlen := le_or_gt part.length text.length
    · exact List.prefix_of_prefix_length_le h (List.prefix_append _ _) hlen
    · have hpre : text ++ [c] <+: part :=
        List.prefix_of_prefix_length_le htext h (by simpa using hlen)
      exact absurd (hpre.subset (by simp)) hc
  · exact fun h => h.trans (List.prefix_append _ _)

theorem plain_nil : Plain [] := ⟨by simp, by decide⟩

theorem plain_cons : Plain (c :: text) ↔
    isPlainChar c = true ∧ ¬ "]]>".toList <+: c :: text ∧ Plain text := by
  constructor
  · rintro ⟨hchars, hends⟩
    rw [List.forall_mem_cons] at hchars
    rw [List.infix_cons_iff, not_or] at hends
    exact ⟨hchars.1, hends.1, hchars.2, hends.2⟩
  · rintro ⟨hc, hpre, hchars, hends⟩
    refine ⟨List.forall_mem_cons.mpr ⟨hc, hchars⟩, ?_⟩
    rw [List.infix_cons_iff, not_or]
    exact ⟨hpre, hends⟩

/-- A text is read as itself if and only if it is plain. -/
theorem elementText_eq_iff (tail : List Char) :
    elementText (text ++ '<' :: tail) = some (text, '<' :: tail) ↔ Plain text := by
  have hmarkup : '<' ∉ "]]>".toList := by decide
  rw [elementText, read_eq_iff]
  constructor
  · intro h
    generalize hs : () = s at h
    induction h with
    | stop => exact plain_nil
    | @eat s next piece text hpiece hmove _ ih =>
      obtain ⟨c, rfl, hc, hend⟩ := plain_of_move hpiece hmove
      rw [← List.cons_append, prefix_append_iff hmarkup] at hend
      exact plain_cons.mpr ⟨hc, hend, ih rfl⟩
  · intro h
    induction text with
    | nil => exact .stop (by simp [xml, move])
    | cons c text ih =>
      obtain ⟨hc, hend, htext⟩ := plain_cons.mp h
      refine Verbatim.cons ?_ (ih htext)
      apply move_plain hc
      rwa [← List.cons_append, prefix_append_iff hmarkup]

end MiddleWhere.Xml
