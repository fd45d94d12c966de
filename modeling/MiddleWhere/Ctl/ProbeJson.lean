import MiddleWhere.Data.Separators
import MiddleWhere.Data.Search
import MiddleWhere.Daemon.Handlers

/-!
# The lines of a connection test

The daemon prints a line of JSON for each environment it tested, and the admin program looks for
the fields by searching each line.
-/

namespace MiddleWhere.Ctl
open Search
open Daemon (EnvProbeResult)

/-! ## What is printed -/

/-- `{:04x}` -/
def hex04 (n : ℕ) : List Char :=
  List.replicate (4 - (Nat.toDigits 16 n).length) '0' ++ Nat.toDigits 16 n

def escapeChar (c : Char) : List Char :=
  if c = '"' then ['\\', '"']
  else if c = '\\' then ['\\', '\\']
  else if c = '\n' then ['\\', 'n']
  else if c = '\r' then ['\\', 'r']
  else if c = '\t' then ['\\', 't']
  else if c.toNat < 0x20 then '\\' :: 'u' :: hex04 c.toNat
  else [c]

def jsonEscape (s : String) : List Char := s.toList.flatMap escapeChar

def boolText (b : Bool) : List Char := (if b then "true" else "false").toList

def resultLine (r : EnvProbeResult) : List Char :=
  "\x7b\"ok\":".toList ++ boolText r.ok ++ ",\"supported\":".toList ++ boolText r.supported ++
    ",\"env\":\"".toList ++ jsonEscape r.env ++ "\",\"reason\":\"".toList ++ jsonEscape r.reason ++
    "\"\x7d".toList

def emptyMarker : List Char := "\x7b\"envs\":0\x7d".toList

/-- The standard output of `test --json`. -/
def testJson (results : List EnvProbeResult) : String :=
  if results.isEmpty then String.ofList (emptyMarker ++ ['\n'])
  else String.ofList (results.flatMap fun r => resultLine r ++ ['\n'])

/-! ## What is read -/

def unescaped (c : Char) : Char :=
  if c = 'n' then '\n' else if c = 'r' then '\r' else if c = 't' then '\t' else c

/-- The first argument counts the characters of a `\uXXXX` escape that are still to be dropped. -/
def unescapeFrom : ℕ → List Char → List Char
  | _, [] => []
  | skip + 1, _ :: cs => unescapeFrom skip cs
  | 0, [c] => if c = '\\' then [] else [c]
  | 0, c :: d :: cs =>
    if c ≠ '\\' then c :: unescapeFrom 0 (d :: cs)
    else if d = 'u' then Str.replacement :: unescapeFrom 4 cs
    else unescaped d :: unescapeFrom 0 cs

def unescape (cs : List Char) : List Char := unescapeFrom 0 cs

def extractReason (line : List Char) : Option (List Char) := do
  let rest ← findAfter "\"reason\":\"".toList line
  let value ← rfindBefore "\"\x7d".toList rest
  return unescape value

def extractField (line : List Char) (key : String) : Option (List Char) := do
  let rest ← findAfter ("\"" ++ key ++ "\":\"").toList line
  match Separators.cut '"' rest with
  | (value, some _) => return value
  | (_, none) => none

def trimmedLines (stdout : String) : List (List Char) :=
  (Daemon.lines stdout).map fun l => Str.trim l.toList

def hasEmptyMarker (stdout : String) : Bool := (trimmedLines stdout).any (· == emptyMarker)

/-- What `first_failure_reason` returns at this line, if it does not go on to the next one. -/
def failureOf (line : List Char) : Option (List Char) :=
  if line.head? ≠ some '\x7b' then none
  else if ¬ contains line "\"ok\":false".toList then none
  else if contains line "\"supported\":false".toList then none
  else
    let r := (extractReason line).getD []
    if !r.isEmpty then some r
    else
      match extractField line "env" with
      | some e => some ("env ".toList ++ e ++ " failed".toList)
      | none => some "connection failed".toList

def firstFailureReason (stdout : String) : Option String :=
  ((trimmedLines stdout).findSome? failureOf).map String.ofList

def skipNote : Option (List Char) → List (List Char) → Option (List Char)
  | note, [] => note
  | note, line :: rest =>
    if line.head? ≠ some '\x7b' then skipNote note rest
    else if contains line "\"ok\":true".toList then none
    else if contains line "\"supported\":false".toList && note.isNone then
      skipNote (some ((extractReason line).getD [])) rest
    else skipNote note rest

def unsupportedOnlyReason (stdout : String) : Option String :=
  (skipNote none (trimmedLines stdout)).map fun r =>
    if r.isEmpty then "engine not supported yet" else String.ofList r

/-! ## Escaping -/

/-- A reason as it is shown: the control characters of JSON are replaced unless they have an
escape of their own. -/
def legibleChar (c : Char) : Char :=
  if c.toNat < 0x20 ∧ c ≠ '\n' ∧ c ≠ '\r' ∧ c ≠ '\t' then Str.replacement else c

def legible (reason : String) : String := String.ofList (reason.toList.map legibleChar)

theorem hex04_control {n : ℕ} (hn : n < 0x20) :
    (hex04 n).length = 4 ∧ '"' ∉ hex04 n ∧ '\\' ∉ hex04 n ∧ '\n' ∉ hex04 n := by
  have hall : ∀ n < 0x20, (hex04 n).length = 4 ∧ '"' ∉ hex04 n ∧ '\\' ∉ hex04 n ∧ '\n' ∉ hex04 n := by
    decide +kernel
  exact hall n hn

theorem escapeChar_guarded (c : Char) : Guarded '"' '\\' (escapeChar c) := by
  unfold escapeChar
  split_ifs with hq hb hn hr ht hctl
  · exact .escaped _ .nil
  · exact .escaped _ .nil
  · exact .escaped _ .nil
  · exact .escaped _ .nil
  · exact .escaped _ .nil
  · obtain ⟨-, hq, hb, -⟩ := hex04_control hctl
    exact .escaped _ (.of_plain hq hb)
  · exact .plain hq hb .nil

theorem jsonEscape_guarded (s : String) : Guarded '"' '\\' (jsonEscape s) :=
  Guarded.flatMap escapeChar_guarded s.toList

theorem escapeChar_newline (c : Char) : '\n' ∉ escapeChar c := by
  unfold escapeChar
  split_ifs with hq hb hn hr ht hctl
  · decide
  · decide
  · decide
  · decide
  · decide
  · obtain ⟨-, -, -, hn⟩ := hex04_control hctl
    simp [hn]
  · simpa using Ne.symm hn

theorem jsonEscape_newline (s : String) : '\n' ∉ jsonEscape s := by
  rw [jsonEscape, List.mem_flatMap]
  rintro ⟨c, -, hc⟩
  exact escapeChar_newline c hc

theorem unescapeFrom_drop (skip : ℕ) (cs : List Char) :
    unescapeFrom skip cs = unescapeFrom 0 (cs.drop skip) := by
  induction skip generalizing cs with
  | zero => rfl
  | succ skip ih =>
    cases cs with
    | nil => simp [unescapeFrom]
    | cons c cs => rw [unescapeFrom, ih, List.drop_succ_cons]

theorem unescape_plain {c : Char} (hc : c ≠ '\\') (cs : List Char) :
    unescape (c :: cs) = c :: unescape cs := by
  cases cs with
  | nil => simp [unescape, unescapeFrom, hc]
  | cons d cs => simp [unescape, unescapeFrom, hc]

theorem unescape_pair {d : Char} (hd : d ≠ 'u') (cs : List Char) :
    unescape ('\\' :: d :: cs) = unescaped d :: unescape cs := by
  simp [unescape, unescapeFrom, hd]

theorem unescape_unicode {digits : List Char} (hdigits : digits.length = 4) (cs : List Char) :
    unescape ('\\' :: 'u' :: (digits ++ cs)) = Str.replacement :: unescape cs := by
  rw [unescape, unescapeFrom, if_neg (by simp), if_pos rfl, unescapeFrom_drop,
    List.drop_left' hdigits]
  rfl

theorem unescape_escapeChar (c : Char) (cs : List Char) :
    unescape (escapeChar c ++ cs) = legibleChar c :: unescape cs := by
  unfold escapeChar
  split_ifs with hq hb hn hr ht hctl
  · subst hq
    exact unescape_pair (by decide) cs
  · subst hb
    exact unescape_pair (by decide) cs
  · subst hn
    exact unescape_pair (by decide) cs
  · subst hr
    exact unescape_pair (by decide) cs
  · subst ht
    exact unescape_pair (by decide) cs
  · rw [legibleChar, if_pos ⟨hctl, hn, hr, ht⟩]
    exact unescape_unicode (hex04_control hctl).1 cs
  · rw [legibleChar, if_neg (fun h => hctl h.1)]
    exact unescape_plain hb cs

/-- What the reader makes of an escaped text. -/
theorem unescape_jsonEscape (s : String) : unescape (jsonEscape s) = (legible s).toList := by
  rw [legible, String.toList_ofList, jsonEscape]
  induction s.toList with
  | nil => rfl
  | cons c cs ih => rw [List.flatMap_cons, unescape_escapeChar, ih, List.map_cons]

end MiddleWhere.Ctl
