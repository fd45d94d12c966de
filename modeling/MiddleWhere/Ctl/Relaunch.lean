import MiddleWhere.Lang.PowerShell

/-!
# The script of the elevated process

On Windows the command line tool starts itself again as Administrator through a script, in which
the executable, its arguments and two files for its output stand as single-quoted strings.
The quoting doubles the straight quote; PowerShell has four more.
-/

namespace MiddleWhere.Relaunch
open PowerShell

/-- A code point of a Windows path: its UTF-16 may have surrogates that are not paired. -/
inductive OsChar
  | char (c : Char)
  | surrogate (unit : UInt16)
deriving DecidableEq

abbrev OsString := List OsChar

def osString (s : String) : OsString := s.toList.map .char

/-- `to_string_lossy` -/
def toStringLossy (path : OsString) : String :=
  String.ofList (path.map fun
    | .char c => c
    | .surrogate _ => Char.ofNat 0xFFFD)

theorem toStringLossy_osString (s : String) : toStringLossy (osString s) = s := by
  simp [toStringLossy, osString, Function.comp_def]

/-! ## The script -/

/-- `format!("'{}'", s.replace('\'', "''"))` -/
def psSingleQuote (s : String) : String := String.ofList (singleQuote s.toList)

def buildInnerScript (exe : String) (args : List String) (out err : OsString) : String :=
  let outQ := psSingleQuote (toStringLossy out)
  let errQ := psSingleQuote (toStringLossy err)
  let invoke := args.foldl (fun invoke a => invoke ++ " " ++ psSingleQuote a)
    ("& " ++ psSingleQuote exe)
  "$code = 1; try \x7b [System.IO.File]::Open(" ++ outQ ++
    ", [IO.FileMode]::CreateNew, [IO.FileAccess]::Write, [IO.FileShare]::Read).Close(); " ++
    "[System.IO.File]::Open(" ++ errQ ++
    ", [IO.FileMode]::CreateNew, [IO.FileAccess]::Write, [IO.FileShare]::Read).Close() " ++
    "\x7d catch \x7b exit 1 \x7d; try \x7b " ++ invoke ++ " 1> " ++ outQ ++ " 2> " ++ errQ ++
    "; $code = $LASTEXITCODE \x7d catch \x7b [System.IO.File]::AppendAllText(" ++ errQ ++
    ", ($_ | Out-String)); $code = 1 \x7d; if ($null -eq $code) \x7b $code = 1 \x7d; " ++
    "exit $code"

/-- The command: after `&` the executable, then each argument after a blank. -/
def invocation (exe : String) (args : List String) : List Piece :=
  .quoted exe :: args.flatMap fun a => [.text " ", .quoted a]

/-- What the script is to say: create `out` and `err`, run `exe` with `args` into them. -/
def innerPieces (exe : String) (args : List String) (out err : String) : List Piece :=
  [.text "$code = 1; try \x7b [System.IO.File]::Open(", .quoted out,
    .text (", [IO.FileMode]::CreateNew, [IO.FileAccess]::Write, [IO.FileShare]::Read).Close(); " ++
      "[System.IO.File]::Open("), .quoted err,
    .text (", [IO.FileMode]::CreateNew, [IO.FileAccess]::Write, [IO.FileShare]::Read).Close() " ++
      "\x7d catch \x7b exit 1 \x7d; try \x7b " ++ "& ")] ++
  invocation exe args ++
  [.text " 1> ", .quoted out, .text " 2> ", .quoted err,
    .text "; $code = $LASTEXITCODE \x7d catch \x7b [System.IO.File]::AppendAllText(", .quoted err,
    .text (", ($_ | Out-String)); $code = 1 \x7d; if ($null -eq $code) \x7b $code = 1 \x7d; " ++
      "exit $code")]

/-- Read by PowerShell, the script runs exactly this command and opens exactly these files. -/
def RunsExactly (script exe : String) (args : List String) (out err : OsString) : Prop :=
  ∃ o e, out = osString o ∧ err = osString e ∧
    lex script.toList = some (meant (innerPieces exe args o e))

/-! ## Rendering -/

variable {exe : String} {args : List String} {o e : String}

theorem toList_psSingleQuote (s : String) : (psSingleQuote s).toList = singleQuote s.toList :=
  String.toList_ofList

theorem toList_invoke (init : String) (args : List String) :
    (args.foldl (fun invoke a => invoke ++ " " ++ psSingleQuote a) init).toList =
      init.toList ++ render (args.flatMap fun a => [.text " ", .quoted a]) := by
  induction args generalizing init with
  | nil => simp [render]
  | cons a args ih =>
    rw [List.foldl_cons, ih]
    simp [render, Piece.render, toList_psSingleQuote]

theorem toList_buildInnerScript (o e : String) :
    (buildInnerScript exe args (osString o) (osString e)).toList =
      render (innerPieces exe args o e) := by
  unfold buildInnerScript innerPieces invocation
  -- the fixed text is long, and must not be taken apart into characters
  simp only [-String.reduceToList, -String.reduceAppend, toStringLossy_osString,
    String.toList_append, toList_invoke, toList_psSingleQuote, render, List.flatMap_append,
    List.flatMap_cons, List.flatMap_nil, Piece.render, List.append_assoc, List.append_nil,
    List.cons_append, List.nil_append]

theorem apart_args {pieces : List Piece} (args : List String)
    (hpieces : ∀ a, Apart (.quoted a :: pieces)) (a : String) :
    Apart (.quoted a :: (args.flatMap fun a => [.text " ", .quoted a]) ++ pieces) := by
  induction args generalizing a with
  | nil => exact hpieces a
  | cons b args ih => exact ⟨by decide, by decide, ih b⟩

theorem apart_innerPieces (exe : String) (args : List String) (o e : String) :
    Apart (innerPieces exe args o e) := by
  refine ⟨by decide +kernel, by decide, by decide +kernel, by decide, by decide +kernel, ?_⟩
  refine apart_args args (fun a => ?_) exe
  exact ⟨by decide, by decide +kernel, by decide, by decide +kernel, by decide, by decide +kernel,
    by decide, by decide +kernel, trivial⟩

theorem quoted_mem_innerPieces {s : String} : .quoted s ∈ innerPieces exe args o e ↔
    s = o ∨ s = e ∨ s = exe ∨ s ∈ args := by
  simp [innerPieces, invocation]
  tauto

theorem RunsExactly.straight {out err : OsString}
    (h : RunsExactly (buildInnerScript exe args out err) exe args out err) :
    Straight exe ∧ (∀ a ∈ args, Straight a) ∧
      (∃ o, out = osString o ∧ Straight o) ∧ ∃ e, err = osString e ∧ Straight e := by
  obtain ⟨o, e, rfl, rfl, hlex⟩ := h
  rw [toList_buildInnerScript, lex_render_iff (apart_innerPieces exe args o e)] at hlex
  refine ⟨hlex exe ?_, fun a ha => hlex a ?_, ⟨o, rfl, hlex o ?_⟩, e, rfl, hlex e ?_⟩
  · exact quoted_mem_innerPieces.mpr (by simp)
  · exact quoted_mem_innerPieces.mpr (by simp [ha])
  · exact quoted_mem_innerPieces.mpr (by simp)
  · exact quoted_mem_innerPieces.mpr (by simp)

/-- The elevated process runs exactly the intended command into the intended files if and only
if no curly single quote is anywhere in them and the paths of the files are Unicode. -/
theorem buildInnerScript_runsExactly_iff (exe : String) (args : List String)
    (out err : OsString) :
    RunsExactly (buildInnerScript exe args out err) exe args out err ↔
      Straight exe ∧ (∀ a ∈ args, Straight a) ∧
        (∃ o, out = osString o ∧ Straight o) ∧ ∃ e, err = osString e ∧ Straight e := by
  constructor
  · exact RunsExactly.straight
  · rintro ⟨hexe, hargs, ⟨o, rfl, ho⟩, e, rfl, he⟩
    refine ⟨o, e, rfl, rfl, ?_⟩
    rw [toList_buildInnerScript, lex_render_iff (apart_innerPieces exe args o e)]
    intro s hs
    obtain rfl | rfl | rfl | hs := quoted_mem_innerPieces.mp hs
    · exact ho
    · exact he
    · exact hexe
    · exact hargs s hs

/-- An argument with two curly quotes: what stands between them is read as code. -/
theorem buildInnerScript_not_exact :
    let script := buildInnerScript "mwsqlctl.exe" ["’;calc;’"] (osString "o") (osString "e")
    ¬ RunsExactly script "mwsqlctl.exe" ["’;calc;’"] (osString "o") (osString "e") ∧
      (lex script.toList).any (fun toks => toks.tails.any (";calc;".toList.map Token.ch).isPrefixOf) =
        true := by
  constructor
  · intro h
    obtain ⟨-, hargs, -⟩ := h.straight
    exact absurd (hargs _ (List.mem_singleton_self _) '’' (by decide)) (by decide)
  · decide +kernel

end MiddleWhere.Relaunch
