import MiddleWhere.Ctl.ProbeJson

/-!
# What a connection test is read back as

An escaped name or reason has no quotation mark of its own, so a field that is searched for is
found where the daemon printed it and nowhere else.
-/

namespace MiddleWhere.Ctl
open Search
open Daemon (EnvProbeResult)

/-! ## Where a field is found -/

/-- The line up to the value of `env`. -/
def flagFields (ok supported : Bool) (rest : List Char) : List Char :=
  "\x7b\"ok\":".toList ++ (boolText ok ++ (",\"supported\":".toList ++ (boolText supported ++
    (",\"env\":".toList ++ rest))))

/-- The value of `reason` and the end of the line. -/
def reasonValue (r : EnvProbeResult) : List Char :=
  '"' :: (jsonEscape r.reason ++ '"' :: '\x7d' :: [])

def envValue (r : EnvProbeResult) : List Char :=
  '"' :: (jsonEscape r.env ++ '"' :: ',' :: ("\"reason\":".toList ++ reasonValue r))

variable {r : EnvProbeResult}

theorem resultLine_eq (r : EnvProbeResult) :
    resultLine r = flagFields r.ok r.supported (envValue r) := by
  have henv : ",\"env\":\"".toList = ",\"env\":".toList ++ ['"'] := by decide
  have hreason : "\",\"reason\":\"".toList = '"' :: ',' :: ("\"reason\":".toList ++ ['"']) := by
    decide
  have hend : "\"\x7d".toList = ['"', '\x7d'] := by decide
  unfold resultLine flagFields envValue reasonValue
  simp only [henv, hreason, hend, List.append_assoc, List.cons_append, List.nil_append,
    -String.reduceToList, -String.reduceAppend]

/-- A search for a field goes past the value of `env`. -/
theorem findAfter_envValue (r : EnvProbeResult) {key : List Char} (more : List Char) (hq : '"' ∉ key) (hb : '\\' ∉ key) :
    findAfter ('"' :: (key ++ '"' :: ':' :: more)) (envValue r) =
      findAfter ('"' :: (key ++ '"' :: ':' :: more))
        ('"' :: ',' :: ("\"reason\":".toList ++ reasonValue r)) :=
  (jsonEscape_guarded r.env).findAfter_value (by decide) hq hb (by decide)

theorem findAfter_reasonValue (r : EnvProbeResult) {key : List Char} (more : List Char) (hq : '"' ∉ key) (hb : '\\' ∉ key) :
    findAfter ('"' :: (key ++ '"' :: ':' :: more)) (reasonValue r) =
      findAfter ('"' :: (key ++ '"' :: ':' :: more)) ['"', '\x7d'] :=
  (jsonEscape_guarded r.reason).findAfter_value (by decide) hq hb (by decide)

theorem findAfter_values (r : EnvProbeResult) {key : List Char} (more : List Char)
    (hq : '"' ∉ key) (hb : '\\' ∉ key)
    (hmiddle : ∀ rest, findAfter ('"' :: (key ++ '"' :: ':' :: more))
      ('"' :: ',' :: ("\"reason\":".toList ++ '"' :: rest)) =
        findAfter ('"' :: (key ++ '"' :: ':' :: more)) ('"' :: rest)) :
    findAfter ('"' :: (key ++ '"' :: ':' :: more)) (envValue r) =
      findAfter ('"' :: (key ++ '"' :: ':' :: more)) ['"', '\x7d'] := by
  rw [findAfter_envValue r more hq hb, reasonValue, hmiddle]
  exact findAfter_reasonValue r more hq hb

theorem findAfter_ok (r : EnvProbeResult) (b : Bool) :
    findAfter ("\"ok\":".toList ++ boolText b) (envValue r) = none := by
  have hok : "\"ok\":".toList ++ boolText b = '"' :: ("ok".toList ++ '"' :: ':' :: boolText b) := rfl
  rw [hok, findAfter_values r _ (by decide) (by decide)]
  · cases b <;> rfl
  · intro rest
    cases b <;> rfl

theorem findAfter_supported (r : EnvProbeResult) :
    findAfter "\"supported\":false".toList (envValue r) = none := by
  have hsupported : "\"supported\":false".toList =
      '"' :: ("supported".toList ++ '"' :: ':' :: "false".toList) := by decide
  rw [hsupported, findAfter_values r _ (by decide) (by decide)]
  · rfl
  · intro rest
    rfl

theorem contains_okFalse (r : EnvProbeResult) :
    contains (resultLine r) "\"ok\":false".toList = !r.ok := by
  rw [resultLine_eq, contains]
  cases r.ok
  · cases r.supported <;> unfold flagFields <;> rfl
  · have hflags : findAfter "\"ok\":false".toList (flagFields true r.supported (envValue r)) =
        findAfter "\"ok\":false".toList (envValue r) := by
      cases r.supported <;> unfold flagFields <;> rfl
    rw [hflags]
    exact congrArg Option.isSome (findAfter_ok r false)

theorem contains_okTrue (r : EnvProbeResult) :
    contains (resultLine r) "\"ok\":true".toList = r.ok := by
  rw [resultLine_eq, contains]
  cases r.ok
  · have hflags : findAfter "\"ok\":true".toList (flagFields false r.supported (envValue r)) =
        findAfter "\"ok\":true".toList (envValue r) := by
      cases r.supported <;> unfold flagFields <;> rfl
    rw [hflags]
    exact congrArg Option.isSome (findAfter_ok r true)
  · cases r.supported <;> unfold flagFields <;> rfl

theorem contains_unsupported (r : EnvProbeResult) :
    contains (resultLine r) "\"supported\":false".toList = !r.supported := by
  rw [resultLine_eq, contains]
  cases r.supported
  · cases r.ok <;> unfold flagFields <;> rfl
  · have hflags : findAfter "\"supported\":false".toList (flagFields r.ok true (envValue r)) =
        findAfter "\"supported\":false".toList (envValue r) := by
      cases r.ok <;> unfold flagFields <;> rfl
    rw [hflags]
    exact congrArg Option.isSome (findAfter_supported r)

theorem extractReason_resultLine (r : EnvProbeResult) :
    extractReason (resultLine r) = some (legible r.reason).toList := by
  have hflags : findAfter "\"reason\":\"".toList (resultLine r) =
      findAfter "\"reason\":\"".toList (envValue r) := by
    rw [resultLine_eq]
    cases r.ok <;> cases r.supported <;> unfold flagFields <;> rfl
  have hreason : "\"reason\":\"".toList = '"' :: ("reason".toList ++ '"' :: ':' :: ['"']) := by decide
  have henv : findAfter "\"reason\":\"".toList (envValue r) =
      some (jsonEscape r.reason ++ "\"\x7d".toList) := by
    rw [hreason, findAfter_envValue r _ (by decide) (by decide)]
    rfl
  rw [extractReason, hflags, henv, Option.bind_eq_bind, Option.bind_some,
    rfindBefore_suffix (by decide), Option.bind_some, unescape_jsonEscape]
  rfl

/-! ## One line -/

theorem legible_eq_empty_iff {reason : String} : (legible reason).toList = [] ↔ reason = "" := by
  rw [legible, String.toList_ofList, List.map_eq_nil_iff, String.toList_eq_nil_iff]

theorem head_resultLine (r : EnvProbeResult) : (resultLine r).head? = some '\x7b' := by
  rw [resultLine_eq]
  unfold flagFields
  rfl

theorem failureOf_resultLine (h : r.ok = false → r.supported = true → r.reason ≠ "") :
    failureOf (resultLine r) =
      if !r.ok && r.supported then some (legible r.reason).toList else none := by
  unfold failureOf
  rw [head_resultLine, contains_okFalse, contains_unsupported, extractReason_resultLine]
  cases hok : r.ok with
  | true => simp
  | false =>
    cases hsupported : r.supported with
    | false => simp
    | true =>
      have hne : (legible r.reason).toList ≠ [] := mt legible_eq_empty_iff.mp (h hok hsupported)
      simp [hne]

/-- The note is carried along until a line reports a connection. -/
theorem skipNote_isSome (note : Option (List Char)) (results : List EnvProbeResult) :
    (skipNote note (results.map resultLine)).isSome = true ↔
      (∀ r ∈ results, r.ok = false) ∧ (note.isSome = true ∨ ∃ r ∈ results, r.supported = false) := by
  induction results generalizing note with
  | nil => simp [skipNote]
  | cons r results ih =>
    rw [List.map_cons, skipNote, head_resultLine, if_neg (by simp), contains_okTrue,
      contains_unsupported, extractReason_resultLine]
    cases hok : r.ok with
    | true => simp [hok]
    | false =>
      cases hsupported : r.supported with
      | true => simp [hok, hsupported, ih]
      | false => cases note <;> simp [hok, hsupported, ih]

/-! ## The lines of the output -/

theorem splitOn_ended {lines : List (List Char)} (h : ∀ l ∈ lines, '\n' ∉ l) :
    (lines.flatMap (· ++ ['\n'])).splitOn '\n' = lines ++ [[]] := by
  induction lines with
  | nil => rfl
  | cons l lines ih =>
    rw [List.forall_mem_cons] at h
    rw [List.flatMap_cons, List.append_assoc, List.singleton_append,
      List.splitOn_append_cons_self_of_not_mem h.1, ih h.2, List.cons_append]

theorem lines_ended {lines : List (List Char)} (hn : ∀ l ∈ lines, '\n' ∉ l)
    (hr : ∀ l ∈ lines, l.getLast? ≠ some '\r') :
    Daemon.lines (String.ofList (lines.flatMap (· ++ ['\n']))) = lines.map String.ofList := by
  have hkept : lines.map (fun l => if l.getLast? = some '\r' then l.dropLast else l) = lines := by
    conv_rhs => rw [← List.map_id lines]
    apply List.map_congr_left
    intro l hl
    rw [if_neg (hr l hl), id]
  rw [Daemon.lines, String.toList_ofList, splitOn_ended hn]
  simp [hkept]

theorem trim_framed {a b : Char} (ha : Str.isWhitespace a = false)
    (hb : Str.isWhitespace b = false) (middle : List Char) :
    Str.trim (a :: (middle ++ [b])) = a :: (middle ++ [b]) := by
  rw [Str.trim, Str.trimStart, List.dropWhile_cons_of_neg (by simp [ha])]
  have hrev : (a :: (middle ++ [b])).reverse = b :: (a :: middle).reverse := by simp
  rw [hrev, List.dropWhile_cons_of_neg (by simp [hb]), ← hrev, List.reverse_reverse]

/-- A line is all between its braces. -/
theorem resultLine_framed (r : EnvProbeResult) :
    ∃ middle, resultLine r = '\x7b' :: (middle ++ ['\x7d']) := by
  rw [resultLine_eq]
  refine ⟨"\"ok\":".toList ++ (boolText r.ok ++ (",\"supported\":".toList ++ (boolText r.supported ++
    (",\"env\":".toList ++ '"' :: (jsonEscape r.env ++ '"' :: ',' :: ("\"reason\":".toList ++
      '"' :: (jsonEscape r.reason ++ ['"']))))))), ?_⟩
  have hopen : "\x7b\"ok\":".toList = '\x7b' :: "\"ok\":".toList := by decide
  unfold flagFields envValue reasonValue
  simp only [hopen, List.append_assoc, List.cons_append, List.nil_append, -String.reduceToList,
    -String.reduceAppend]

theorem resultLine_newline (r : EnvProbeResult) : '\n' ∉ resultLine r := by
  have hbool : ∀ b, '\n' ∉ boolText b := by decide
  have henv := jsonEscape_newline r.env
  have hreason := jsonEscape_newline r.reason
  rw [resultLine_eq]
  unfold flagFields envValue reasonValue
  simp only [List.mem_append, List.mem_cons, not_or, hbool, henv, hreason, -String.reduceToList]
  decide

theorem trimmedLines_testJson {results : List EnvProbeResult} (h : results ≠ []) :
    trimmedLines (testJson results) = results.map resultLine := by
  have hlines : Daemon.lines (testJson results) = (results.map resultLine).map String.ofList := by
    have hflat : results.flatMap (fun r => resultLine r ++ ['\n']) =
        (results.map resultLine).flatMap (· ++ ['\n']) := by
      rw [List.flatMap_map]
    rw [testJson, if_neg (by simpa using h), hflat]
    apply lines_ended
    · intro l hl
      obtain ⟨r, -, rfl⟩ := List.mem_map.mp hl
      exact resultLine_newline r
    · intro l hl
      obtain ⟨r, -, rfl⟩ := List.mem_map.mp hl
      obtain ⟨middle, hmiddle⟩ := resultLine_framed r
      rw [hmiddle, ← List.cons_append, List.getLast?_append]
      simp
  rw [trimmedLines, hlines, List.map_map, List.map_map]
  apply List.map_congr_left
  intro r _
  obtain ⟨middle, hmiddle⟩ := resultLine_framed r
  simp only [Function.comp_apply, String.toList_ofList, hmiddle]
  exact trim_framed (by decide) (by decide) middle

theorem trimmedLines_empty : trimmedLines (testJson []) = [emptyMarker] := by
  decide +kernel

theorem resultLine_ne_emptyMarker (r : EnvProbeResult) : resultLine r ≠ emptyMarker := by
  intro h
  have htake : (resultLine r).take 3 = "\x7b\"o".toList := by
    rw [resultLine_eq]
    unfold flagFields
    rfl
  rw [h] at htake
  exact absurd htake (by decide)

/-! ## The pipe -/

theorem findSome_failureOf {results : List EnvProbeResult}
    (h : ∀ r ∈ results, r.ok = false → r.supported = true → r.reason ≠ "") :
    (results.map resultLine).findSome? failureOf =
      (results.find? fun r => !r.ok && r.supported).map fun r => (legible r.reason).toList := by
  induction results with
  | nil => rfl
  | cons r results ih =>
    rw [List.forall_mem_cons] at h
    rw [List.map_cons, List.findSome?_cons, failureOf_resultLine h.1, List.find?_cons]
    cases hfailed : !r.ok && r.supported with
    | true => simp
    | false => simpa using ih h.2

/-- The readers take from the lines of a test exactly its first failure, whether nothing but
unsupported engines was met, and whether nothing was tested. -/
theorem probeReaders_exact (results : List EnvProbeResult)
    (hreason : ∀ r ∈ results, r.ok = false → r.supported = true → r.reason ≠ "") :
    firstFailureReason (testJson results) =
        (results.find? fun r => !r.ok && r.supported).map (fun r => legible r.reason) ∧
      ((unsupportedOnlyReason (testJson results)).isSome = true ↔
        (∃ r ∈ results, r.supported = false) ∧ ∀ r ∈ results, r.ok = false) ∧
      (hasEmptyMarker (testJson results) = true ↔ results = []) := by
  by_cases hempty : results = []
  · subst hempty
    refine ⟨?_, ?_, ?_⟩
    · rw [firstFailureReason, trimmedLines_empty]
      decide +kernel
    · rw [unsupportedOnlyReason, trimmedLines_empty]
      have hnote : skipNote none [emptyMarker] = none := by decide +kernel
      simp [hnote]
    · rw [hasEmptyMarker, trimmedLines_empty]
      simp
  · rw [firstFailureReason, unsupportedOnlyReason, hasEmptyMarker, trimmedLines_testJson hempty]
    refine ⟨?_, ?_, ?_⟩
    · rw [findSome_failureOf hreason, Option.map_map]
      congr 1
      funext r
      exact String.ofList_toList
    · rw [Option.isSome_map, skipNote_isSome]
      simp [and_comm]
    · simp [resultLine_ne_emptyMarker, hempty]

/-- A reason that ends like a line and looks like a field, behind an unsupported engine. -/
theorem probeReaders_nasty :
    firstFailureReason (testJson
      [⟨"m", false, false, "engine mssql not supported yet"⟩,
        ⟨"a\",\"ok\":true", false, true, "\\\"\x7d \"ok\":true,\"reason\":\"\x7d\n"⟩]) =
      some "\\\"\x7d \"ok\":true,\"reason\":\"\x7d\n" := by
  rw [(probeReaders_exact _ (by decide)).1]
  decide +kernel

end MiddleWhere.Ctl
