import MiddleWhere.Ctl.Installer

/-!
# Which paths the artifacts preserve

A path goes into a unit, a script and a property list as it is, so it has to mean itself in all of
their languages.
-/

namespace MiddleWhere.Installer

/-! ## Fixed text behind a hole -/

theorem render_fixed (p : InstallParams) (text : String) (rest : List Piece) :
    render p (.fixed text :: rest) = text.toList ++ render p rest := rfl

theorem render_fixed_head (p : InstallParams) {text : String} (rest : List Piece) {c : Char}
    (h : text.toList.head? = some c) : ∃ tail, render p (.fixed text :: rest) = c :: tail := by
  obtain ⟨tail, htail⟩ := List.head?_eq_some_iff.mp h
  exact ⟨tail ++ render p rest, by rw [render_fixed, htail, List.cons_append]⟩

/-! ## Paths that mean themselves -/

/-- A text that the shell, systemd, XML and PowerShell all take for itself. -/
structure Portable (path : List Char) : Prop where
  shell : Shell.Plain path
  noReturn : '\r' ∉ path
  xml : ∀ c ∈ path, Xml.isXmlChar c = true
  literal : ∀ c ∈ path, PowerShell.isSingleQuote c = false
  specifiers : Systemd.Unspecified path

variable {path after : List Char} {c : Char}

theorem mem_of_shell (h : Shell.Plain path) (hc : Shell.isPlainChar c = false) : c ∉ path := fun hmem => by
  rw [h.chars c hmem] at hc
  cases hc

theorem systemd_plainChar (hshell : Shell.isPlainChar c = true) (hreturn : c ≠ '\r') :
    Systemd.isPlainChar c = true := by
  obtain ⟨hend, hsingle, hdouble, hback, -⟩ := Shell.isPlainChar_iff.mp hshell
  simp only [Shell.endsWord, Shell.isBlank, Bool.or_eq_false_iff, beq_eq_false_iff_ne] at hend
  simp [Systemd.isPlainChar, Systemd.isBlank, Systemd.endsLine, Systemd.isQuote, hend, hsingle,
    hdouble, hback, hreturn]

theorem xml_plainChar (hshell : Shell.isPlainChar c = true) (hreturn : c ≠ '\r')
    (hxml : Xml.isXmlChar c = true) : Xml.isPlainChar c = true := by
  obtain ⟨hend, -⟩ := Shell.isPlainChar_iff.mp hshell
  simp only [Shell.endsWord, Bool.or_eq_false_iff] at hend
  refine Xml.isPlainChar_iff.mpr ⟨hxml, ?_, ?_, hreturn⟩
  · rintro rfl
    exact absurd hend.2 (by decide)
  · rintro rfl
    exact absurd hend.2 (by decide)

/-- What a word of the shell is to the other languages. -/
theorem systemd_word_iff (h : Shell.Plain path) :
    (path ≠ [] ∧ ∀ c ∈ path, Systemd.isPlainChar c = true) ↔ '\r' ∉ path := by
  constructor
  · rintro ⟨-, hchars⟩ hmem
    exact absurd (hchars _ hmem) (by decide)
  · intro hreturn
    refine ⟨h.nonempty, fun c hc => systemd_plainChar (h.chars c hc) ?_⟩
    rintro rfl
    exact hreturn hc

theorem xml_text_iff (h : Shell.Plain path) {suffix : List Char} (hsuffix : Xml.Plain suffix)
    (hend : '>' ∉ suffix) :
    Xml.Plain (path ++ suffix) ↔ '\r' ∉ path ∧ ∀ c ∈ path, Xml.isXmlChar c = true := by
  constructor
  · rintro ⟨hchars, -⟩
    have hpath : ∀ c ∈ path, Xml.isPlainChar c = true := fun c hc =>
      hchars c (List.mem_append_left _ hc)
    refine ⟨fun hmem => ?_, fun c hc => (Xml.isPlainChar_iff.mp (hpath c hc)).1⟩
    exact absurd (hpath _ hmem) (by decide)
  · rintro ⟨hreturn, hxml⟩
    refine ⟨fun c hc => ?_, fun hpart => ?_⟩
    · obtain hc | hc := List.mem_append.mp hc
      · refine xml_plainChar (h.chars c hc) ?_ (hxml c hc)
        rintro rfl
        exact hreturn hc
      · exact hsuffix.chars c hc
    · have hmem := hpart.subset (show '>' ∈ "]]>".toList by decide)
      obtain hmem | hmem := List.mem_append.mp hmem
      · exact mem_of_shell h (by decide) hmem
      · exact hend hmem

/-! ## Holes -/

/-- What ends a path is behind the hole. -/
def Use.Followed (after : List Char) : Use → Prop
  | .execPath | .execArg | .readWritePath => ∃ c tail, after = c :: tail ∧ Systemd.isBlank c = true
  | .shellWord => ∃ c tail, after = c :: tail ∧ Shell.endsWord c = true
  | .elementText suffix =>
    Xml.Plain suffix.toList ∧ '>' ∉ suffix.toList ∧ ∃ tail, after = suffix.toList ++ '<' :: tail
  | .literal => ∃ q d tail, after = q :: d :: tail ∧ PowerShell.isSingleQuote q = true ∧
      PowerShell.isSingleQuote d = false

/-- What a use asks of a path that is a plain word of the shell. -/
def Use.Admits (path : List Char) : Use → Prop
  | .execPath => '\r' ∉ path ∧
      (∀ c, path.head? = some c → Systemd.execPrefixes.contains c = false) ∧ Systemd.Unspecified path
  | .execArg => '\r' ∉ path ∧ Systemd.Unspecified path
  | .readWritePath => '\r' ∉ path ∧ (path.head? ≠ some '-' ∧ path.head? ≠ some '+') ∧
      Systemd.Unspecified path
  | .shellWord => True
  | .elementText _ => '\r' ∉ path ∧ ∀ c ∈ path, Xml.isXmlChar c = true
  | .literal => ∀ c ∈ path, PowerShell.isSingleQuote c = false

theorem reads_iff {use : Use} (hshell : Shell.Plain path) (hafter : use.Followed after) :
    use.Reads path after ↔ use.Admits path := by
  have hback : '\\' ∉ path := mem_of_shell hshell (by decide)
  cases use with
  | execPath => exact (Systemd.execPath_eq_iff hafter hback).trans (by rw [systemd_word_iff hshell]; rfl)
  | execArg =>
    have hdollar : '$' ∉ path := mem_of_shell hshell (by decide)
    have hsemicolon : ';' ∉ path := mem_of_shell hshell (by decide)
    exact (Systemd.execArg_eq_iff hafter hback hdollar hsemicolon).trans
      (by rw [systemd_word_iff hshell]; rfl)
  | readWritePath =>
    exact (Systemd.readWritePath_eq_iff hafter hback).trans (by rw [systemd_word_iff hshell]; rfl)
  | shellWord => exact ⟨fun _ => trivial, fun _ => (Shell.word_eq_iff hafter).mpr hshell⟩
  | elementText suffix =>
    obtain ⟨hplain, hend, tail, rfl⟩ := hafter
    have htext := (Xml.elementText_eq_iff tail).trans
      (xml_text_iff hshell hplain hend)
    rw [List.append_assoc] at htext
    constructor
    · rintro ⟨rest, hrest, hread⟩
      obtain rfl := List.append_cancel_left hrest
      exact htext.mp hread
    · exact fun h => ⟨_, rfl, htext.mpr h⟩
  | literal => exact PowerShell.literalText_eq_iff hafter

/-- Behind every hole there is what ends a path. -/
def Framed (p : InstallParams) : List Piece → Prop
  | [] => True
  | .exe use :: rest | .state use :: rest => use.Followed (render p rest) ∧ Framed p rest
  | .fixed _ :: rest | .lines _ :: rest | .svc :: rest | .remark :: rest => Framed p rest

/-- Every use in the artifact admits the path that is put there. -/
def Admitted (p : InstallParams) : List Piece → Prop
  | [] => True
  | .exe use :: rest => use.Admits p.execPath.toList ∧ Admitted p rest
  | .state use :: rest => use.Admits p.stateDir.toList ∧ Admitted p rest
  | .fixed _ :: rest | .lines _ :: rest | .svc :: rest | .remark :: rest => Admitted p rest

variable {p : InstallParams} {pieces : List Piece}

theorem preserved_iff_admitted (hexe : Shell.Plain p.execPath.toList)
    (hstate : Shell.Plain p.stateDir.toList) (hframed : Framed p pieces) :
    Preserved p pieces ↔ Admitted p pieces := by
  induction pieces with
  | nil => rfl
  | cons piece rest ih =>
    cases piece with
    | fixed text => exact ih hframed
    | lines ls => exact ih hframed
    | svc => exact ih hframed
    | remark => exact ih hframed
    | exe use => exact and_congr (reads_iff hexe hframed.1) (ih hframed.2)
    | state use => exact and_congr (reads_iff hstate hframed.1) (ih hframed.2)

/-! ## The artifacts -/

theorem followed_blank (rest : List Piece) {text : String} {c : Char}
    (h : text.toList.head? = some c) (hc : Systemd.isBlank c = true) :
    ∃ c tail, render p (.fixed text :: rest) = c :: tail ∧ Systemd.isBlank c = true := by
  obtain ⟨tail, htail⟩ := render_fixed_head p rest h
  exact ⟨c, tail, htail, hc⟩

theorem followed_word (rest : List Piece) {text : String} {c : Char}
    (h : text.toList.head? = some c) (hc : Shell.endsWord c = true) :
    ∃ c tail, render p (.fixed text :: rest) = c :: tail ∧ Shell.endsWord c = true := by
  obtain ⟨tail, htail⟩ := render_fixed_head p rest h
  exact ⟨c, tail, htail, hc⟩

theorem followed_tag (rest : List Piece) {suffix text : String} {tag : List Char}
    (h : text.toList = suffix.toList ++ '<' :: tag) :
    ∃ tail, render p (.fixed text :: rest) = suffix.toList ++ '<' :: tail :=
  ⟨tag ++ render p rest, by rw [render_fixed, h, List.append_assoc, List.cons_append]⟩

theorem followed_quote (rest : List Piece) :
    ∃ q d tail, render p (.fixed "'\n" :: rest) = q :: d :: tail ∧
      PowerShell.isSingleQuote q = true ∧ PowerShell.isSingleQuote d = false :=
  ⟨'\'', '\n', render p rest, rfl, rfl, rfl⟩

theorem xml_plain_suffix (suffix : String) (h : suffix.toList.all Xml.isPlainChar = true)
    (hend : '>' ∉ suffix.toList) : Xml.Plain suffix.toList ∧ '>' ∉ suffix.toList := by
  refine ⟨⟨List.all_eq_true.mp h, fun hpart => hend (hpart.subset (by decide))⟩, hend⟩

theorem framed_artifacts (p : InstallParams) : ∀ a ∈ artifacts, Framed p a := by
  have hempty := xml_plain_suffix "" (by decide) (by decide)
  have herr := xml_plain_suffix "/stderr.log" (by decide) (by decide)
  have hout := xml_plain_suffix "/stdout.log" (by decide) (by decide)
  simp only [artifacts, List.forall_mem_cons, List.not_mem_nil, false_implies, implies_true, and_true]
  refine ⟨?_, ?_, ?_, ?_, ?_, ?_, ?_⟩
  · exact ⟨followed_blank _ rfl rfl, followed_blank _ rfl rfl, trivial⟩
  · exact ⟨followed_blank _ rfl rfl, followed_blank _ rfl rfl, followed_blank _ rfl rfl, trivial⟩
  · exact ⟨followed_word _ rfl rfl, followed_word _ rfl rfl, followed_word _ rfl rfl, trivial⟩
  · exact ⟨⟨hempty.1, hempty.2, followed_tag _ rfl⟩, ⟨hempty.1, hempty.2, followed_tag _ rfl⟩,
      ⟨herr.1, herr.2, followed_tag _ rfl⟩, ⟨hout.1, hout.2, followed_tag _ rfl⟩, trivial⟩
  · exact ⟨followed_quote _, followed_quote _, trivial⟩
  · exact ⟨followed_word _ rfl rfl, followed_word _ rfl rfl, trivial⟩
  · exact ⟨followed_word _ rfl rfl, followed_word _ rfl rfl, followed_word _ rfl rfl, trivial⟩

theorem shell_of_preserved (h : ∀ a ∈ artifacts, Preserved p a) :
    Shell.Plain p.execPath.toList ∧ Shell.Plain p.stateDir.toList := by
  obtain ⟨hexe, hstate, -⟩ := h linuxOperatorSteps (by simp [artifacts])
  exact ⟨(Shell.word_eq_iff (followed_word _ rfl rfl)).mp hexe,
    (Shell.word_eq_iff (followed_word _ rfl rfl)).mp hstate⟩

/-- The artifacts give every path back if and only if both paths are portable, and neither begins
with a mark that systemd takes off. -/
theorem paths_preserved_iff (p : InstallParams) : (∀ a ∈ artifacts, Preserved p a) ↔
    (Portable p.execPath.toList ∧
      ∀ c, p.execPath.toList.head? = some c → Systemd.execPrefixes.contains c = false) ∧
    (Portable p.stateDir.toList ∧
      p.stateDir.toList.head? ≠ some '-' ∧ p.stateDir.toList.head? ≠ some '+') := by
  constructor
  · intro h
    obtain ⟨hexe, hstate⟩ := shell_of_preserved h
    have hadmitted : ∀ a ∈ artifacts, Admitted p a := fun a ha =>
      (preserved_iff_admitted hexe hstate (framed_artifacts p a ha)).mp (h a ha)
    obtain ⟨⟨hreturn, hprefix, hspec⟩, -, ⟨-, hmarks, hspec'⟩, -⟩ :=
      hadmitted systemdUnitFixedUser (by simp [artifacts])
    obtain ⟨⟨-, hxml⟩, ⟨hreturn', hxml'⟩, -⟩ := hadmitted launchdPlist (by simp [artifacts])
    obtain ⟨hliteral, hliteral', -⟩ := hadmitted windowsInstallPs1 (by simp [artifacts])
    exact ⟨⟨⟨hexe, hreturn, hxml, hliteral, hspec⟩, hprefix⟩,
      ⟨hstate, hreturn', hxml', hliteral', hspec'⟩, hmarks⟩
  · rintro ⟨⟨hexe, hprefix⟩, hstate, hmarks⟩ a ha
    refine (preserved_iff_admitted hexe.shell hstate.shell (framed_artifacts p a ha)).mpr ?_
    have hpath : Use.Admits p.execPath.toList .execPath := ⟨hexe.noReturn, hprefix, hexe.specifiers⟩
    have harg : Use.Admits p.stateDir.toList .execArg := ⟨hstate.noReturn, hstate.specifiers⟩
    have hwrite : Use.Admits p.stateDir.toList .readWritePath :=
      ⟨hstate.noReturn, hmarks, hstate.specifiers⟩
    have hexml : ∀ suffix, Use.Admits p.execPath.toList (.elementText suffix) := fun _ =>
      ⟨hexe.noReturn, hexe.xml⟩
    have hsxml : ∀ suffix, Use.Admits p.stateDir.toList (.elementText suffix) := fun _ =>
      ⟨hstate.noReturn, hstate.xml⟩
    revert a
    simp only [artifacts, List.forall_mem_cons, List.not_mem_nil, false_implies, implies_true, and_true]
    refine ⟨?_, ?_, ?_, ?_, ?_, ?_, ?_⟩
    · exact ⟨hpath, harg, trivial⟩
    · exact ⟨hpath, harg, hwrite, trivial⟩
    · exact ⟨trivial, trivial, trivial, trivial⟩
    · exact ⟨hexml _, hsxml _, hsxml _, hsxml _, trivial⟩
    · exact ⟨hexe.literal, hstate.literal, trivial⟩
    · exact ⟨trivial, trivial, trivial⟩
    · exact ⟨trivial, trivial, trivial, trivial⟩

/-- The default state directory of macOS: `mkdir` gets the part before the blank. -/
theorem macosDefault_split :
    (¬ ∀ a ∈ artifacts, Preserved ⟨"mwsqld", "/usr/local/bin/mwsqld",
      "/Library/Application Support/middlewhere"⟩ a) ∧
    Shell.word "/Library/Application Support/middlewhere\n".toList =
      some ("/Library/Application".toList, " Support/middlewhere\n".toList) := by
  constructor
  · intro h
    have hblank := (shell_of_preserved h).2.chars ' ' (by decide)
    exact absurd hblank (by decide)
  · decide +kernel

end MiddleWhere.Installer
