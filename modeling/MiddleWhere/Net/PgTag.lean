import Mathlib
import MiddleWhere.Net.PgServer
import MiddleWhere.Sql.PgLexer

/-!
# The word that a statement's tag is taken from

`commandTag` reads the text up to the first white space or parenthesis, in upper case. A
comment opens with a character that no keyword has, so its first word is the tag.
-/

namespace MiddleWhere.Net

def endsWord (c : Char) : Bool := Str.isWhitespace c || c == '('

/-- After white space, and but for case, the text opens with `word`; with no word where a
parenthesis comes first or nothing does. -/
def OpensWith (text word : List Char) : Prop :=
  ∃ blank spelt rest, text = blank ++ (spelt ++ rest) ∧ (∀ c ∈ blank, Str.isWhitespace c) ∧
    (∀ c ∈ spelt, endsWord c = false) ∧
    (∀ c, rest.head? = some c → if spelt = [] then c = '(' else endsWord c = true) ∧
    toAsciiUppercase spelt = word

def openingWord (text : List Char) : List Char :=
  toAsciiUppercase ((Str.trimStart text).takeWhile fun c => !endsWord c)

def queryWords : List String := ["SELECT", "WITH", "VALUES", "SHOW", "TABLE"]

def dmlWords : List String := ["INSERT", "UPDATE", "DELETE"]

def tagLabels : List String := ["INSERT 0 ", "SELECT ", "UPDATE ", "DELETE "]

/-- The tag ends in a count of rows. -/
def Counts (tag : String) (n : ℕ) : Prop := ∃ label ∈ tagLabels, tag = label ++ toString n

/-! ## White space and comments -/

/-- White space and whole comments; a block comment is closed as the server's scanner counts
its depth. -/
inductive Trivia : List Char → Prop
  | nil : Trivia []
  | blank {c : Char} {cs : List Char} (hc : Str.isWhitespace c = true) (h : Trivia cs) :
    Trivia (c :: cs)
  | line {body cs : List Char} (hbody : '\n' ∉ body) (h : Trivia cs) :
    Trivia ('-' :: '-' :: (body ++ '\n' :: cs))
  | block {body cs : List Char}
    (hbody : Sql.Pg.blockLen 0 (body.flatMap String.utf8EncodeChar) =
      some (body.flatMap String.utf8EncodeChar).length) (h : Trivia cs) :
    Trivia ('/' :: '*' :: (body ++ cs))

def Blank (cs : List Char) : Prop := ∀ c ∈ cs, Str.isWhitespace c = true

/-- The characters that open a comment. -/
def commentMarks : List Char := ['-', '/']

theorem Trivia.blank_or_mark {cs : List Char} (h : Trivia cs) :
    Blank cs ∨ ∃ blank m rest, cs = blank ++ m :: rest ∧ Blank blank ∧ m ∈ commentMarks := by
  induction h with
  | nil => exact Or.inl (List.forall_mem_nil _)
  | @blank c cs hc h ih =>
    obtain hblank | ⟨blank, m, rest, rfl, hblank, hm⟩ := ih
    · exact Or.inl (List.forall_mem_cons.mpr ⟨hc, hblank⟩)
    · exact Or.inr ⟨c :: blank, m, rest, rfl, List.forall_mem_cons.mpr ⟨hc, hblank⟩, hm⟩
  | line hbody h ih => exact Or.inr ⟨[], '-', _, rfl, List.forall_mem_nil _, by decide⟩
  | block hbody h ih => exact Or.inr ⟨[], '/', _, rfl, List.forall_mem_nil _, by decide⟩

/-! ## The opening word -/

theorem trimStart_blank {blank cs : List Char} (h : Blank blank) :
    Str.trimStart (blank ++ cs) = Str.trimStart cs := by
  induction blank with
  | nil => rfl
  | cons c blank ih =>
    obtain ⟨hc, hblank⟩ := List.forall_mem_cons.mp h
    exact (List.dropWhile_cons_of_pos hc).trans (ih hblank)

theorem openingWord_blank {blank cs : List Char} (h : Blank blank) :
    openingWord (blank ++ cs) = openingWord cs := by
  unfold openingWord
  rw [trimStart_blank h]

theorem openingWord_spelt {spelt rest : List Char} (hspelt : ∀ c ∈ spelt, endsWord c = false)
    (hrest : ∀ c, rest.head? = some c → if spelt = [] then c = '(' else endsWord c = true) :
    openingWord (spelt ++ rest) = toAsciiUppercase spelt := by
  have hends : ∀ c, rest.head? = some c → endsWord c = true := by
    intro c hc
    have hc' := hrest c hc
    split_ifs at hc' with hnil
    · rw [hc']
      decide
    · exact hc'
  have hstart : Str.trimStart (spelt ++ rest) = spelt ++ rest := by
    cases spelt with
    | cons c spelt =>
      have hc := hspelt c List.mem_cons_self
      rw [endsWord, Bool.or_eq_false_iff] at hc
      exact List.dropWhile_cons_of_neg (by simp [hc.1])
    | nil =>
      cases rest with
      | nil => rfl
      | cons c rest =>
        obtain rfl : c = '(' := hrest c rfl
        exact List.dropWhile_cons_of_neg (by decide)
  have htake : (spelt ++ rest).takeWhile (fun c => !endsWord c) = spelt := by
    rw [List.takeWhile_append_of_pos (fun c hc => by simp [hspelt c hc])]
    cases rest with
    | nil => simp
    | cons c rest => rw [List.takeWhile_cons_of_neg (by simp [hends c rfl]), List.append_nil]
  unfold openingWord
  rw [hstart, htake]

theorem opensWith_openingWord (text : List Char) : OpensWith text (openingWord text) := by
  have hblank : Blank (text.takeWhile Str.isWhitespace) := fun c hc =>
    (List.mem_takeWhile_imp hc)
  refine ⟨text.takeWhile Str.isWhitespace, (Str.trimStart text).takeWhile fun c => !endsWord c,
    (Str.trimStart text).dropWhile fun c => !endsWord c, ?_, hblank, ?_, ?_, rfl⟩
  · rw [List.takeWhile_append_dropWhile]
    exact (List.takeWhile_append_dropWhile (p := Str.isWhitespace)).symm
  · intro c hc
    simpa using List.mem_takeWhile_imp hc
  · intro c hc
    have hends : endsWord c = true := by
      have hnot := List.head?_dropWhile_not (fun c => !endsWord c) (Str.trimStart text)
      rw [hc] at hnot
      simpa using hnot
    split_ifs with hnil
    · -- no word: what comes first is no white space
      have hhead : (Str.trimStart text).head? = some c := by
        have hall := List.takeWhile_append_dropWhile (p := fun c => !endsWord c)
          (l := Str.trimStart text)
        rw [hnil, List.nil_append] at hall
        rwa [hall] at hc
      have hnot := List.head?_dropWhile_not Str.isWhitespace text
      unfold Str.trimStart at hhead
      rw [hhead] at hnot
      simp only at hnot
      rw [endsWord, hnot, Bool.false_or, beq_iff_eq] at hends
      exact hends
    · exact hends

/-- A text opens with one word only: the one the tag is taken from. -/
theorem opensWith_iff {text word : List Char} : OpensWith text word ↔ openingWord text = word := by
  constructor
  · rintro ⟨blank, spelt, rest, rfl, hblank, hspelt, hrest, rfl⟩
    rw [openingWord_blank hblank, openingWord_spelt hspelt hrest]
  · rintro rfl
    exact opensWith_openingWord text

theorem openingWord_paren (cs : List Char) : openingWord ('(' :: cs) = [] := by
  have h : Str.trimStart ('(' :: cs) = '(' :: cs := List.dropWhile_cons_of_neg (by decide)
  unfold openingWord
  rw [h, List.takeWhile_cons_of_neg (by decide)]
  rfl

theorem commentMarks_plain {m : Char} (hm : m ∈ commentMarks) :
    Str.isWhitespace m = false ∧ endsWord m = false ∧ m.toUpper = m := by
  simp only [commentMarks, List.mem_cons, List.not_mem_nil, or_false] at hm
  rcases hm with rfl | rfl <;> decide

theorem openingWord_mark {blank rest : List Char} {m : Char} (hblank : Blank blank)
    (hm : m ∈ commentMarks) : ∃ cs, openingWord (blank ++ m :: rest) = m :: cs := by
  have hmark := commentMarks_plain hm
  have h : Str.trimStart (m :: rest) = m :: rest :=
    List.dropWhile_cons_of_neg (by simp [hmark.1])
  refine ⟨toAsciiUppercase (rest.takeWhile fun c => !endsWord c), ?_⟩
  rw [openingWord_blank hblank]
  unfold openingWord
  rw [h, List.takeWhile_cons_of_pos (by simp [hmark.2.1]), toAsciiUppercase, List.map_cons,
    hmark.2.2]
  rfl

/-! ## The tag -/

/-- What a count is put after. -/
def labelOf (word : String) : String :=
  if word = "INSERT" then "INSERT 0 "
  else if queryWords.contains word then "SELECT "
  else word ++ " "

theorem commandTag_eq (sql : String) (n : ℕ) : commandTag sql n =
    if String.ofList (openingWord sql.toList) = "INSERT" then "INSERT 0 " ++ toString n
    else if queryWords.contains (String.ofList (openingWord sql.toList)) then
      "SELECT " ++ toString n
    else if String.ofList (openingWord sql.toList) = "UPDATE" then "UPDATE " ++ toString n
    else if String.ofList (openingWord sql.toList) = "DELETE" then "DELETE " ++ toString n
    else if String.ofList (openingWord sql.toList) ≠ "" then
      String.ofList (openingWord sql.toList)
    else "SELECT 0" := rfl

theorem labelOf_mem : ∀ word ∈ queryWords ++ dmlWords, labelOf word ∈ tagLabels := by decide

theorem commandTag_counted {sql word : String} (n : ℕ)
    (h : openingWord sql.toList = word.toList) (hword : word ∈ queryWords ++ dmlWords) :
    commandTag sql n = labelOf word ++ toString n := by
  rw [commandTag_eq, h, String.ofList_toList]
  simp only [queryWords, dmlWords, List.cons_append, List.nil_append, List.mem_cons,
    List.not_mem_nil, or_false] at hword
  rcases hword with rfl | rfl | rfl | rfl | rfl | rfl | rfl | rfl <;> rfl

theorem commandTag_paren {sql : String} (n : ℕ) (h : openingWord sql.toList = []) :
    commandTag sql n = "SELECT 0" := by
  rw [commandTag_eq, h]
  rfl

theorem commandTag_other {sql : String} (n : ℕ) (hne : openingWord sql.toList ≠ [])
    (h : ∀ word ∈ queryWords ++ dmlWords, openingWord sql.toList ≠ word.toList) :
    commandTag sql n = String.ofList (openingWord sql.toList) := by
  have hword : ∀ word ∈ queryWords ++ dmlWords,
      String.ofList (openingWord sql.toList) ≠ word := by
    rintro word hmem rfl
    exact h _ hmem String.toList_ofList.symm
  have hquery : queryWords.contains (String.ofList (openingWord sql.toList)) = false := by
    rw [List.contains_eq_mem, decide_eq_false_iff_not]
    exact fun hmem => hword _ (List.mem_append_left _ hmem) rfl
  have hempty : String.ofList (openingWord sql.toList) ≠ "" := by
    intro heq
    exact hne (by simpa using congrArg String.toList heq)
  rw [commandTag_eq, if_neg (hword "INSERT" (by decide)), hquery, if_neg Bool.false_ne_true,
    if_neg (hword "UPDATE" (by decide)), if_neg (hword "DELETE" (by decide)), if_pos hempty]

/-- How a text's tag comes about. -/
theorem opening_cases (text : List Char) :
    (∃ word ∈ queryWords ++ dmlWords, openingWord text = word.toList) ∨ openingWord text = [] ∨
      openingWord text ≠ [] ∧
        ∀ word ∈ queryWords ++ dmlWords, openingWord text ≠ word.toList := by
  by_cases hword : ∃ word ∈ queryWords ++ dmlWords, openingWord text = word.toList
  · exact Or.inl hword
  · push_neg at hword
    by_cases hnil : openingWord text = []
    · exact Or.inr (Or.inl hnil)
    · exact Or.inr (Or.inr ⟨hnil, hword⟩)

theorem toUpper_ne_space {c : Char} (h : c ≠ ' ') : c.toUpper ≠ ' ' := by
  by_cases hlower : c.toNat - 97 < 26 ∧ 97 ≤ c.toNat
  · have hletters : ∀ k : Fin 26, (Char.ofNat (97 + k.val)).toUpper ≠ ' ' := by decide
    have hc := hletters ⟨c.toNat - 97, hlower.1⟩
    rwa [show 97 + (c.toNat - 97) = c.toNat by omega, Char.ofNat_toNat] at hc
  · have hsame : c.toUpper = c := by
      unfold Char.toUpper
      refine dif_neg fun hrange => hlower ?_
      have hlow : 97 ≤ c.toNat := hrange.1
      have hhigh : c.toNat ≤ 122 := hrange.2
      omega
    rwa [hsame]

theorem space_not_mem_openingWord (text : List Char) : ' ' ∉ openingWord text := by
  intro hmem
  obtain ⟨c, hc, hupper⟩ := List.mem_map.mp hmem
  have hplain : endsWord c = false := by simpa using List.mem_takeWhile_imp hc
  refine toUpper_ne_space ?_ hupper
  rintro rfl
  exact absurd hplain (by decide)

theorem tagLabels_head : ∀ a ∈ tagLabels, ∀ b ∈ tagLabels,
    a.toList.head? = b.toList.head? → a = b := by decide

theorem tagLabels_space : ∀ label ∈ tagLabels, ' ' ∈ label.toList := by decide

theorem label_injective {label label' : String} {n m : ℕ} (hlabel : label ∈ tagLabels)
    (hlabel' : label' ∈ tagLabels) (h : label ++ toString n = label' ++ toString m) :
    label = label' ∧ n = m := by
  have hne : ∀ a ∈ tagLabels, a.toList ≠ [] := by decide
  have hhead : ∀ a ∈ tagLabels, ∀ k : ℕ, (a ++ toString k).toList.head? = a.toList.head? := by
    intro a ha k
    rw [String.toList_append, List.head?_append_of_ne_nil _ (hne a ha)]
  obtain rfl : label = label' := by
    apply tagLabels_head label hlabel label' hlabel'
    rw [← hhead label hlabel n, ← hhead label' hlabel' m, h]
  have hcount := congrArg String.toList h
  rw [String.toList_append, String.toList_append, List.append_cancel_left_eq] at hcount
  exact ⟨rfl, Nat.repr_injective (String.toList_inj.mp hcount)⟩

theorem counts_label {label : String} {n m : ℕ} (hlabel : label ∈ tagLabels) :
    Counts (label ++ toString n) m ↔ m = n := by
  constructor
  · rintro ⟨label', hlabel', heq⟩
    exact (label_injective hlabel hlabel' heq).2.symm
  · rintro rfl
    exact ⟨label, hlabel, rfl⟩

theorem counts_paren {m : ℕ} : Counts "SELECT 0" m ↔ m = 0 := by
  have hlabel : "SELECT " ∈ tagLabels := by decide
  exact counts_label (n := 0) hlabel

/-- A word alone is no count. -/
theorem not_counts_word (text : List Char) (n : ℕ) :
    ¬ Counts (String.ofList (openingWord text)) n := by
  rintro ⟨label, hlabel, heq⟩
  have hchars := congrArg String.toList heq
  rw [String.toList_ofList, String.toList_append] at hchars
  apply space_not_mem_openingWord text
  rw [hchars]
  exact List.mem_append_left _ (tagLabels_space label hlabel)

theorem counts_commandTag_iff {sql : String} {n m : ℕ} : Counts (commandTag sql n) m ↔
    (∃ word ∈ queryWords ++ dmlWords, openingWord sql.toList = word.toList) ∧ m = n ∨
      openingWord sql.toList = [] ∧ m = 0 := by
  have hnonempty : ∀ word ∈ queryWords ++ dmlWords, word.toList ≠ [] := by decide
  obtain ⟨word, hword, hopen⟩ | hnil | ⟨hne, hother⟩ := opening_cases sql.toList
  · rw [commandTag_counted n hopen hword, counts_label (labelOf_mem word hword)]
    have hopen' : openingWord sql.toList ≠ [] := hopen ▸ hnonempty word hword
    simp only [hopen', false_and, or_false]
    exact ⟨fun h => ⟨⟨word, hword, hopen⟩, h⟩, And.right⟩
  · rw [commandTag_paren n hnil, counts_paren]
    refine ⟨fun h => Or.inr ⟨hnil, h⟩, ?_⟩
    rintro (⟨⟨word, hword, hopen⟩, -⟩ | ⟨-, h⟩)
    · exact absurd (hopen.symm.trans hnil) (hnonempty word hword)
    · exact h
  · rw [commandTag_other n hne hother]
    refine iff_of_false (not_counts_word _ _) ?_
    rintro (⟨⟨word, hword, hopen⟩, -⟩ | ⟨hnil, -⟩)
    · exact hother word hword hopen
    · exact hne hnil

/-! ## Two texts with one tag -/

theorem commandTag_congr {sql sql' : String} (n : ℕ)
    (h : openingWord sql'.toList = openingWord sql.toList) :
    commandTag sql' n = commandTag sql n := by
  rw [commandTag_eq, commandTag_eq, h]

/-- A comment's first word is the tag of no text that opens with another word. -/
theorem commandTag_mark_iff {sql sql' : String} {n : ℕ} {m : Char} {cs : List Char}
    (hm : m ∈ commentMarks) (hopen : openingWord sql'.toList = m :: cs) :
    commandTag sql' n = commandTag sql n ↔
      openingWord sql'.toList = openingWord sql.toList := by
  have hletters : ∀ word ∈ queryWords ++ dmlWords,
      (word.toList.head?.any fun c => commentMarks.contains c) = false := by decide
  have hne : openingWord sql'.toList ≠ [] := by simp [hopen]
  have hother : ∀ word ∈ queryWords ++ dmlWords, openingWord sql'.toList ≠ word.toList := by
    intro word hword heq
    have hletter := hletters word hword
    rw [← heq, hopen, List.head?_cons, Option.any_some, List.contains_eq_mem,
      decide_eq_false_iff_not] at hletter
    exact hletter hm
  refine ⟨fun htag => ?_, commandTag_congr n⟩
  rw [commandTag_other n hne hother] at htag
  have hcount (k : ℕ) : ¬ Counts (commandTag sql n) k := htag ▸ not_counts_word _ k
  obtain hword | hnil | ⟨hne', hother'⟩ := opening_cases sql.toList
  · exact absurd (counts_commandTag_iff.mpr (Or.inl ⟨hword, rfl⟩)) (hcount n)
  · exact absurd (counts_commandTag_iff.mpr (Or.inr ⟨hnil, rfl⟩)) (hcount 0)
  · rw [commandTag_other n hne' hother'] at htag
    simpa using congrArg String.toList htag

theorem commandTag_eq_paren_iff {sql : String} {n : ℕ} : commandTag sql n = "SELECT 0" ↔
    openingWord sql.toList = [] ∨
      (∃ word ∈ queryWords, openingWord sql.toList = word.toList) ∧ n = 0 := by
  constructor
  · intro htag
    have hcount : Counts (commandTag sql n) 0 := by
      rw [htag]
      exact counts_paren.mpr rfl
    obtain ⟨⟨word, hword, hopen⟩, hn⟩ | ⟨hnil, -⟩ := counts_commandTag_iff.mp hcount
    · rw [commandTag_counted n hopen hword] at htag
      have hlabel : labelOf word = "SELECT " :=
        (label_injective (m := 0) (labelOf_mem word hword) (by decide) htag).1
      have hquery : ∀ word ∈ queryWords ++ dmlWords, labelOf word = "SELECT " →
          word ∈ queryWords := by decide
      exact Or.inr ⟨⟨word, hquery word hword hlabel, hopen⟩, hn.symm⟩
    · exact Or.inl hnil
  · rintro (hnil | ⟨⟨word, hword, hopen⟩, rfl⟩)
    · exact commandTag_paren n hnil
    · have hlabel : ∀ word ∈ queryWords, labelOf word = "SELECT " := by decide
      rw [commandTag_counted 0 hopen (List.mem_append_left _ hword), hlabel word hword]
      rfl

end MiddleWhere.Net
