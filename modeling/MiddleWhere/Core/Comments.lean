import Mathlib

/-!
# Block comments in two lexers

Two lexers that share everything but block comments. For sqlparser a block comment is blank
space, whatever its first character, and may hold other comments. For MySQL it ends at the
first mark that can end it, and the body of one that starts with an exclamation mark is read
as if no comment were there.

Both read a text into pieces. They cut a text into the same pieces if and only if none of the
comments that sqlparser skips has a body to execute or another comment inside.
-/

namespace MiddleWhere.Comments

/-- Where a comment ends for MySQL; `last` is the character before. -/
def firstEnd : Char → List Char → Option (List Char)
  | _, [] => none
  | last, c :: cs => if last = '*' ∧ c = '/' then some cs else firstEnd c cs

/-- Another comment starts before the first end. -/
def opensInside : Char → List Char → Bool
  | _, [] => false
  | last, c :: cs =>
    if last = '*' ∧ c = '/' then false
    else if last = '/' ∧ c = '*' then true
    else opensInside c cs

/-- Where a comment ends that may hold others; `depth` counts those that are open. -/
def nestedEnd : ℕ → Char → List Char → Option (List Char)
  | _, _, [] => none
  | depth, last, c :: cs =>
    if last = '*' ∧ c = '/' then
      match depth with
      | 0 => some cs
      | depth + 1 => nestedEnd depth c cs
    else if last = '/' ∧ c = '*' then nestedEnd (depth + 1) c cs
    else nestedEnd depth c cs

theorem firstEnd_length {last : Char} {text rest : List Char}
    (h : firstEnd last text = some rest) : rest.length < text.length := by
  induction text generalizing last with
  | nil => cases h
  | cons c cs ih =>
    unfold firstEnd at h
    rw [List.length_cons]
    by_cases hend : last = '*' ∧ c = '/'
    · rw [if_pos hend] at h
      obtain rfl := Option.some.inj h
      omega
    · rw [if_neg hend] at h
      have hrest := ih h
      omega

theorem nestedEnd_length {depth : ℕ} {last : Char} {text rest : List Char}
    (h : nestedEnd depth last text = some rest) : rest.length + depth < text.length := by
  induction text generalizing depth last with
  | nil => cases h
  | cons c cs ih =>
    unfold nestedEnd at h
    rw [List.length_cons]
    by_cases hend : last = '*' ∧ c = '/'
    · rw [if_pos hend] at h
      cases depth with
      | zero =>
        obtain rfl := Option.some.inj h
        omega
      | succ depth =>
        have hrest := ih h
        omega
    · rw [if_neg hend] at h
      by_cases hopen : last = '/' ∧ c = '*'
      · rw [if_pos hopen] at h
        have hrest := ih h
        omega
      · rw [if_neg hopen] at h
        have hrest := ih h
        omega

theorem nestedEnd_plain {last : Char} {text : List Char} (h : opensInside last text = false) :
    nestedEnd 0 last text = firstEnd last text := by
  induction text generalizing last with
  | nil => rfl
  | cons c cs ih =>
    unfold opensInside at h
    unfold nestedEnd firstEnd
    by_cases hend : last = '*' ∧ c = '/'
    · rw [if_pos hend, if_pos hend]
    · rw [if_neg hend] at h
      rw [if_neg hend, if_neg hend]
      by_cases hopen : last = '/' ∧ c = '*'
      · rw [if_pos hopen] at h
        cases h
      · rw [if_neg hopen] at h
        rw [if_neg hopen]
        exact ih h

/-- The comments that were opened end later than the first mark that could end one. -/
theorem nestedEnd_le {depth : ℕ} {last : Char} {text rest rest' : List Char}
    (h : nestedEnd depth last text = some rest) (h' : firstEnd last text = some rest') :
    rest.length + depth ≤ rest'.length := by
  induction text generalizing depth last with
  | nil => cases h
  | cons c cs ih =>
    unfold nestedEnd at h
    unfold firstEnd at h'
    by_cases hend : last = '*' ∧ c = '/'
    · rw [if_pos hend] at h h'
      obtain rfl := Option.some.inj h'
      cases depth with
      | zero =>
        obtain rfl := Option.some.inj h
        omega
      | succ depth =>
        have hrest := nestedEnd_length h
        omega
    · rw [if_neg hend] at h h'
      by_cases hopen : last = '/' ∧ c = '*'
      · rw [if_pos hopen] at h
        have hrest := ih h h'
        omega
      · rw [if_neg hopen] at h
        exact ih h h'

theorem nestedEnd_lt {last : Char} {text rest rest' : List Char}
    (hopens : opensInside last text = true) (h : nestedEnd 0 last text = some rest)
    (h' : firstEnd last text = some rest') : rest.length < rest'.length := by
  induction text generalizing last with
  | nil => cases h
  | cons c cs ih =>
    unfold opensInside at hopens
    unfold nestedEnd at h
    unfold firstEnd at h'
    by_cases hend : last = '*' ∧ c = '/'
    · rw [if_pos hend] at hopens
      cases hopens
    · rw [if_neg hend] at hopens h h'
      by_cases hopen : last = '/' ∧ c = '*'
      · rw [if_pos hopen] at h
        have hrest := nestedEnd_le h h'
        omega
      · rw [if_neg hopen] at hopens h
        exact ih hopens h h'

/-! ## The two lexers -/

/-- What the lexers share, and where sqlparser ends a block comment. A lexeme is a token or
blank space, which a comment up to the end of its line counts as. -/
structure Lexing (τ : Type) where
  lexeme : List Char → Option (Option τ × List Char)
  blockEnd : List Char → Option (List Char)
  lexeme_shorter : ∀ {text t rest}, lexeme text = some (t, rest) → rest.length < text.length
  blockEnd_shorter : ∀ {text rest}, blockEnd text = some rest → rest.length < text.length
  blockEnd_plain : ∀ {text}, opensInside ' ' text = false → blockEnd text = firstEnd ' ' text
  blockEnd_nested : ∀ {text rest}, opensInside ' ' text = true → firstEnd ' ' text = some rest →
    blockEnd text ≠ some rest

inductive Front
  | executable (body : List Char)
  | block (body : List Char)
  | closing (rest : List Char)
  | other

def front : List Char → Front
  | '/' :: '*' :: '!' :: body => .executable body
  | '/' :: '*' :: body => .block body
  | '*' :: '/' :: rest => .closing rest
  | _ => .other

/-- A comment is kept with its body, up to the end of the text, and what follows it. -/
inductive Piece (τ : Type)
  | token (t : τ)
  | comment (body rest : List Char)
  | enter
  | leave

def Piece.token? {τ : Type} : Piece τ → Option τ
  | .token t => some t
  | _ => none

variable {τ : Type}

namespace Lexing

def lexemePieces (t : Option τ) : List (Piece τ) := t.toList.map .token

/-- The five digits of a server version. -/
def dropVersion (body : List Char) : List Char :=
  if (body.take 5).all Char.isDigit && (body.take 5).length == 5 then body.drop 5 else body

variable (L : Lexing τ)

/-- `fuel` bounds the number of lexemes and comments. -/
def sqlparserPieces : ℕ → List Char → Option (List (Piece τ))
  | _, [] => some []
  | 0, _ :: _ => none
  | fuel + 1, c :: cs =>
    let block (body : List Char) := do
      let rest ← L.blockEnd body
      let ps ← sqlparserPieces fuel rest
      return .comment body rest :: ps
    match front (c :: cs) with
    | .executable body => block ('!' :: body)
    | .block body => block body
    | .closing _ | .other => do
      let (t, rest) ← L.lexeme (c :: cs)
      let ps ← sqlparserPieces fuel rest
      return lexemePieces t ++ ps

/-- `inside` says that a body is being executed. -/
def mysqlPieces : ℕ → Bool → List Char → Option (List (Piece τ))
  | _, inside, [] => if inside then none else some []
  | 0, _, _ :: _ => none
  | fuel + 1, inside, c :: cs =>
    let lexed := do
      let (t, rest) ← L.lexeme (c :: cs)
      let ps ← mysqlPieces fuel inside rest
      return lexemePieces t ++ ps
    match front (c :: cs) with
    | .executable body => do
      let ps ← mysqlPieces fuel true (dropVersion body)
      return .enter :: ps
    | .block body => do
      let rest ← firstEnd ' ' body
      let ps ← mysqlPieces fuel inside rest
      return .comment body rest :: ps
    | .closing rest =>
      if inside then do
        let ps ← mysqlPieces fuel false rest
        return .leave :: ps
      else lexed
    | .other => lexed

/-- Every piece takes a character, so the length of the text is fuel enough. -/
def sqlparserReading (text : List Char) : Option (List (Piece τ)) :=
  L.sqlparserPieces text.length text

def mysqlReading (text : List Char) : Option (List (Piece τ)) :=
  L.mysqlPieces text.length false text

def tokens (ps : List (Piece τ)) : List τ := ps.filterMap Piece.token?

/-- The tokens that sqlparser's parser gets. -/
def sqlparserTokens (text : List Char) : Option (List τ) := (L.sqlparserReading text).map tokens

/-- The tokens that MySQL executes. -/
def mysqlTokens (text : List Char) : Option (List τ) := (L.mysqlReading text).map tokens

/-- The comment has no body to execute and holds no other comment. -/
def PlainBody (body : List Char) : Prop := body.head? ≠ some '!' ∧ opensInside ' ' body = false

/-- Every comment that sqlparser skips is plain. -/
def PlainComments (text : List Char) : Prop :=
  ∀ ps, L.sqlparserReading text = some ps → ∀ body rest, .comment body rest ∈ ps → PlainBody body

/-! ## Enough fuel -/

theorem front_executable {text body : List Char} (h : front text = .executable body) :
    text = '/' :: '*' :: '!' :: body := by
  unfold front at h
  split at h <;> simp_all

theorem front_block {text body : List Char} (h : front text = .block body) :
    text = '/' :: '*' :: body ∧ body.head? ≠ some '!' := by
  unfold front at h
  split at h
  · cases h
  · rename_i hnot
    obtain rfl := Front.block.inj h
    refine ⟨rfl, fun hhead => ?_⟩
    obtain ⟨rest, rfl⟩ := List.head?_eq_some_iff.mp hhead
    exact hnot rest rfl
  · cases h
  · cases h

theorem front_closing {text rest : List Char} (h : front text = .closing rest) :
    text = '*' :: '/' :: rest := by
  unfold front at h
  split at h <;> simp_all

theorem dropVersion_length (body : List Char) : (dropVersion body).length ≤ body.length := by
  unfold dropVersion
  split_ifs
  · rw [List.length_drop]
    omega
  · exact le_rfl

theorem sqlparserPieces_fuel {n m : ℕ} {text : List Char} (hn : text.length ≤ n)
    (hm : text.length ≤ m) : L.sqlparserPieces n text = L.sqlparserPieces m text := by
  induction n generalizing m text with
  | zero =>
    obtain rfl := List.eq_nil_of_length_eq_zero (Nat.le_zero.mp hn)
    cases m <;> rfl
  | succ n ih =>
    cases text with
    | nil => cases m <;> rfl
    | cons c cs =>
      cases m with
      | zero => simp at hm
      | succ m =>
        have hblock (body : List Char) (hlt : body.length < (c :: cs).length) :
            ((L.blockEnd body).bind fun rest => (L.sqlparserPieces n rest).bind fun ps =>
              some (Piece.comment body rest :: ps)) =
            (L.blockEnd body).bind fun rest => (L.sqlparserPieces m rest).bind fun ps =>
              some (Piece.comment body rest :: ps) := by
          apply Option.bind_congr
          intro rest hrest
          have hshort := L.blockEnd_shorter hrest
          rw [ih (m := m) (by omega) (by omega)]
        have hlexed : ((L.lexeme (c :: cs)).bind fun p => (L.sqlparserPieces n p.2).bind fun ps =>
              some (lexemePieces p.1 ++ ps)) =
            (L.lexeme (c :: cs)).bind fun p => (L.sqlparserPieces m p.2).bind fun ps =>
              some (lexemePieces p.1 ++ ps) := by
          apply Option.bind_congr
          rintro ⟨t, rest⟩ hrest
          have hshort := L.lexeme_shorter hrest
          dsimp only
          rw [ih (m := m) (by omega) (by omega)]
        unfold sqlparserPieces
        cases hfront : front (c :: cs) with
        | executable body =>
          have hlen := congrArg List.length (front_executable hfront)
          exact hblock _ (by simp only [List.length_cons] at hlen ⊢; omega)
        | block body =>
          have hlen := congrArg List.length (front_block hfront).1
          exact hblock _ (by simp only [List.length_cons] at hlen ⊢; omega)
        | closing rest => exact hlexed
        | other => exact hlexed

theorem mysqlPieces_fuel {n m : ℕ} {inside : Bool} {text : List Char} (hn : text.length ≤ n)
    (hm : text.length ≤ m) : L.mysqlPieces n inside text = L.mysqlPieces m inside text := by
  induction n generalizing m inside text with
  | zero =>
    obtain rfl := List.eq_nil_of_length_eq_zero (Nat.le_zero.mp hn)
    cases m <;> rfl
  | succ n ih =>
    cases text with
    | nil => cases m <;> rfl
    | cons c cs =>
      cases m with
      | zero => simp at hm
      | succ m =>
        have hlexed : ((L.lexeme (c :: cs)).bind fun p => (L.mysqlPieces n inside p.2).bind fun ps =>
              some (lexemePieces p.1 ++ ps)) =
            (L.lexeme (c :: cs)).bind fun p => (L.mysqlPieces m inside p.2).bind fun ps =>
              some (lexemePieces p.1 ++ ps) := by
          apply Option.bind_congr
          rintro ⟨t, rest⟩ hrest
          have hshort := L.lexeme_shorter hrest
          dsimp only
          rw [ih (m := m) (by omega) (by omega)]
        unfold mysqlPieces
        cases hfront : front (c :: cs) with
        | executable body =>
          have hlen := congrArg List.length (front_executable hfront)
          have hbody := dropVersion_length body
          simp only [List.length_cons] at hlen hn hm
          dsimp only
          rw [ih (m := m) (by omega) (by omega)]
        | block body =>
          have hlen := congrArg List.length (front_block hfront).1
          apply Option.bind_congr
          intro rest hrest
          have hshort := firstEnd_length hrest
          simp only [List.length_cons] at hlen hn hm
          rw [ih (m := m) (by omega) (by omega)]
        | closing rest =>
          have hlen := congrArg List.length (front_closing hfront)
          simp only [List.length_cons] at hlen hn hm
          cases inside with
          | false => exact hlexed
          | true =>
            have hrest : L.mysqlPieces n false rest = L.mysqlPieces m false rest :=
              ih (by omega) (by omega)
            simp only [hrest, if_true]
        | other => exact hlexed

/-! ## The same pieces -/

theorem comment_not_mem_lexemePieces (t : Option τ) (body rest : List Char) :
    (.comment body rest : Piece τ) ∉ lexemePieces t := by
  cases t <;> simp [lexemePieces]

/-- As long as the comments are plain, MySQL reads what sqlparser reads. -/
theorem mysqlPieces_eq_iff {n : ℕ} {text : List Char} {ps : List (Piece τ)}
    (h : L.sqlparserPieces n text = some ps) : L.mysqlPieces n false text = some ps ↔
      ∀ body rest, .comment body rest ∈ ps → PlainBody body := by
  induction n generalizing text ps with
  | zero =>
    cases text with
    | nil =>
      obtain rfl := Option.some.inj h
      simp [mysqlPieces]
    | cons c cs => cases h
  | succ n ih =>
    cases text with
    | nil =>
      obtain rfl := Option.some.inj h
      simp [mysqlPieces]
    | cons c cs =>
      have hlexed (h : ((L.lexeme (c :: cs)).bind fun p =>
          (L.sqlparserPieces n p.2).bind fun ps => some (lexemePieces p.1 ++ ps)) = some ps) :
          ((L.lexeme (c :: cs)).bind fun p => (L.mysqlPieces n false p.2).bind fun ps =>
              some (lexemePieces p.1 ++ ps)) = some ps ↔
            ∀ body rest, .comment body rest ∈ ps → PlainBody body := by
        obtain ⟨⟨t, rest⟩, ht, h⟩ := Option.bind_eq_some_iff.mp h
        obtain ⟨ps', hps', h⟩ := Option.bind_eq_some_iff.mp h
        obtain rfl := Option.some.inj h
        simp only [ht, Option.bind_some, Option.bind_eq_some_iff, Option.some.injEq,
          List.append_cancel_left_eq, exists_eq_right, List.mem_append,
          comment_not_mem_lexemePieces, false_or]
        exact ih hps'
      unfold sqlparserPieces at h
      unfold mysqlPieces
      cases hfront : front (c :: cs) with
      | executable body =>
        -- sqlparser has a comment here, MySQL enters a body
        rw [hfront] at h
        obtain ⟨rest, hrest, h⟩ := Option.bind_eq_some_iff.mp h
        obtain ⟨ps', hps', h⟩ := Option.bind_eq_some_iff.mp h
        obtain rfl := Option.some.inj h
        refine iff_of_false ?_ ?_
        · intro heq
          obtain ⟨qs, -, hqs⟩ := Option.bind_eq_some_iff.mp heq
          cases hqs
        · intro hplain
          exact (hplain _ _ List.mem_cons_self).1 rfl
      | block body =>
        rw [hfront] at h
        obtain ⟨rest, hrest, h⟩ := Option.bind_eq_some_iff.mp h
        obtain ⟨ps', hps', h⟩ := Option.bind_eq_some_iff.mp h
        obtain rfl := Option.some.inj h
        have hhead : body.head? ≠ some '!' := (front_block hfront).2
        by_cases hopens : opensInside ' ' body = true
        · refine iff_of_false ?_ ?_
          · intro heq
            obtain ⟨rest', hrest', heq⟩ := Option.bind_eq_some_iff.mp heq
            obtain ⟨qs, -, hqs⟩ := Option.bind_eq_some_iff.mp heq
            have hsame : rest' = rest := by
              have hcons := List.head_eq_of_cons_eq (Option.some.inj hqs)
              exact (Piece.comment.inj hcons).2
            exact L.blockEnd_nested hopens hrest' (hsame ▸ hrest)
          · intro hplain
            have hbody := (hplain _ _ List.mem_cons_self).2
            rw [hopens] at hbody
            cases hbody
        · have hclosed : opensInside ' ' body = false := Bool.eq_false_iff.mpr hopens
          have hfirst : firstEnd ' ' body = some rest := (L.blockEnd_plain hclosed).symm.trans hrest
          have hrest_iff := ih hps'
          have hmysql : (L.mysqlPieces n false rest).bind (fun ps => some (.comment body rest :: ps)) =
              some (.comment body rest :: ps') ↔ L.mysqlPieces n false rest = some ps' := by
            simp [Option.bind_eq_some_iff]
          simp only [hfirst]
          refine hmysql.trans (hrest_iff.trans ?_)
          constructor
          · intro hplain b r hmem
            obtain hmem | hmem := List.mem_cons.mp hmem
            · cases hmem
              exact ⟨hhead, hclosed⟩
            · exact hplain b r hmem
          · exact fun hplain b r hmem => hplain b r (List.mem_cons_of_mem _ hmem)
      | closing rest =>
        rw [hfront] at h
        exact hlexed h
      | other =>
        rw [hfront] at h
        exact hlexed h

/-- The text is cut into the same pieces exactly when its comments are plain. -/
theorem reading_eq_iff {text : List Char} {ps : List (Piece τ)}
    (h : L.sqlparserReading text = some ps) :
    L.mysqlReading text = L.sqlparserReading text ↔ L.PlainComments text := by
  have hpieces := L.mysqlPieces_eq_iff h
  have hplain : L.PlainComments text ↔
      ∀ body rest, .comment body rest ∈ ps → PlainBody body := by
    constructor
    · exact fun hall => hall ps h
    · intro hall ps' hps'
      obtain rfl := Option.some.inj (h.symm.trans hps')
      exact hall
  rw [hplain, ← hpieces, h]
  rfl

theorem tokens_eq {text : List Char} {ts : List τ} (h : L.sqlparserTokens text = some ts)
    (hplain : L.PlainComments text) : L.mysqlTokens text = some ts := by
  obtain ⟨ps, hps, -⟩ := Option.map_eq_some_iff.mp h
  have hsame := (L.reading_eq_iff hps).mpr hplain
  unfold mysqlTokens
  rw [hsame]
  exact h

end Lexing
end MiddleWhere.Comments
