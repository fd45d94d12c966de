import MiddleWhere.Core.Comments
import MiddleWhere.Core.PolicySound
import MiddleWhere.Net.Mediation
import MiddleWhere.Net.MysqlSafe

/-!
# The statement that MySQL reads

The session hands the backend the text it evaluated, not the tree that sqlparser made of it.
MySQL reads the text with a lexer of its own, which treats block comments in another way.
-/

namespace MiddleWhere.Net
open Prog Firewall Sql Comments

/-- sqlparser's parser gets the tokens that its lexer finds in the text. -/
def Tokenizes {τ : Type} (L : Lexing τ) (parse : List τ → Except String (List Statement))
    (sp : Sqlparser) : Prop :=
  ∀ sql, match L.sqlparserTokens sql.toList with
    | some ts => sp.parseMySql sql = parse ts
    | none => ∃ e, sp.parseMySql sql = .error e

/-! ## What is handed over -/

section
variable {ctx : SessionCtx}

theorem handleComQuery_forwards (seq : SequenceCounter) (text : String) :
    (handleComQuery ctx seq text).Uses fun o => ∀ sql, handedOver o = some sql → sql = text := by
  rw [handleComQuery_eq]
  refine uses_call.mpr ⟨nofun, fun verdict => ?_⟩
  cases verdict with
  | deny reason => exact uses_heard (denyQuery_unheard ctx seq text reason)
  | allow =>
    refine uses_call.mpr ⟨nofun, fun answer => ?_⟩
    cases answer with
    | error e => exact uses_heard (failQuery_unheard ctx seq text _ _)
    | ok conn =>
      refine uses_finally nofun ?_
      rw [runQueryOn_eq]
      refine uses_call.mpr ⟨fun sql h => (Option.some.inj h).symm, fun result => ?_⟩
      cases result with
      | error e => exact uses_heard (failQuery_unheard ctx seq text _ _)
      | ok cols =>
        have hresult : (replyResult ctx.deps seq conn cols).Uses fun o => handedOver o = none :=
          uses_mono handedOver_passesOn (replyResult_uses _ _ _ _)
        refine uses_heard (uses_bind hresult fun n => ?_)
        exact uses_call.mpr ⟨rfl, fun _ => trivial⟩

theorem handleCommand_forwards (pkt : Bytes) : (handleCommand ctx pkt).Uses fun o =>
    ∀ sql, handedOver o = some sql → comQuery pkt = some sql := by
  have hanswer (payload : Bytes) : ((reply 1 payload).bind fun _ =>
      (.halt (.ok (some ())) : SessionProg RouterError (Option Unit))).Uses
        fun o => ∀ sql, handedOver o = some sql → comQuery pkt = some sql :=
    uses_heard (uses_bind (reply_unheard 1 payload) fun _ => trivial)
  cases pkt with
  | nil => exact trivial
  | cons cmd body =>
    by_cases hquit : cmd = 0x01
    · subst hquit
      exact trivial
    by_cases hping : cmd = 0x0E
    · subst hping
      exact hanswer _
    by_cases hquery : cmd = 0x03
    · subst hquery
      rw [handleCommand_query]
      refine uses_bind ?_ fun _ => trivial
      apply uses_mono _ (handleComQuery_forwards 1 (Str.fromUtf8Lossy body))
      intro o ho sql hsql
      rw [ho sql hsql]
      rfl
    · have hother : handleCommand ctx (cmd :: body) =
          (reply 1 (errPacket 1148 "42000" ("command " ++ hex2 cmd ++ " not supported"))).bind
            fun _ => .halt (.ok (some ())) := by
        unfold handleCommand
        dsimp only
        rw [if_neg hquit, if_neg hping, if_neg hquery]
        rfl
      rw [hother]
      exact hanswer _

/-- Whatever a command hands over is the text of its query, and was allowed. -/
theorem handled_forwards {turn : Turn sessionSig Unit Bytes}
    {out : Outcome RouterError (Option Unit)}
    (h : (serveSession ctx).Handled (mysqlSem ctx) () () turn out) {e : SessionEvent}
    (he : e ∈ turn.trace) {sql : String} (hsql : handedOver e.op = some sql) :
    comQuery turn.msg = some sql ∧ mysqlVerdict ctx sql = .allow := by
  obtain ⟨b, pkt, t⟩ := turn
  obtain ⟨_, _, s, _, _, _, _, hturn⟩ := h
  refine ⟨hturn.stops.uses (handleCommand_forwards pkt) e he sql hsql, ?_⟩
  have hmediated := mediated_of_accepts
    ((handleCommand_mediated ctx pkt none s).accepts hturn.stops)
  obtain ⟨pre, post, rfl⟩ := List.append_of_mem he
  exact (hmediated pre e post sql rfl hsql).1

/-- An allowed text was parsed from the tokens that sqlparser found in it. -/
theorem allowed_tokens {τ : Type} {L : Lexing τ} {parse : List τ → Except String (List Statement)}
    (hparser : Tokenizes L parse ctx.deps.sqlparser) {sql : String}
    (hallow : mysqlVerdict ctx sql = .allow) : ∃ ts, L.sqlparserTokens sql.toList = some ts ∧
      ctx.deps.sqlparser.parseMySql sql = parse ts := by
  have hsql := hparser sql
  cases htokens : L.sqlparserTokens sql.toList with
  | some ts =>
    rw [htokens] at hsql
    exact ⟨ts, rfl, hsql⟩
  | none =>
    rw [htokens] at hsql
    obtain ⟨e, he⟩ := hsql
    have hparse : (mysqlProfile ctx.deps.sqlparser).parse sql = .error e := he
    have hdeny : mysqlVerdict ctx sql = .deny "statement did not parse" := by
      unfold mysqlVerdict evaluate
      rw [hparse]
    rw [hdeny] at hallow
    cases hallow

end

/-! ## A call inside a comment -/

def wordChar (c : Char) : Bool := c.isAlphanum || c == '_'

/-- Blank space, words and single symbols. -/
def wordLexeme : List Char → Option (Option String × List Char)
  | [] => none
  | c :: cs =>
    if c = ' ' then some (none, cs)
    else if wordChar c then
      some (some (String.ofList (c :: cs.takeWhile wordChar)), cs.dropWhile wordChar)
    else some (some (String.singleton c), cs)

theorem wordLexeme_shorter {text : List Char} {t : Option String} {rest : List Char}
    (h : wordLexeme text = some (t, rest)) : rest.length < text.length := by
  cases text with
  | nil => cases h
  | cons c cs =>
    have hword := List.length_dropWhile_le wordChar cs
    rw [List.length_cons]
    by_cases hblank : c = ' '
    · have hrest : (none, cs) = (t, rest) := by simpa [wordLexeme, hblank] using h
      cases hrest
      omega
    · by_cases hchar : wordChar c = true
      · have hrest : (some (String.ofList (c :: cs.takeWhile wordChar)), cs.dropWhile wordChar) =
            (t, rest) := by simpa [wordLexeme, hblank, hchar] using h
        cases hrest
        omega
      · have hrest : (some (String.singleton c), cs) = (t, rest) := by
          simpa [wordLexeme, hblank, hchar] using h
        cases hrest
        omega

def wordLexing : Lexing String where
  lexeme := wordLexeme
  blockEnd := nestedEnd 0 ' '
  lexeme_shorter := wordLexeme_shorter
  blockEnd_shorter h := by
    have hlen := nestedEnd_length h
    omega
  blockEnd_plain := nestedEnd_plain
  blockEnd_nested hopens hfirst hnested := by
    have hlt := nestedEnd_lt hopens hnested hfirst
    omega

def wordParse (ts : List String) : Except String (List Statement) :=
  if ts = ["SELECT", "1"] then .ok selectLiteral else .error "not parsed"

def wordParser : Sqlparser where
  parseMySql sql := match wordLexing.sqlparserTokens sql.toList with
    | some ts => wordParse ts
    | none => .error "not tokenized"
  parsePostgres _ := .error "not parsed"
  objectNameToString name := ".".intercalate (name.map Ident.value)

theorem wordParser_tokenizes : Tokenizes wordLexing wordParse wordParser := by
  intro sql
  cases htokens : wordLexing.sqlparserTokens sql.toList with
  | some ts => simp [wordParser, htokens]
  | none => exact ⟨"not tokenized", by simp [wordParser, htokens]⟩

def wordCtx : SessionCtx where
  deps := { sampleDeps with sqlparser := wordParser }
  envName := "stage"
  clientUser := "alice"
  policy := .readOnly

theorem word_allowed {sql : String}
    (h : wordLexing.sqlparserTokens sql.toList = some ["SELECT", "1"]) :
    mysqlVerdict wordCtx sql = .allow := by
  have hparse : wordParser.parseMySql sql = .ok selectLiteral := by
    simp [wordParser, wordParse, h]
  exact evaluate_selectLiteral hparse

/-- `SELECT 1 /*! , LOAD_FILE(0x2F65) */` -/
def hiddenBody : Bytes := [0x53, 0x45, 0x4C, 0x45, 0x43, 0x54, 0x20, 0x31, 0x20, 0x2F, 0x2A, 0x21,
  0x20, 0x2C, 0x20, 0x4C, 0x4F, 0x41, 0x44, 0x5F, 0x46, 0x49, 0x4C, 0x45, 0x28, 0x30, 0x78, 0x32,
  0x46, 0x36, 0x35, 0x29, 0x20, 0x2A, 0x2F]

/-- `SELECT 1 /* one */` -/
def plainBody : Bytes := [0x53, 0x45, 0x4C, 0x45, 0x43, 0x54, 0x20, 0x31, 0x20, 0x2F, 0x2A, 0x20,
  0x6F, 0x6E, 0x65, 0x20, 0x2A, 0x2F]

theorem hiddenBody_tokens :
    wordLexing.sqlparserTokens (Str.fromUtf8Lossy hiddenBody).toList = some ["SELECT", "1"] := by
  decide

theorem plainBody_tokens :
    wordLexing.sqlparserTokens (Str.fromUtf8Lossy plainBody).toList = some ["SELECT", "1"] := by
  decide

theorem hiddenBody_handled : (serveSession wordCtx).Handled (mysqlSem wordCtx) () ()
    (okTurn wordCtx hiddenBody) (.ok (some ())) := by
  have hread : Exec (mysqlSem wordCtx) readCommand ()
      [⟨.recv 4, .ok [36, 0, 0, 0]⟩, ⟨.recv 36, .ok (0x03 :: hiddenBody)⟩]
      (.ok (some (0x03 :: hiddenBody))) () :=
    .step (fun bytes h => by cases h; rfl) (.step (fun bytes h => by cases h; rfl) (.halt _ _))
  exact okTurn_handled (word_allowed hiddenBody_tokens) hread

theorem plainBody_handled : (serveSession wordCtx).Handled (mysqlSem wordCtx) () ()
    (okTurn wordCtx plainBody) (.ok (some ())) := by
  have hread : Exec (mysqlSem wordCtx) readCommand ()
      [⟨.recv 4, .ok [19, 0, 0, 0]⟩, ⟨.recv 19, .ok (0x03 :: plainBody)⟩]
      (.ok (some (0x03 :: plainBody))) () :=
    .step (fun bytes h => by cases h; rfl) (.step (fun bytes h => by cases h; rfl) (.halt _ _))
  exact okTurn_handled (word_allowed plainBody_tokens) hread

theorem okTurn_forwards (ctx : SessionCtx) (body : Bytes) :
    ⟨.queryIter 7 (Str.fromUtf8Lossy body), .ok none⟩ ∈ (okTurn ctx body).trace := by
  simp [okTurn]

end MiddleWhere.Net
