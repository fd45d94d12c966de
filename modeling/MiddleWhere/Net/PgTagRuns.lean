import MiddleWhere.Data.Utf8
import MiddleWhere.Net.PgAudit
import MiddleWhere.Net.PgStep
import MiddleWhere.Net.PgTag

/-!
# The tag and the statement it completes

A text that is run and answered, on either path, is completed with the tag of its opening
word. What the tag says is compared with a rewording of the text that means the same, with
the rows that were sent, and with the count that the backend reported.
-/

namespace MiddleWhere.Net
open Prog Firewall

/-! ## What the backend answers -/

/-- The answer of a statement that returns rows. An empty result is reported as no rows. -/
structure RowReply where
  columns : List String
  rows : List (List (Option Bytes))
  reported : UInt64
  reported_empty : rows = [] → reported = 0

/-- The answer of one statement: rows, or a count of affected ones. -/
inductive Reply
  | rows (r : RowReply)
  | count (affected : UInt64)

def Reply.messages : Reply → List SimpleQueryMessage
  | .rows r => .other :: (r.rows.map (.row r.columns) ++ [.commandComplete r.reported])
  | .count affected => [.commandComplete affected]

theorem collect_rowReply (columns : List String) (rows : List (List (Option Bytes)))
    (cols : List String) (before : List (List (Option Bytes))) (affected reported : UInt64) :
    collect (rows.map (.row columns) ++ [.commandComplete reported]) cols before affected =
      (if cols = [] ∧ rows ≠ [] then columns else cols, before ++ rows, reported) := by
  induction rows generalizing cols before with
  | nil => simp [collect]
  | cons row rows ih =>
    rw [List.map_cons, List.cons_append, collect, ih, List.append_assoc, List.singleton_append]
    cases cols with
    | nil => simp
    | cons col cols => simp

theorem resultSet_rowReply (sql : String) (r : RowReply) :
    resultSet sql (Reply.rows r).messages =
      ⟨if r.rows = [] then [] else r.columns, r.rows, commandTag sql r.rows.length⟩ := by
  have hcollect : collect (Reply.rows r).messages [] [] 0 =
      (if r.rows = [] then [] else r.columns, r.rows, r.reported) := by
    rw [Reply.messages, collect, collect_rowReply]
    simp [ite_not]
  unfold resultSet
  rw [hcollect]
  by_cases hrows : r.rows = []
  · simp [hrows, r.reported_empty hrows]
  · simp [hrows]

theorem resultSet_countReply (sql : String) (affected : UInt64) :
    resultSet sql (Reply.count affected).messages =
      ⟨[], [], commandTag sql affected.toNat⟩ := rfl

/-! ## Two ways to run a text -/

inductive Path
  | simple
  | extended
  deriving DecidableEq

def Path.execute (ctx : SessionCtx) (sql : String) : Path → SessionProg EngineError Bool
  | .simple => firewalledExec ctx sql
  | .extended => execRowsOnly ctx sql

def Path.frames : Path → ResultSet → List Frame
  | .simple => resultSetFrames
  | .extended => rowsOnlyFrames

/-- A simple query passes no rows on that have no columns. -/
def Path.Drops (path : Path) (columns : List String) : Prop := path = .simple ∧ columns = []

instance (path : Path) (columns : List String) : Decidable (path.Drops columns) :=
  inferInstanceAs (Decidable (_ ∧ _))

/-- The results that the backend answered. -/
def backendAnswers (t : List SessionEvent) : List (List SimpleQueryMessage) :=
  t.filterMap fun
    | ⟨.simpleQuery _ _, .ok msgs⟩ => some msgs
    | _ => none

/-- The text was allowed, the backend answered it with `reply`, and the answer was passed on. -/
structure PassedOn (ctx : SessionCtx) (path : Path) (sql : String) (reply : Reply)
    (t : List SessionEvent) : Prop where
  run : ∃ s s', Exec (pgSem ctx) (path.execute ctx sql) s t (.ok true) s'
  reply : backendAnswers t = [reply.messages]

/-- The frames sent that hold a row. -/
def dataRows (t : List SessionEvent) : ℕ := (sentTags t).count (some 0x44)

/-- A CommandComplete with this tag was sent. -/
def Tagged (t : List SessionEvent) (tag : String) : Prop :=
  ∃ bytes ∈ written t, (commandComplete tag : Frame) = .ok bytes

section
variable {ctx : SessionCtx} {path : Path} {sql : String} {reply : Reply} {t : List SessionEvent}

theorem path_frames (path : Path) (rs : ResultSet) : ∃ rowless : List Frame,
    path.frames rs = rowless ++ (if path.Drops rs.cols then [] else rs.rows.map dataRow) ++
      [commandComplete rs.tag] ∧
    ∀ f ∈ rowless, ∃ tag payload, f = msg tag payload ∧ tagByte tag ≠ 0x44 ∧ tagByte tag ≠ 0x43 := by
  cases path with
  | simple =>
    by_cases hcols : rs.cols = []
    · refine ⟨[noData], ?_, ?_⟩
      · simp [Path.frames, Path.Drops, resultSetFrames, hcols]
      · exact List.forall_mem_singleton.mpr ⟨'n', [], rfl, by decide, by decide⟩
    · refine ⟨[rowDescription (rs.cols.map fun n => (n, 25))], ?_, ?_⟩
      · simp [Path.frames, Path.Drops, resultSetFrames, hcols]
      · exact List.forall_mem_singleton.mpr ⟨'T', _, rfl, by decide, by decide⟩
  | extended =>
    refine ⟨[], ?_, List.forall_mem_nil _⟩
    simp [Path.frames, Path.Drops, rowsOnlyFrames]

theorem Path.execute_eq (path : Path) (ctx : SessionCtx) (sql : String) : ∃ write,
    path.execute ctx sql = firewalled write ctx sql ∧
      ∀ rs, write rs = writeFrames (path.frames rs) := by
  cases path with
  | simple => exact ⟨writeResultSet, rfl, writeResultSet_eq⟩
  | extended => exact ⟨writeRowsOnly, rfl, writeRowsOnly_eq⟩

theorem PassedOn.replied (h : PassedOn ctx path sql reply t) :
    Replied (path.frames (resultSet sql reply.messages)) t := by
  obtain ⟨s, s', ht⟩ := h.run
  obtain ⟨write, hexecute, hwrite⟩ := path.execute_eq ctx sql
  rw [hexecute] at ht
  have hran : RanText path.frames sql t true := (firewalled_ranText ctx hwrite s).exec ht
  obtain ⟨conn, msgs, hmem, hreplied⟩ := hran
  have hmsgs : msgs ∈ backendAnswers t :=
    List.mem_filterMap.mpr ⟨⟨.simpleQuery conn sql, .ok msgs⟩, hmem, rfl⟩
  rw [h.reply, List.mem_singleton] at hmsgs
  rwa [hmsgs] at hreplied

theorem cstr_injective {s s' : String} (h : cstr s = cstr s') : s = s' := by
  have hbytes : Str.asBytes s = Str.asBytes s' := (List.append_left_injective [0]) h
  rw [← Str.fromUtf8Lossy_asBytes s, hbytes, Str.fromUtf8Lossy_asBytes]

theorem commandComplete_injective {tag tag' : String} {bytes : Bytes}
    (h : (commandComplete tag : Frame) = .ok bytes)
    (h' : (commandComplete tag' : Frame) = .ok bytes) : tag = tag' :=
  cstr_injective ((msg_payload h).symm.trans (msg_payload h'))

/-- One tag is sent. -/
theorem PassedOn.tagged_iff (h : PassedOn ctx path sql reply t) (tag : String) :
    Tagged t tag ↔ tag = (resultSet sql reply.messages).tag := by
  obtain ⟨rowless, hframes, hrowless⟩ := path_frames path (resultSet sql reply.messages)
  have hreplied := h.replied
  constructor
  · rintro ⟨bytes, hbytes, htag⟩
    have hmem : (.ok bytes : Frame) ∈ path.frames (resultSet sql reply.messages) := by
      rw [← hreplied]
      exact List.mem_map_of_mem hbytes
    have hhead : bytes.head? = some 0x43 := msg_head htag
    rw [hframes] at hmem
    obtain hmem | hlast := List.mem_append.mp hmem
    · exfalso
      obtain hmem | hmem := List.mem_append.mp hmem
      · obtain ⟨c, payload, hmsg, -, hne⟩ := hrowless _ hmem
        have hc := msg_head hmsg.symm
        rw [hhead] at hc
        exact hne (Option.some.inj hc).symm
      · have hrow : (.ok bytes : Frame) ∈ (resultSet sql reply.messages).rows.map dataRow := by
          split_ifs at hmem
          · exact absurd hmem (List.not_mem_nil)
          · exact hmem
        obtain ⟨row, -, hrow⟩ := List.mem_map.mp hrow
        have hc := msg_head hrow
        rw [hhead] at hc
        exact absurd hc (by decide)
    · exact commandComplete_injective htag (List.mem_singleton.mp hlast).symm
  · rintro rfl
    have hmem : (commandComplete (resultSet sql reply.messages).tag : Frame) ∈
        (written t).map Outcome.ok := by
      rw [hreplied, hframes]
      exact List.mem_append_right _ (List.mem_singleton_self _)
    obtain ⟨bytes, hbytes, hframe⟩ := List.mem_map.mp hmem
    exact ⟨bytes, hbytes, hframe.symm⟩

theorem PassedOn.dataRows_eq (h : PassedOn ctx path sql reply t) :
    dataRows t = if path.Drops (resultSet sql reply.messages).cols then 0
      else (resultSet sql reply.messages).rows.length := by
  obtain ⟨rowless, hframes, hrowless⟩ := path_frames path (resultSet sql reply.messages)
  have hreplied := h.replied
  have hfront : (rowless.map frameTag).count (some 0x44) = 0 := by
    refine List.count_eq_zero.mpr fun hmem => ?_
    obtain ⟨f, hf, htag⟩ := List.mem_map.mp hmem
    obtain ⟨c, payload, rfl, hne, -⟩ := hrowless f hf
    exact frameTag_msg_ne hne htag
  have hlast : ([commandComplete (resultSet sql reply.messages).tag].map frameTag).count
      (some 0x44) = 0 := by
    refine List.count_eq_zero.mpr fun hmem => ?_
    obtain htag := List.mem_singleton.mp hmem
    exact frameTag_msg_ne (by decide) htag.symm
  rw [dataRows, hreplied.sentTags_eq, hframes, List.map_append, List.map_append, List.count_append,
    List.count_append, hfront, hlast, Nat.zero_add, Nat.add_zero]
  split_ifs with hdrop
  · rfl
  · have htags : ∀ b ∈ ((resultSet sql reply.messages).rows.map dataRow).map frameTag,
        some 0x44 = b := by
      intro b hb
      obtain ⟨f, hf, rfl⟩ := List.mem_map.mp hb
      have hframed : Framed f := by
        refine hreplied.framed ?_
        rw [hframes, if_neg hdrop]
        simp [hf]
      obtain ⟨row, -, rfl⟩ := List.mem_map.mp hf
      exact (frameTag_msg hframed).symm
    rw [List.count_eq_length.mpr htags, List.length_map, List.length_map]

end

/-! ## Rewordings -/

/-- White space and comments before the text, or parentheses around it. -/
inductive Rewording
  | lead (trivia : List Char)
  | wrap

def Rewording.apply : Rewording → String → String
  | .lead trivia, sql => String.ofList (trivia ++ sql.toList)
  | .wrap, sql => String.ofList ('(' :: (sql.toList ++ [')']))

def isDml : Sql.Statement → Bool
  | .of .insert _ _ _ _ | .of .update _ _ _ _ | .of .delete _ _ _ _ => true
  | .query (.mk _ (.insert _) _) | .query (.mk _ (.update _) _) => true
  | _ => false

section
variable (ctx : SessionCtx) (path : Path) (sql : String) (reply : Reply)

def IsQuery : Prop := ∃ q, ctx.deps.sqlparser.parsePostgres sql = .ok [.query q]

def IsDml : Prop := ∃ stmt, ctx.deps.sqlparser.parsePostgres sql = .ok [stmt] ∧ isDml stmt

/-- It leaves alone what the text means; only a query that returns rows is wrapped. -/
def Rewording.Neutral : Rewording → Prop
  | .lead trivia => Trivia trivia
  | .wrap => IsQuery ctx sql ∧ ∃ r, reply = .rows r

/-- The tag of the run `t` is that of the run `t'` of the reworded text, and the count it
carries is that of the rows sent, or, without any, of the affected rows. -/
structure TagExact (how : Rewording) (t t' : List SessionEvent) : Prop where
  reworded : how.Neutral ctx sql reply → ∀ tag tag', Tagged t tag → Tagged t' tag' → tag' = tag
  rows : ∀ r, reply = .rows r → ∀ tag n, Tagged t tag → Counts tag n → n = dataRows t
  affected : ∀ n, reply = .count n → IsDml ctx sql → ∀ tag, Tagged t tag → Counts tag n.toNat

/-! ## What the tag shows -/

def OpensCounted : Prop :=
  ∃ word ∈ queryWords ++ dmlWords, OpensWith sql.toList word.toList

/-- The rewording leaves the opening word: no comment is put in front, or one that the text
opens with already; a text in parentheses has none, and one with an empty result shows no
difference. -/
def Rewording.KeepsWord : Rewording → Prop
  | .lead trivia => Blank trivia ∨
      ∃ word, OpensWith (trivia ++ sql.toList) word ∧ OpensWith sql.toList word
  | .wrap => OpensWith sql.toList [] ∨ (∃ word ∈ queryWords, OpensWith sql.toList word.toList) ∧
      ∀ r, reply = .rows r → r.rows = []

structure TagShown (how : Rewording) : Prop where
  reworded : how.Neutral ctx sql reply → how.KeepsWord sql reply
  rows : ∀ r, reply = .rows r → r.rows ≠ [] →
    (OpensWith sql.toList [] → path.Drops r.columns) ∧
    (OpensCounted sql → ¬ path.Drops r.columns)
  affected : ∀ n, reply = .count n → IsDml ctx sql →
    OpensCounted sql ∨ OpensWith sql.toList [] ∧ n = 0

end

/-- The number that the tag is made with. -/
def Reply.total : Reply → ℕ
  | .rows r => r.rows.length
  | .count affected => affected.toNat

theorem resultSet_tag (sql : String) (reply : Reply) :
    (resultSet sql reply.messages).tag = commandTag sql reply.total := by
  cases reply with
  | rows r => rw [resultSet_rowReply, Reply.total]
  | count affected => rw [resultSet_countReply, Reply.total]

section
variable {ctx : SessionCtx} {path : Path} {sql : String} {reply : Reply} {t : List SessionEvent}

theorem lead_tag_iff {trivia : List Char} (h : Trivia trivia) (n : ℕ) :
    commandTag ((Rewording.lead trivia).apply sql) n = commandTag sql n ↔
      (Rewording.lead trivia).KeepsWord sql reply := by
  have hchars : ((Rewording.lead trivia).apply sql).toList = trivia ++ sql.toList :=
    String.toList_ofList
  simp only [Rewording.KeepsWord, opensWith_iff, exists_eq_left', ← hchars]
  obtain hblank | ⟨blank, m, rest, htrivia, hblank, hm⟩ := h.blank_or_mark
  · refine iff_of_true (commandTag_congr n ?_) (Or.inl hblank)
    rw [hchars, openingWord_blank hblank]
  · obtain ⟨cs, hopen⟩ : ∃ cs, openingWord (blank ++ m :: (rest ++ sql.toList)) = m :: cs :=
      openingWord_mark hblank hm
    have hopen' : openingWord ((Rewording.lead trivia).apply sql).toList = m :: cs := by
      rw [hchars, htrivia, List.append_assoc, List.cons_append, hopen]
    have hnot : ¬ Blank trivia := by
      intro hall
      have hspace := hall m (htrivia ▸ by simp)
      rw [(commentMarks_plain hm).1] at hspace
      cases hspace
    rw [commandTag_mark_iff hm hopen', or_iff_right hnot, eq_comm]

theorem wrap_tag_iff (r : RowReply) :
    commandTag (Rewording.wrap.apply sql) r.rows.length = commandTag sql r.rows.length ↔
      Rewording.wrap.KeepsWord sql (.rows r) := by
  have hopen : openingWord (Rewording.wrap.apply sql).toList = [] := by
    rw [Rewording.apply, String.toList_ofList]
    exact openingWord_paren _
  rw [commandTag_paren _ hopen, eq_comm, commandTag_eq_paren_iff, List.length_eq_zero_iff]
  simp only [Rewording.KeepsWord, opensWith_iff, Reply.rows.injEq, forall_eq']

theorem PassedOn.rows_iff {r : RowReply} (h : PassedOn ctx path sql (.rows r) t) :
    (∀ tag n, Tagged t tag → Counts tag n → n = dataRows t) ↔
      (r.rows ≠ [] → (OpensWith sql.toList [] → path.Drops r.columns) ∧
        (OpensCounted sql → ¬ path.Drops r.columns)) := by
  have hrows : dataRows t = if path.Drops (if r.rows = [] then [] else r.columns) then 0
      else r.rows.length := by
    rw [h.dataRows_eq, resultSet_rowReply]
  have htag : (∀ tag n, Tagged t tag → Counts tag n → n = dataRows t) ↔
      ∀ n, Counts (commandTag sql r.rows.length) n → n = dataRows t := by
    simp only [h.tagged_iff, resultSet_tag, Reply.total, forall_eq_apply_imp_iff]
    exact ⟨fun hall n hn => hall _ n rfl hn, fun hall tag n heq hn => hall n (heq ▸ hn)⟩
  rw [htag, hrows]
  simp only [counts_commandTag_iff, OpensCounted, opensWith_iff]
  by_cases hempty : r.rows = []
  · refine iff_of_true ?_ fun hne => absurd hempty hne
    rw [hempty, List.length_nil, ite_self]
    rintro n (⟨-, hn⟩ | ⟨-, hn⟩)
    · exact hn
    · exact hn
  · have hpos : r.rows.length ≠ 0 := fun hlen => hempty (List.eq_nil_of_length_eq_zero hlen)
    rw [if_neg hempty]
    by_cases hdrop : path.Drops r.columns
    · rw [if_pos hdrop]
      simp only [hdrop, not_true, imp_false, implies_true, true_and, ne_eq, hempty, not_false_iff,
        forall_const]
      constructor
      · exact fun hall hword => hpos (hall _ (Or.inl ⟨hword, rfl⟩))
      · rintro hnot n (⟨hword, -⟩ | ⟨-, hn⟩)
        · exact absurd hword hnot
        · exact hn
    · rw [if_neg hdrop]
      simp only [hdrop, not_false_iff, implies_true, and_true, ne_eq, hempty, imp_false,
        forall_const]
      constructor
      · exact fun hall hnil => hpos (hall 0 (Or.inr ⟨hnil, rfl⟩)).symm
      · rintro hnot n (⟨-, hn⟩ | ⟨hnil, -⟩)
        · exact hn
        · exact absurd hnil hnot

theorem PassedOn.affected_iff {n : UInt64} (h : PassedOn ctx path sql (.count n) t) :
    (∀ tag, Tagged t tag → Counts tag n.toNat) ↔
      OpensCounted sql ∨ OpensWith sql.toList [] ∧ n = 0 := by
  simp only [h.tagged_iff, resultSet_tag, Reply.total, forall_eq, counts_commandTag_iff,
    OpensCounted, opensWith_iff, and_true]
  have hzero : n.toNat = 0 ↔ n = 0 := UInt64.toNat_inj (b := 0)
  rw [hzero]

variable {how : Rewording} {t' : List SessionEvent}

theorem PassedOn.reworded_iff (h : PassedOn ctx path sql reply t)
    (h' : PassedOn ctx path (how.apply sql) reply t') (hneutral : how.Neutral ctx sql reply) :
    (∀ tag tag', Tagged t tag → Tagged t' tag' → tag' = tag) ↔ how.KeepsWord sql reply := by
  have htags : (∀ tag tag', Tagged t tag → Tagged t' tag' → tag' = tag) ↔
      commandTag (how.apply sql) reply.total = commandTag sql reply.total := by
    simp only [h.tagged_iff, h'.tagged_iff, resultSet_tag]
    exact ⟨fun hall => hall _ _ rfl rfl, fun heq tag tag' htag htag' => by rw [htag, htag', heq]⟩
  rw [htags]
  cases how with
  | lead trivia => exact lead_tag_iff hneutral _
  | wrap =>
    obtain ⟨-, r, rfl⟩ := hneutral
    exact wrap_tag_iff r

theorem backendAnswers_of_toClient {t : List SessionEvent} (h : ∀ e ∈ t, e.op.toClient) :
    backendAnswers t = [] := by
  refine List.filterMap_eq_nil_iff.mpr fun e he => ?_
  have hop := h e he
  obtain ⟨o, r⟩ := e
  cases o with
  | simpleQuery conn sql => exact hop.elim
  | _ => rfl

/-- A client that takes everything is sent the answer to an allowed text. -/
theorem passedOn_exists (hallow : pgVerdict ctx sql = .allow)
    (hframed : ∀ f ∈ path.frames (resultSet sql reply.messages), Framed f) :
    ∃ t, PassedOn ctx path sql reply t := by
  obtain ⟨write, hexecute, hwrite⟩ := path.execute_eq ctx sql
  have htakes (bytes : Bytes) : pgSem ctx () (.write bytes) (.ok ()) () := trivial
  obtain ⟨t, ht⟩ := writeFrames_exec htakes hframed
  have hquiet := backendAnswers_of_toClient (ht.stops.uses (writeFrames_uses _))
  obtain ⟨t₁, hanswers, hrun⟩ : ∃ t₁, backendAnswers t₁ = [reply.messages] ∧
      Exec (pgSem ctx) (runOn ctx write sql 0) () t₁ (.ok true) () := by
    refine ⟨⟨.simpleQuery 0 sql, .ok reply.messages⟩ :: (t ++ [⟨.emit (ctx.event sql .allow none
      (some (UInt64.ofNat (resultSet sql reply.messages).rows.length))), ()⟩]), ?_, .step trivial ?_⟩
    · unfold backendAnswers at hquiet ⊢
      simp [hquiet]
    · dsimp only
      rw [hwrite]
      exact ht.bind (.step trivial (.halt _ _))
  have hput : pgSem ctx () (.poolPut 0) () () := trivial
  refine ⟨⟨.evaluate sql, .allow⟩ :: ⟨.poolGet, .ok 0⟩ :: (t₁ ++ [⟨.poolPut 0, ()⟩]), ⟨(), (), ?_⟩, ?_⟩
  · rw [hexecute, firewalled_eq]
    exact .step hallow.symm (.step trivial (hrun.finally hput))
  · unfold backendAnswers at hanswers ⊢
    simp [hanswers]

end

/-! ## A comment before a query -/

def plainSql : String := "SELECT 1"

/-- A block comment and a blank. -/
def commentPrefix : List Char := ['/', '*', 'c', '*', '/', ' ']

def commentedSql : String := (Rewording.lead commentPrefix).apply plainSql

def indentedSql : String := (Rewording.lead [' ']).apply plainSql

def tagCtx : SessionCtx where
  deps := { sampleDeps with sqlparser := { sampleDeps.sqlparser with
    parsePostgres := fun sql => if sql ∈ [plainSql, commentedSql, indentedSql] then .ok selectLiteral
      else .error "expected a statement" } }
  envName := "stage"
  clientUser := "alice"
  policy := .readOnly

theorem tagCtx_allowed {sql : String} (h : sql ∈ [plainSql, commentedSql, indentedSql]) :
    pgVerdict tagCtx sql = .allow :=
  evaluate_selectLiteral (if_pos h)

def singleRow : RowReply where
  columns := ["?column?"]
  rows := [[some [0x31]]]
  reported := 1
  reported_empty := nofun

theorem singleRow_framed {sql : String} (htag : Str.len (commandTag sql 1) < 100) :
    ∀ f ∈ Path.simple.frames (resultSet sql (Reply.rows singleRow).messages), Framed f := by
  intro f hf
  have hlist : f ∈ [rowDescription [("?column?", 25)], dataRow [some [0x31]],
      commandComplete (commandTag sql 1)] := hf
  simp only [List.mem_cons, List.not_mem_nil, or_false] at hlist
  rcases hlist with rfl | rfl | rfl
  · exact framed_msg (by decide)
  · exact framed_msg (by decide)
  · refine framed_msg ?_
    rw [cstr_length]
    omega

theorem singleRow_passedOn {sql : String} (h : sql ∈ [plainSql, commentedSql, indentedSql])
    (htag : Str.len (commandTag sql 1) < 100) :
    ∃ t, PassedOn tagCtx .simple sql (.rows singleRow) t :=
  passedOn_exists (tagCtx_allowed h) (singleRow_framed htag)

end MiddleWhere.Net
