import MiddleWhere.Core.PolicySound
import MiddleWhere.Net.MysqlSafe
import MiddleWhere.Net.PgStep

/-!
# Portals and the statements they were bound from

A portal keeps its text by value and its columns by the name of a statement. The statement
that a portal was bound from is recovered from the history of the session and compared with
the one that a Describe finds under that name.
-/

namespace MiddleWhere.Net
open Prog Firewall

/-- The Bind that a message completed: it was answered with BindComplete. -/
def boundBy (turn : PgTurn) : Option BindMsg :=
  if turn.msg.1 = 0x42 ∧ sentTags turn.trace = [some 0x32] then
    match parseBind (ε := EngineError) turn.msg.2 with
    | .ok m => m
    | _ => none
  else none

/-! ## The tables after a step -/

section
variable {ctx : SessionCtx} {st st' : PgState} {t : List SessionEvent} {m : UInt8 × Bytes}

theorem boundBy_of_tag_ne (h : m.1 ≠ 0x42) : boundBy ⟨st, m, t⟩ = none :=
  if_neg fun hbind => h hbind.1

theorem boundBy_of_sentTags_ne (h : sentTags t ≠ [some 0x32]) : boundBy ⟨st, m, t⟩ = none :=
  if_neg fun hbind => h hbind.2

/-- Only a completed Bind makes a portal. -/
theorem PgStep.portals (h : PgStep ctx st t m (some st')) :
    (boundBy ⟨st, m, t⟩ = none ∧
      ∀ (name : String) (po : Portal), st'.portals[name]? = some po →
        st.portals[name]? = some po) ∨
    ∃ b prep rendered inlined, boundBy ⟨st, m, t⟩ = some b ∧ st.prepared[b.stmt]? = some prep ∧
      renderAll ctx.deps prep.paramOids b.paramFormats 0 b.params = .ok rendered ∧
      inlineParams (ε := EngineError) prep.sql rendered = .ok inlined ∧
      st' = { st with portals := st.portals.insert b.portal ⟨b.stmt, inlined⟩ } := by
  generalize hnext : some st' = next at h
  cases h with
  | skip hskip htag ht =>
    obtain rfl := Option.some.inj hnext
    subst ht
    exact Or.inl ⟨boundBy_of_sentTags_ne (by decide), fun _ _ h => h⟩
  | refuse hskip htag hreplied =>
    obtain rfl := Option.some.inj hnext
    refine Or.inl ⟨boundBy_of_sentTags_ne ?_, fun _ _ h => h⟩
    rw [hreplied.sentTags_msg]
    decide
  | parse hskip hparse hprepare hreplied =>
    obtain rfl := Option.some.inj hnext
    exact Or.inl ⟨boundBy_of_tag_ne (by simp), fun _ _ h => h⟩
  | @bind body b prep rendered inlined hskip hparse hprep hrender hinline hreplied =>
    obtain rfl := Option.some.inj hnext
    refine Or.inr ⟨b, prep, rendered, inlined, ?_, hprep, hrender, hinline, rfl⟩
    unfold boundBy
    rw [if_pos ⟨rfl, hreplied.sentTags_msg⟩]
    dsimp only
    rw [hparse]
  | describe hskip hparse hreplied =>
    obtain rfl := Option.some.inj hnext
    exact Or.inl ⟨boundBy_of_tag_ne (by simp), fun _ _ h => h⟩
  | execute hskip hportal hran =>
    obtain rfl := Option.some.inj hnext
    exact Or.inl ⟨boundBy_of_tag_ne (by simp), fun _ _ h => h⟩
  | @close body target hparse hreplied =>
    obtain rfl := Option.some.inj hnext
    refine Or.inl ⟨boundBy_of_tag_ne (by simp), fun name po hpo => ?_⟩
    unfold closed at hpo
    split at hpo
    · exact hpo
    · split_ifs at hpo with hkind
      · exact hpo
      · rw [Std.ExtTreeMap.getElem?_erase] at hpo
        split_ifs at hpo
        exact hpo
  | flush ht =>
    obtain rfl := Option.some.inj hnext
    exact Or.inl ⟨boundBy_of_tag_ne (by simp), fun _ _ h => h⟩
  | sync hreplied =>
    obtain rfl := Option.some.inj hnext
    exact Or.inl ⟨boundBy_of_tag_ne (by simp), fun _ _ h => h⟩
  | terminate ht => cases hnext
  | query hfs hreplied =>
    obtain rfl := Option.some.inj hnext
    exact Or.inl ⟨boundBy_of_tag_ne (by simp), fun _ _ h => h⟩
  | unsupported htag hreplied =>
    obtain rfl := Option.some.inj hnext
    refine Or.inl ⟨boundBy_of_tag_ne ?_, fun _ _ h => h⟩
    rintro rfl
    exact htag (by decide)

/-- Only a Parse that the backend answered makes a prepared statement. -/
theorem PgStep.prepared (h : PgStep ctx st t m (some st')) {name : String} {prep : Prepared}
    (hprep : st'.prepared[name]? = some prep) : st.prepared[name]? = some prep ∨
      ∃ conn sql params cols, ⟨.prepare conn sql, .ok (params, cols)⟩ ∈ t ∧
        prep = preparedOf sql params cols := by
  generalize hnext : some st' = next at h
  cases h with
  | parse hskip hparse hprepare hreplied =>
    obtain rfl := Option.some.inj hnext
    rw [Std.ExtTreeMap.getElem?_insert] at hprep
    split_ifs at hprep
    · exact Or.inr ⟨_, _, _, _, hprepare, (Option.some.inj hprep).symm⟩
    · exact Or.inl hprep
  | @close body target hparse hreplied =>
    obtain rfl := Option.some.inj hnext
    left
    unfold closed at hprep
    split at hprep
    · exact hprep
    · split_ifs at hprep with hkind
      · rw [Std.ExtTreeMap.getElem?_erase] at hprep
        split_ifs at hprep
        exact hprep
      · exact hprep
  | terminate ht => cases hnext
  | _ =>
    obtain rfl := Option.some.inj hnext
    exact Or.inl hprep

end

/-! ## The statement a portal was bound from -/

/-- One message of the history: a completed Bind binds its portal to the statement that its
name then had. -/
def binds (bound : Table Prepared) (turn : PgTurn) : Table Prepared :=
  match boundBy turn with
  | some b =>
    match turn.state.prepared[b.stmt]? with
    | some prep => bound.insert b.portal prep
    | none => bound
  | none => bound

def boundFrom (ts : List PgTurn) : Table Prepared := ts.foldl binds ∅

/-- The answer to a Describe of a portal with these columns. -/
def columnsFrame (cols : List (String × ℤ)) : Frame :=
  if cols.isEmpty then noData else rowDescription cols

/-- A backend that reports the columns of a text, the same at every Parse. -/
def catalogSem (ctx : SessionCtx) (columns : String → List (String × ℤ)) : Sem sessionSig Unit :=
  fun s o r s' => pgSem ctx s o r s' ∧ match o, r with
    | .prepare _ sql, .ok (params, cols) => (preparedOf sql params cols).colMeta = columns sql
    | _, _ => True

section
variable (columns : String → List (String × ℤ))

def Reported (prep : Prepared) : Prop := prep.colMeta = columns prep.sql

/-- Each portal holds its statement's text with the parameters inlined. -/
structure Bound (bound : Table Prepared) (st : PgState) : Prop where
  prepared : ∀ (name : String) (prep : Prepared), st.prepared[name]? = some prep →
    Reported columns prep
  portals : ∀ (name : String) (po : Portal), st.portals[name]? = some po →
    ∃ prep rendered, bound[name]? = some prep ∧ Reported columns prep ∧
      inlineParams (ε := EngineError) prep.sql rendered = .ok po.sql

variable {columns} {ctx : SessionCtx} {bound : Table Prepared} {st st' : PgState}
  {m : UInt8 × Bytes} {t : List SessionEvent} {s s' : Unit}

theorem Bound.step (h : Bound columns bound st)
    (hexec : Exec (catalogSem ctx columns) ((serve ctx).handle st m) s t (.ok (some st')) s') :
    Bound columns (binds bound ⟨st, m, t⟩) st' := by
  have hstep : PgStep ctx st t m (some st') := (pgHandle_step ctx st m.2 s m.1).exec hexec
  have hprepared (name : String) (prep : Prepared) (hprep : st'.prepared[name]? = some prep) :
      Reported columns prep := by
    obtain hold | ⟨conn, sql, params, cols, hmem, rfl⟩ := hstep.prepared hprep
    · exact h.prepared name prep hold
    · obtain ⟨_, _, -, hcolumns⟩ := hexec.answers _ hmem
      exact hcolumns
  refine ⟨hprepared, fun name po hpo => ?_⟩
  unfold binds
  obtain ⟨hnone, hportals⟩ | ⟨b, prep, rendered, inlined, hbound, hprep, -, hinline, rfl⟩ :=
    hstep.portals
  · rw [hnone]
    exact h.portals name po (hportals name po hpo)
  · rw [hbound]
    dsimp only
    rw [hprep]
    rw [Std.ExtTreeMap.getElem?_insert] at hpo ⊢
    split_ifs at hpo ⊢ with hname
    · obtain rfl := Option.some.inj hpo
      exact ⟨prep, rendered, rfl, h.prepared b.stmt prep hprep, hinline⟩
    · exact h.portals name po hpo

theorem run_bound {ts : List PgTurn}
    (h : (serve ctx).Run (catalogSem ctx columns) {} s ts st s') :
    Bound columns (boundFrom ts) st := by
  have hempty : Bound columns ∅ {} := ⟨by simp, by simp⟩
  exact h.record (fun _ _ _ _ _ _ _ hb hexec => hb.step hexec) hempty

variable (columns) in
/-- The portal's name has a statement with the columns of the one it was bound from; where
its statement is gone, that one had none. -/
def StillBound (bound : Table Prepared) (st : PgState) (name : String) (po : Portal) : Prop :=
  columnsFrame ((st.prepared[po.stmt]?).elim [] fun prep => columns prep.sql) =
    columnsFrame ((bound[name]?).elim [] fun prep => columns prep.sql)

/-- The portal that a Describe asks for, unless it is skipped. -/
def describedPortal (turn : PgTurn) : Option (String × Portal) :=
  if turn.msg.1 = 0x44 ∧ turn.state.skipUntilSync = false then
    match parseDescribeOrClose (ε := EngineError) turn.msg.2 with
    | .ok (some (kind, name)) =>
      if kind = 0x53 then none else (turn.state.portals[name]?).map fun po => (name, po)
    | _ => none
  else none

theorem describedPortal_eq_some {name : String} {po : Portal}
    (h : describedPortal ⟨st, m, t⟩ = some (name, po)) : m.1 = 0x44 ∧ st.skipUntilSync = false ∧
      st.portals[name]? = some po ∧ ∃ kind, kind ≠ 0x53 ∧
        parseDescribeOrClose (ε := EngineError) m.2 = .ok (some (kind, name)) := by
  unfold describedPortal at h
  split_ifs at h with htag
  split at h
  · rename_i kind name' hparse
    split_ifs at h with hkind
    obtain ⟨po', hpo, hpair⟩ := Option.map_eq_some_iff.mp h
    obtain ⟨rfl, rfl⟩ := Prod.mk.inj hpair
    exact ⟨htag.1, htag.2, hpo, kind, hkind, hparse⟩
  · cases h

theorem metaFrames_portal {kind : UInt8} {name : String} {po : Portal} (hkind : kind ≠ 0x53)
    (hportal : st.portals[name]? = some po) : metaFrames (describe st kind name) =
      [columnsFrame ((st.prepared[po.stmt]?).elim [] Prepared.colMeta)] := by
  have hdescribe : describe st kind name =
      (st.prepared[po.stmt]?).map fun prep => (none, prep.colMeta) := by
    unfold describe
    rw [if_neg hkind, hportal]
    change (st.prepared[po.stmt]?).bind (fun prep => some (none, prep.colMeta)) = _
    cases st.prepared[po.stmt]? <;> rfl
  rw [hdescribe]
  cases st.prepared[po.stmt]? <;> rfl

/-- A Describe of a portal reports the columns of the statement that its name has now. -/
theorem PgStep.replied_describe {next : Option PgState} {name : String} {po : Portal}
    (h : PgStep ctx st t m next) (hpo : describedPortal ⟨st, m, t⟩ = some (name, po)) :
    Replied [columnsFrame ((st.prepared[po.stmt]?).elim [] Prepared.colMeta)] t := by
  obtain ⟨tag, body⟩ := m
  obtain ⟨htag, hskip, hportal, kind, hkind, hparse⟩ := describedPortal_eq_some hpo
  obtain rfl : tag = 0x44 := htag
  cases h with
  | skip hskip' =>
    rw [hskip'] at hskip
    cases hskip
  | refuse _ hmem => exact absurd hmem (by decide)
  | describe _ hparse' hreplied =>
    rw [hparse] at hparse'
    obtain rfl := Outcome.ok.inj hparse'
    rw [Option.bind_some, metaFrames_portal hkind hportal] at hreplied
    exact hreplied
  | unsupported hmem => exact absurd (by decide) hmem

theorem replied_iff {f f' : Frame} (h : Replied [f] t) : Replied [f'] t ↔ f = f' := by
  unfold Replied at h ⊢
  rw [h, List.singleton_inj]

end

/-! ## A statement closed under its portal -/

def tableText : String := "TABLE t"

def tableTree : List Sql.Statement := [.query (.mk [] .table [])]

def tableCtx : SessionCtx where
  deps := { sampleDeps with sqlparser := parserOf tableText tableTree }
  envName := "stage"
  clientUser := "alice"
  policy := .readOnly

theorem tableText_allowed :
    Firewall.evaluate tableText .readOnly (pgProfile tableCtx.deps.sqlparser) = .allow := by
  have hparse : (pgProfile tableCtx.deps.sqlparser).parse tableText = .ok tableTree := by
    simp [tableCtx, pgProfile, parserOf]
  unfold Firewall.evaluate
  rw [hparse]
  rfl

def oneColumn (_ : String) : List (String × ℤ) := [("id", 23)]

def parseMsg : UInt8 × Bytes :=
  (0x50, [0x73, 0, 0x54, 0x41, 0x42, 0x4C, 0x45, 0x20, 0x74, 0, 0, 0])

def bindMsg : UInt8 × Bytes := (0x42, [0x70, 0, 0x73, 0, 0, 0, 0, 0, 0, 0])

def describeMsg : UInt8 × Bytes := (0x44, [0x50, 0x70, 0])

def closeStatementMsg : UInt8 × Bytes := (0x43, [0x53, 0x73, 0])

theorem tableText_bytes :
    Str.asBytes tableText = [0x54, 0x41, 0x42, 0x4C, 0x45, 0x20, 0x74] := by
  decide

def tableStatement : Prepared := ⟨tableText, [], oneColumn tableText⟩

def parsedState : PgState := { prepared := (∅ : Table Prepared).insert "s" tableStatement }

def boundState : PgState :=
  { parsedState with portals := (∅ : Table Portal).insert "p" ⟨"s", tableText⟩ }

theorem boundState_portal : boundState.portals["p"]? = some ⟨"s", tableText⟩ := by
  simp [boundState]

theorem parseMsg_handled : ∃ t, Exec (catalogSem tableCtx oneColumn)
    ((serve tableCtx).handle {} parseMsg) () t (.ok (some parsedState)) () := by
  obtain ⟨bytes, hbytes⟩ : Framed parseComplete := framed_msg_nil
  have hparse : parseParse (ε := EngineError) parseMsg.2 = .ok (some ⟨"s", tableText⟩) := by
    rfl
  have hhandle : (serve tableCtx).handle {} parseMsg = onParse tableCtx {} parseMsg.2 := by
    rw [serve_handle]
    rfl
  refine ⟨[⟨.evaluate tableText, .allow⟩, ⟨.poolGet, .ok 0⟩,
    ⟨.prepare 0 tableText, .ok ([], [("id", 23)])⟩, ⟨.poolPut 0, ()⟩, ⟨.write bytes, .ok ()⟩], ?_⟩
  rw [hhandle, onParse, hparse]
  refine .step ⟨tableText_allowed.symm, trivial⟩ (.step ⟨trivial, trivial⟩ ?_)
  refine .step ⟨trivial, by decide⟩ (.step ⟨trivial, trivial⟩ ?_)
  have hwrite : Exec (catalogSem tableCtx oneColumn) ((writeRaw parseComplete).bind fun _ =>
      .halt (.ok (some parsedState))) () [⟨.write bytes, .ok ()⟩] (.ok (some parsedState)) () := by
    rw [hbytes]
    exact .step ⟨trivial, trivial⟩ (.halt _ _)
  exact hwrite

theorem bindMsg_handled : ∃ t, Replied [bindComplete] t ∧ Exec (catalogSem tableCtx oneColumn)
    ((serve tableCtx).handle parsedState bindMsg) () t (.ok (some boundState)) () := by
  obtain ⟨bytes, hbytes⟩ : Framed bindComplete := framed_msg_nil
  have hparse : parseBind (ε := EngineError) bindMsg.2 = .ok (some ⟨"p", "s", [], []⟩) := by
    rfl
  have hprep : parsedState.prepared["s"]? = some tableStatement := by
    simp [parsedState]
  have hinline : inlineParams (ε := EngineError) tableText [] = .ok tableText := by
    have hplain : ∀ c ∈ Str.asBytes tableText, c ∉ special := by
      rw [tableText_bytes]
      simp [special]
    rw [inlineParams_plain hplain, tableText_bytes]
    rfl
  have hhandle : (serve tableCtx).handle parsedState bindMsg =
      onBind tableCtx parsedState bindMsg.2 := by
    rw [serve_handle]
    rfl
  have hbind : onBind tableCtx parsedState bindMsg.2 =
      (writeRaw bindComplete).bind fun _ => .halt (.ok (some boundState)) := by
    unfold onBind
    rw [if_neg (by decide), hparse]
    simp only [lift, bind_eq, halt_ok_bind, hprep]
    rw [show tableStatement.sql = tableText from rfl]
    simp only [renderAll, hinline]
    rfl
  refine ⟨[⟨.write bytes, .ok ()⟩], by rw [hbytes]; rfl, ?_⟩
  rw [hhandle, hbind, hbytes]
  exact .step ⟨trivial, trivial⟩ (.halt _ _)

theorem closeStatementMsg_handled : ∃ t st, st.portals = boundState.portals ∧
    st.prepared["s"]? = none ∧ st.skipUntilSync = false ∧
    Exec (catalogSem tableCtx oneColumn)
      ((serve tableCtx).handle boundState closeStatementMsg) () t (.ok (some st)) () := by
  obtain ⟨bytes, hbytes⟩ : Framed closeComplete := framed_msg_nil
  have hclose : (serve tableCtx).handle boundState closeStatementMsg =
      onClose boundState closeStatementMsg.2 := by
    rw [serve_handle]
    rfl
  refine ⟨[⟨.write bytes, .ok ()⟩], closed boundState (some (0x53, "s")), rfl, ?_, rfl, ?_⟩
  · have hclosed : (closed boundState (some (0x53, "s"))).prepared =
        boundState.prepared.erase "s" := rfl
    rw [hclosed]
    simp
  · rw [hclose, onClose, hbytes]
    exact .step ⟨trivial, trivial⟩ (.halt _ _)

/-- A Describe of the portal, in any state that still has it. -/
theorem describeMsg_handled (st : PgState) (hportals : st.portals = boundState.portals)
    (hskip : st.skipUntilSync = false)
    (hframed : Framed (columnsFrame ((st.prepared["s"]?).elim [] Prepared.colMeta))) : ∃ t,
      describedPortal ⟨st, describeMsg, t⟩ = some ("p", ⟨"s", tableText⟩) ∧
      Exec (catalogSem tableCtx oneColumn) ((serve tableCtx).handle st describeMsg) () t
        (.ok (some st)) () := by
  have hportal : st.portals["p"]? = some ⟨"s", tableText⟩ := by
    rw [hportals]
    exact boundState_portal
  have hhandle : (serve tableCtx).handle st describeMsg = onDescribe st describeMsg.2 := by
    rw [serve_handle]
    rfl
  have hparse : parseDescribeOrClose (ε := EngineError) describeMsg.2 = .ok (some (0x50, "p")) := by
    rfl
  obtain ⟨bytes, hbytes⟩ := hframed
  have hdescribe : onDescribe st describeMsg.2 =
      (writeRaw (.ok bytes)).bind fun _ => .halt (.ok (some st)) := by
    rw [onDescribe_eq, hskip, if_neg (by decide), hparse, lift, halt_ok_bind, Option.bind_some,
      metaFrames_portal (by decide) hportal, hbytes, writeFrames_single]
  refine ⟨[⟨.write bytes, .ok ()⟩], ?_, ?_⟩
  · unfold describedPortal
    rw [if_pos ⟨rfl, hskip⟩, hparse]
    dsimp only
    rw [if_neg (by decide), hportal]
    rfl
  · rw [hhandle, hdescribe]
    exact .step ⟨trivial, trivial⟩ (.halt _ _)

theorem catalogSem_recv (bytes : Bytes) :
    catalogSem tableCtx oneColumn () (.recv bytes.length) (.ok bytes) () :=
  ⟨pgSem_recv tableCtx bytes, trivial⟩

theorem boundState_run : ∃ ts,
    (serve tableCtx).Run (catalogSem tableCtx oneColumn) {} () ts boundState () := by
  obtain ⟨t₁, hparse⟩ := parseMsg_handled
  obtain ⟨t₂, -, hbind⟩ := bindMsg_handled
  obtain ⟨_, hread⟩ := pgRead_exec catalogSem_recv [0, 0, 0, 16] parseMsg rfl (by decide)
    (by decide)
  obtain ⟨_, hread'⟩ := pgRead_exec catalogSem_recv [0, 0, 0, 14] bindMsg rfl (by decide)
    (by decide)
  exact ⟨_, .turn hread hparse (.turn hread' hbind (.nil _ _))⟩

end MiddleWhere.Net
