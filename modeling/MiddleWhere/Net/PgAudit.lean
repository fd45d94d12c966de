import MiddleWhere.Core.PolicySound
import MiddleWhere.Net.AuditExact
import MiddleWhere.Net.PgFrames

/-!
# One audit event for each query: Postgres

The two paths of the engine that run a text share their shape: they audit a refusal, answer
a failing pool without an event, audit a failing backend as a denial, and audit a result
after it has been written.
-/

namespace MiddleWhere.Net
open Prog Firewall

def pgVerdict (ctx : SessionCtx) (sql : String) : Decision :=
  Firewall.evaluate sql ctx.policy (pgProfile ctx.deps.sqlparser)

/-- The answers that let a result pass: each of its frames has a length that the header
holds, and the socket takes what is written before the closing ReadyForQuery. -/
def PgFine (frames : ResultSet → List Frame) (sql : String) : SessionEvent → Prop
  | ⟨.write bytes, r⟩ => r = .ok () ∨ bytes = readyFrame
  | ⟨.flush, r⟩ => r = .ok ()
  | ⟨.simpleQuery _ _, .ok msgs⟩ => ∀ f ∈ frames (resultSet sql msgs), Framed f
  | _ => True

section
variable {M : Sem sessionSig Unit} (ctx : SessionCtx) (frames : ResultSet → List Frame)

theorem refuse_uses (sqlstate message : String) :
    (refuse sqlstate message).Uses SessionOp.toClient :=
  uses_bind (writeRaw_uses _) fun _ => trivial

theorem pgFine_iff_took {sql : String} {e : SessionEvent} (hop : e.op.toClient)
    (h : Unready e.op) : PgFine frames sql e ↔ Took e := by
  obtain ⟨o, r⟩ := e
  cases o with
  | write bytes =>
    have hne : bytes ≠ readyFrame := fun heq => h (by rw [heq]; rfl)
    simp [PgFine, Took, hne]
  | flush => simp [PgFine, Took]
  | _ => exact hop.elim

theorem refuse_emits (sqlstate message sql : String) (s : Unit) :
    wp M (refuse sqlstate message) (fun t _ _ => emitted t = [] ∧ ¬ BackendRan sql t) s := by
  intro t out s' ht
  have huses := ht.stops.uses (refuse_uses sqlstate message)
  refine ⟨emitted_of_toClient huses, not_backendRan_of_unheard fun e he => ?_⟩
  exact handedOver_toClient e.op (huses e he)

/-- What is written for a result: nothing is audited. -/
theorem writeFrames_quiet {fs : List Frame} (hunready : ∀ f ∈ fs, UnreadyFrame f) (sql : String)
    (s : Unit) : wp M (writeFrames fs) (fun t out _ => emitted t = [] ∧
      ((∃ a, out = .ok a) ↔ (∀ f ∈ fs, Framed f) ∧ ∀ e ∈ t, PgFine frames sql e)) s := by
  intro t out s' ht
  have hclient := ht.stops.uses (writeFrames_uses fs)
  have hready := ht.stops.uses (writeFrames_unready hunready)
  have hfine : (∀ e ∈ t, PgFine frames sql e) ↔ ∀ e ∈ t, Took e :=
    forall₂_congr fun e he => pgFine_iff_took frames (hclient e he) (hready e he)
  refine ⟨emitted_of_toClient hclient, ?_⟩
  rw [hfine]
  exact writeFrames_succeedsIff fs s t out s' ht

variable {write : ResultSet → SessionProg EngineError Unit} {frames}

theorem runOn_audited (hwrite : ∀ rs, write rs = writeFrames (frames rs))
    (hunready : ∀ rs, ∀ f ∈ frames rs, UnreadyFrame f) (sql : String) (conn : ConnId) (s : Unit) :
    wp M (runOn ctx write sql conn) (fun t _ _ =>
      RunAudited ctx (PgFine frames sql) sql .deny t) s := by
  unfold runOn
  rw [wp_call]
  intro r s' _
  cases r with
  | error e =>
    dsimp only
    rw [wp_call]
    intro _ s₁ _
    refine wp_mono (refuse_emits sqlstateInternal "query failed" sql s₁) ?_
    rintro t _ _ ⟨hemit, hran⟩
    have hone : emitted (⟨.simpleQuery conn sql, .error e⟩ ::
        ⟨.emit (ctx.event sql .deny (some "backend error") none), ()⟩ :: t) =
        [ctx.event sql .deny (some "backend error") none] := by
      rw [← hemit]
      rfl
    exact .refused (by simp [Ran, hran]) hone
  | ok msgs =>
    dsimp only
    rw [hwrite]
    exact runAudited_of_passes (writeFrames_quiet frames (hunready _) sql s') rfl Iff.rfl fun _ => trivial

/-- What the audit of a text depends on: once allowed, a backend has to run it and its
result has to be taken. -/
def PgAudited (frames : ResultSet → List Frame) (sql : String) (t : List SessionEvent) : Prop :=
  pgVerdict ctx sql = .allow → BackendRan sql t ∧ ∀ e ∈ t, PgFine frames sql e

/-- Running a text, and what comes after it without touching the audit. -/
theorem firewalled_audited (hwrite : ∀ rs, write rs = writeFrames (frames rs))
    (hunready : ∀ rs, ∀ f ∈ frames rs, UnreadyFrame f) {sql : String} {t rest : List SessionEvent}
    {out : Outcome EngineError Bool} {s s' : Unit}
    (ht : Exec (pgSem ctx) (firewalled write ctx sql) s t out s') (hemit : emitted rest = [])
    (hran : ¬ BackendRan sql rest) (hfine : ∀ e ∈ rest, PgFine frames sql e) :
    AuditExact ctx (pgVerdict ctx sql) sql (t ++ rest) ↔ PgAudited ctx frames sql (t ++ rest) := by
  rw [firewalled_eq] at ht
  obtain ⟨verdict, s₁, t₁, hverdict, ht₁, rfl⟩ := exec_call_iff.mp ht
  cases verdict with
  | deny reason =>
    have hdeny : pgVerdict ctx sql = .deny reason := hverdict.symm
    obtain ⟨_, s₂, t₂, -, ht₂, rfl⟩ := exec_call_iff.mp ht₁
    have hone : emitted (⟨.evaluate sql, .deny reason⟩ ::
        ⟨.emit (ctx.event sql .deny (some reason) none), ()⟩ :: t₂ ++ rest) =
        [ctx.event sql .deny (some reason) none] := by
      have hnone := (refuse_emits _ _ sql s₂ t₂ out s' ht₂).1
      rw [emitted_append, hemit, List.append_nil, emitted_evaluate, emitted_emit, hnone]
    have haudit : AuditExact ctx (pgVerdict ctx sql) sql (⟨.evaluate sql, .deny reason⟩ ::
        ⟨.emit (ctx.event sql .deny (some reason) none), ()⟩ :: t₂ ++ rest) := by
      rw [auditExact_iff_of_single hone, hdeny]
      simp
    refine iff_of_true haudit ?_
    intro hallow
    rw [hdeny] at hallow
    cases hallow
  | allow =>
    have hallow : pgVerdict ctx sql = .allow := hverdict.symm
    obtain ⟨conn, s₂, t₂, -, ht₂, rfl⟩ := exec_call_iff.mp ht₁
    cases conn with
    | error e =>
      obtain ⟨hnone, hnot⟩ := refuse_emits _ _ sql s₂ t₂ out s' ht₂
      refine iff_of_false (not_auditExact_of_nil ?_) fun h => ?_
      · simp [hnone, hemit]
      · have hdone := (h hallow).1
        simp [Ran, hnot, hran] at hdone
    | ok conn =>
      obtain ⟨t₀, s₀, put, hrun, rfl, hput⟩ := ht₂.of_finally
      have haudited := runOn_audited ctx hwrite hunready sql conn s₂ t₀ out s₀ hrun
      have hput' : emitted put = [] ∧ ¬ BackendRan sql put ∧ ∀ e ∈ put, PgFine frames sql e := by
        rcases hput with rfl | ⟨r, rfl⟩
        · exact ⟨rfl, by simp [BackendRan], List.forall_mem_nil _⟩
        · exact ⟨rfl, by simp [BackendRan, Ran], by simp [PgFine]⟩
      have hall := auditExact_run conn haudited (by decide)
        (by rw [emitted_append, hput'.1, hemit, List.append_nil])
        (by rw [backendRan_append, not_or]; exact ⟨hput'.2.1, hran⟩)
        (List.forall_mem_append.mpr ⟨hput'.2.2, hfine⟩) ⟨trivial, trivial⟩
      have hassoc : (⟨.evaluate sql, .allow⟩ :: ⟨.poolGet, .ok conn⟩ :: (t₀ ++ put) ++ rest :
          List SessionEvent) =
          ⟨.evaluate sql, .allow⟩ :: ⟨.poolGet, .ok conn⟩ :: (t₀ ++ (put ++ rest)) := by simp
      rw [hassoc, hallow, hall, PgAudited, hallow]
      exact ⟨fun h _ => ⟨h.2 rfl, h.1 (h.2 rfl)⟩, fun h => ⟨fun _ => (h rfl).2, fun _ => (h rfl).1⟩⟩

end

/-! ## Requests -/

/-- The text that a message asks to execute: a query that is not blank, or a bound portal. -/
def pgRequest (st : PgState) (m : UInt8 × Bytes) : Option String :=
  if m.1 = 0x51 then
    if (Str.trim (queryText m.2).toList).isEmpty then none else some (queryText m.2)
  else if m.1 = 0x45 then (st.portals[queryText m.2]?).map Portal.sql
  else none

def framesOf (tag : UInt8) : ResultSet → List Frame :=
  if tag = 0x51 then resultSetFrames else rowsOnlyFrames

/-- What the audit of a request depends on: an Execute must not be skipped, and an allowed
text has to be run and its result taken. -/
structure PgTurnAudited (ctx : SessionCtx) (turn : Turn sessionSig PgState (UInt8 × Bytes))
    (sql : String) : Prop where
  heard : turn.msg.1 = 0x45 → turn.state.skipUntilSync = false
  served : PgAudited ctx (framesOf turn.msg.1) sql turn.trace

section
variable (ctx : SessionCtx)

/-- The ReadyForQuery that ends a simple query has no part in the audit. -/
theorem readyForQuery_rest {sql : String} {frames : ResultSet → List Frame} {st : PgState}
    {t : List SessionEvent} {out : Outcome EngineError (Option PgState)} {s s' : Unit}
    (ht : Exec (pgSem ctx) ((writeRaw readyForQuery).bind fun _ => .halt (.ok (some st))) s t out
      s') : emitted t = [] ∧ ¬ BackendRan sql t ∧ ∀ e ∈ t, PgFine frames sql e := by
  have huses : ((writeRaw readyForQuery).bind fun _ =>
      (.halt (.ok (some st)) : SessionProg EngineError (Option PgState))).Uses
        (fun o => o = SessionOp.write readyFrame) := by
    rw [readyForQuery_eq, writeRaw_ok]
    exact uses_bind ⟨rfl, fun _ => uses_ofExcept _⟩ fun _ => trivial
  have hops := ht.stops.uses huses
  have hready (e : SessionEvent) (he : e ∈ t) : ∃ r, e = ⟨.write readyFrame, r⟩ := by
    obtain ⟨o, r⟩ := e
    obtain rfl : o = .write readyFrame := hops _ he
    exact ⟨r, rfl⟩
  refine ⟨?_, ?_, ?_⟩
  · apply emitted_of_toClient
    intro e he
    rw [hops e he]
    trivial
  · rintro ⟨e, he, hran⟩
    obtain ⟨r, rfl⟩ := hready e he
    exact hran
  · intro e he
    obtain ⟨r, rfl⟩ := hready e he
    exact Or.inr rfl

theorem onQuery_audited {st : PgState} {body : Bytes} {t : List SessionEvent}
    {out : Outcome EngineError (Option PgState)} {s s' : Unit}
    (hsql : (Str.trim (queryText body).toList).isEmpty = false)
    (ht : Exec (pgSem ctx) (onQuery ctx st body) s t out s') :
    AuditExact ctx (pgVerdict ctx (queryText body)) (queryText body) t ↔
      PgAudited ctx resultSetFrames (queryText body) t := by
  rw [onQuery_eq, hsql, if_neg Bool.false_ne_true] at ht
  have hempty : ∀ e ∈ ([] : List SessionEvent), PgFine resultSetFrames (queryText body) e :=
    List.forall_mem_nil _
  obtain ⟨ran, t₁, t₂, s₁, hexec, hrest, rfl⟩ | ⟨e, rfl, hexec⟩ | ⟨rfl, hexec⟩ :=
    exec_bind_iff.mp ht
  · obtain ⟨hemit, hran, hfine⟩ := readyForQuery_rest ctx hrest
    exact firewalled_audited ctx writeResultSet_eq resultSetFrames_unready hexec hemit hran hfine
  · simpa using firewalled_audited ctx writeResultSet_eq resultSetFrames_unready hexec
      emitted_nil (by simp [BackendRan]) hempty
  · simpa using firewalled_audited ctx writeResultSet_eq resultSetFrames_unready hexec
      emitted_nil (by simp [BackendRan]) hempty

theorem onExecute_audited {st : PgState} {body : Bytes} {portal : Portal} {t : List SessionEvent}
    {out : Outcome EngineError (Option PgState)} {s s' : Unit}
    (hportal : st.portals[queryText body]? = some portal) (hskip : st.skipUntilSync = false)
    (ht : Exec (pgSem ctx) (onExecute ctx st body) s t out s') :
    AuditExact ctx (pgVerdict ctx portal.sql) portal.sql t ↔
      PgAudited ctx rowsOnlyFrames portal.sql t := by
  rw [onExecute_eq, hskip, if_neg Bool.false_ne_true, hportal] at ht
  have hempty : ∀ e ∈ ([] : List SessionEvent), PgFine rowsOnlyFrames portal.sql e :=
    List.forall_mem_nil _
  have haudited {out : Outcome EngineError Bool} {s' : Unit} {t : List SessionEvent}
      (hexec : Exec (pgSem ctx) (execRowsOnly ctx portal.sql) s t out s') :
      AuditExact ctx (pgVerdict ctx portal.sql) portal.sql t ↔
        PgAudited ctx rowsOnlyFrames portal.sql t := by
    simpa using firewalled_audited ctx writeRowsOnly_eq rowsOnlyFrames_unready hexec
      emitted_nil (by simp [BackendRan]) hempty
  obtain ⟨ran, t₁, t₂, s₁, hexec, hrest, rfl⟩ | ⟨e, rfl, hexec⟩ | ⟨rfl, hexec⟩ :=
    exec_bind_iff.mp ht
  · obtain ⟨rfl, -, -⟩ := exec_halt_iff.mp hrest
    rw [List.append_nil]
    exact haudited hexec
  · exact haudited hexec
  · exact haudited hexec

theorem pgTurn_audited {turn : Turn sessionSig PgState (UInt8 × Bytes)} {sql : String}
    {out : Outcome EngineError (Option PgState)} {s s' : Unit}
    (hsql : pgRequest turn.state turn.msg = some sql)
    (ht : Exec (pgSem ctx) (pgHandle ctx turn.state turn.msg.1 turn.msg.2) s turn.trace out s') :
    AuditExact ctx (pgVerdict ctx sql) sql turn.trace ↔ PgTurnAudited ctx turn sql := by
  obtain ⟨st, ⟨tag, body⟩, t⟩ := turn
  dsimp only at hsql ht
  unfold pgRequest at hsql
  by_cases hquery : tag = 0x51
  · subst hquery
    by_cases hblank : (Str.trim (queryText body).toList).isEmpty = true
    · simp [hblank] at hsql
    · obtain rfl : queryText body = sql := by simpa [hblank] using hsql
      have hiff := onQuery_audited ctx (Bool.not_eq_true _ ▸ hblank) ht
      exact hiff.trans ⟨fun h => ⟨nofun, h⟩, fun h => h.served⟩
  · by_cases hexecute : tag = 0x45
    · subst hexecute
      obtain ⟨portal, hportal, rfl⟩ : ∃ portal, st.portals[queryText body]? = some portal ∧
          portal.sql = sql := by simpa using hsql
      by_cases hskip : st.skipUntilSync = true
      · -- a skipped Execute calls nothing
        have hnone : t = [] := by
          have ht' : Exec (pgSem ctx) (onExecute ctx st body) s t out s' := ht
          rw [onExecute_eq, if_pos hskip] at ht'
          exact (exec_halt_iff.mp ht').1
        refine iff_of_false (not_auditExact_of_nil (by rw [hnone]; rfl)) fun h => ?_
        have hheard := h.heard rfl
        dsimp only at hheard
        rw [hskip] at hheard
        cases hheard
      · have hskip' : st.skipUntilSync = false := by simpa using hskip
        have hiff := onExecute_audited ctx hportal hskip' ht
        exact hiff.trans ⟨fun h => ⟨fun _ => hskip', h⟩, fun h => h.served⟩
    · simp [hquery, hexecute] at hsql

/-- In every run of either session, the audit of each request is exact just when these
conditions on the text and on the answers of pool, backend and client hold. -/
theorem auditExact_iff :
    (∀ turn out sql, (serveSession ctx).Handled (mysqlSem ctx) () () turn out →
      comQuery turn.msg = some sql →
      (AuditExact ctx (mysqlVerdict ctx sql) sql turn.trace ↔
        MysqlAudited ctx sql turn.trace)) ∧
    (∀ turn out sql, (serve ctx).Handled (pgSem ctx) {} () turn out →
      pgRequest turn.state turn.msg = some sql →
      (AuditExact ctx (pgVerdict ctx sql) sql turn.trace ↔ PgTurnAudited ctx turn sql)) := by
  constructor
  · rintro ⟨b, pkt, t⟩ out sql ⟨_, _, s₁, _, _, _, _, hturn⟩ hquery
    obtain ⟨body, rfl, rfl⟩ := comQuery_eq_some hquery
    have hwp : wp (mysqlSem ctx) (handleCommand ctx (0x03 :: body)) (fun t _ _ =>
        AuditExact ctx (mysqlVerdict ctx (Str.fromUtf8Lossy body)) (Str.fromUtf8Lossy body) t ↔
          MysqlAudited ctx (Str.fromUtf8Lossy body) t) s₁ := by
      rw [handleCommand_query, wp_bind_halt]
      exact handleComQuery_audited ctx _ s₁
    exact hwp _ _ _ hturn
  · rintro turn out sql ⟨_, _, _, _, _, _, _, hturn⟩ hsql
    exact pgTurn_audited ctx hsql hturn

end

theorem auditExact_iff_plain :
    AuditExact sampleCtx (mysqlVerdict sampleCtx "x") "x" plainTurn.trace :=
  ((auditExact_iff sampleCtx).1 plainTurn _ "x" plainTurn_handled rfl).mpr
    ⟨fun _ _ hlong => absurd hlong (by decide), by
      rintro ⟨e, he, hran⟩
      simp only [plainTurn, List.mem_cons, List.not_mem_nil, or_false] at he
      rcases he with rfl | rfl | rfl | rfl | rfl <;> exact hran.elim⟩

/-! ## A pool that fails -/

def selectOne : String := "SELECT 1"

def selectCtx : SessionCtx where
  deps := { sampleDeps with sqlparser := parserOf selectOne selectLiteral }
  envName := "stage"
  clientUser := "alice"
  policy := .readOnly

def selectMsg : UInt8 × Bytes := (0x51, [0x53, 0x45, 0x4C, 0x45, 0x43, 0x54, 0x20, 0x31, 0])

theorem selectMsg_text : queryText selectMsg.2 = selectOne := by decide

theorem selectOne_allowed : pgVerdict selectCtx selectOne = .allow :=
  evaluate_selectLiteral (by simp [selectCtx, pgProfile, parserOf])

theorem framed_backendUnavailable :
    Framed (errorResponse sqlstateInternal "backend unavailable") :=
  framed_errorResponse (by decide)

/-- The pool fails under a simple query, and nothing is audited. -/
theorem noPool_handled : ∃ t, emitted t = [] ∧
    (serve selectCtx).Handled (pgSem selectCtx) {} () ⟨{}, selectMsg, t⟩ (.ok (some {})) := by
  obtain ⟨bytes, hbytes⟩ := framed_backendUnavailable
  obtain ⟨t₀, hread⟩ := pgRead_exec (pgSem_recv selectCtx) [0, 0, 0, 13] selectMsg rfl (by decide) (by decide)
  have hexec : Exec (pgSem selectCtx) (firewalledExec selectCtx selectOne) ()
      [⟨.evaluate selectOne, .allow⟩, ⟨.poolGet, .error "timed out"⟩, ⟨.write bytes, .ok ()⟩]
      (.ok false) () := by
    rw [firewalledExec, firewalled_eq]
    refine .step selectOne_allowed.symm (.step trivial ?_)
    dsimp only
    rw [refuse, hbytes]
    exact .step trivial (.halt _ _)
  have hready : Exec (pgSem selectCtx) ((writeRaw readyForQuery).bind fun _ =>
      (.halt (.ok (some {})) : SessionProg EngineError (Option PgState))) ()
      [⟨.write readyFrame, .ok ()⟩] (.ok (some {})) () := by
    rw [readyForQuery_eq]
    exact .step trivial (.halt _ _)
  have hturn : Exec (pgSem selectCtx) (onQuery selectCtx {} selectMsg.2) ()
      [⟨.evaluate selectOne, .allow⟩, ⟨.poolGet, .error "timed out"⟩, ⟨.write bytes, .ok ()⟩,
        ⟨.write readyFrame, .ok ()⟩] (.ok (some {})) () := by
    rw [onQuery_eq, selectMsg_text, if_neg (by decide)]
    exact exec_bind_iff.mpr (Or.inl ⟨false, _, _, (), hexec, hready, rfl⟩)
  have hhandle : (serve selectCtx).handle {} selectMsg = onQuery selectCtx {} selectMsg.2 := by
    rw [serve_handle]
    exact if_pos rfl
  rw [← hhandle] at hturn
  exact ⟨_, rfl, Loop.handled_first hread hturn⟩

theorem not_auditExact_noPool : ∃ turn out sql,
    (serve selectCtx).Handled (pgSem selectCtx) {} () turn out ∧
      pgRequest turn.state turn.msg = some sql ∧
      ¬ AuditExact selectCtx (pgVerdict selectCtx sql) sql turn.trace := by
  obtain ⟨t, hemit, hturn⟩ := noPool_handled
  have hrequest : pgRequest {} selectMsg = some selectOne := by
    unfold pgRequest
    rw [selectMsg_text]
    decide
  exact ⟨_, _, selectOne, hturn, hrequest, not_auditExact_of_nil hemit⟩

end MiddleWhere.Net
