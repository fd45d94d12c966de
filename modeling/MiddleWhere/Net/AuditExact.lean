import MiddleWhere.Effects.Answers
import MiddleWhere.Net.Mediation
import MiddleWhere.Net.MysqlSafe

/-!
# One audit event for each query

Each request to execute a text should leave exactly one audit event, with the decision that
was made. The event of an allowed query is emitted last, after the result has been passed
on, so whatever ends the function early loses it; the Postgres paths emit nothing when the
pool fails and record a backend failure as a denial.
-/

namespace MiddleWhere.Net
open Prog Firewall
open Outcome (safe_ok ok_bind)

def Ran (sql : String) : SessionEvent → Prop
  | ⟨.queryIter _ text, .ok _⟩ => text = sql
  | ⟨.simpleQuery _ text, .ok _⟩ => text = sql
  | _ => False

def BackendRan (sql : String) (t : List SessionEvent) : Prop := ∃ e ∈ t, Ran sql e

def AuditExact (ctx : SessionCtx) (verdict : Decision) (sql : String) (t : List SessionEvent) :
    Prop :=
  ∃ decision reason rows, emitted t = [ctx.event sql decision reason rows] ∧
    (decision = .deny ↔ verdict ≠ .allow) ∧ (decision = .allow → BackendRan sql t)

@[simp] theorem backendRan_cons {sql : String} {e : SessionEvent} {t : List SessionEvent} :
    BackendRan sql (e :: t) ↔ Ran sql e ∨ BackendRan sql t := by
  simp [BackendRan]

@[simp] theorem backendRan_append {sql : String} {t t' : List SessionEvent} :
    BackendRan sql (t ++ t') ↔ BackendRan sql t ∨ BackendRan sql t' := by
  simp [BackendRan, or_and_right, exists_or]

theorem not_ran_of_unheard {sql : String} {e : SessionEvent} (h : handedOver e.op = none) :
    ¬ Ran sql e := by
  obtain ⟨o, r⟩ := e
  cases o with
  | queryIter conn text => cases h
  | simpleQuery conn text => cases h
  | _ => exact not_false

theorem not_backendRan_of_unheard {sql : String} {t : List SessionEvent}
    (h : ∀ e ∈ t, handedOver e.op = none) : ¬ BackendRan sql t :=
  fun ⟨e, he, hran⟩ => not_ran_of_unheard (h e he) hran

theorem not_auditExact_of_nil {ctx : SessionCtx} {verdict : Decision} {sql : String}
    {t : List SessionEvent} (h : emitted t = []) : ¬ AuditExact ctx verdict sql t := by
  rintro ⟨decision, reason, rows, hone, -⟩
  rw [h] at hone
  cases hone

/-- One event, whose decision its context fixes. -/
theorem auditExact_iff_of_single {ctx : SessionCtx} {verdict : Decision} {sql : String}
    {t : List SessionEvent} {decision : AuditDecision} {reason : Option String}
    {rows : Option UInt64} (h : emitted t = [ctx.event sql decision reason rows]) :
    AuditExact ctx verdict sql t ↔
      (decision = .deny ↔ verdict ≠ .allow) ∧ (decision = .allow → BackendRan sql t) := by
  constructor
  · rintro ⟨decision', reason', rows', hone, hrest⟩
    rw [h] at hone
    have hsame := congrArg AuditEvent.decision (List.head_eq_of_cons_eq hone)
    have hdecision : decision = decision' := hsame
    rw [hdecision]
    exact hrest
  · exact fun hrest => ⟨decision, reason, rows, h, hrest⟩

/-- What running a text on a connection leaves in the audit log, where `fine` are the answers
that let its result pass and `failed` is what a failing backend is audited as. -/
inductive RunAudited (ctx : SessionCtx) (fine : SessionEvent → Prop) (sql : String)
    (failed : AuditDecision) (t : List SessionEvent) : Prop
  | refused {cause : Option String} (hran : ¬ BackendRan sql t)
      (hone : emitted t = [ctx.event sql failed cause none])
  | taken {rows : Option UInt64} (hran : BackendRan sql t) (hfine : ∀ e ∈ t, fine e)
      (hone : emitted t = [ctx.event sql .allow none rows])
  | lost (hran : BackendRan sql t) (hbad : ¬ ∀ e ∈ t, fine e) (hnone : emitted t = [])

section
variable {M : Sem sessionSig Unit} {ctx : SessionCtx} {fine : SessionEvent → Prop} {sql : String}

/-- The event comes after the program `p` that passes the result on. -/
theorem runAudited_of_passes {ε α β : Type} {p : SessionProg ε α} {F : Prop}
    {rows : α → Option UInt64} {b : β} {failed : AuditDecision} {start : SessionEvent} {s : Unit}
    (hp : wp M p (fun t out _ => emitted t = [] ∧
      ((∃ a, out = .ok a) ↔ F ∧ ∀ e ∈ t, fine e)) s)
    (hstart : Ran sql start) (hF : fine start ↔ F)
    (hemit : ∀ event, fine ⟨.emit event, ()⟩) :
    wp M (p.bind fun a => .call (.emit (ctx.event sql .allow none (rows a))) fun _ =>
      .halt (.ok b)) (fun t _ _ => RunAudited ctx fine sql failed (start :: t)) s := by
  have hquiet (t : List SessionEvent) : emitted (start :: t) = emitted t := by
    obtain ⟨o, r⟩ := start
    cases o with
    | emit event => exact hstart.elim
    | _ => rfl
  refine wp_bind.mpr (wp_mono hp ?_)
  rintro t out s' ⟨hnone, hiff⟩
  have hfine : (∀ e ∈ start :: t, fine e) ↔ ∃ a, out = .ok a := by
    rw [hiff, List.forall_mem_cons, hF]
  have hran (t' : List SessionEvent) : BackendRan sql (start :: t') :=
    ⟨start, List.mem_cons_self, hstart⟩
  cases out with
  | ok a =>
    refine wp_call.mpr fun _ s'' _ => wp_halt.mpr ?_
    have hall := hfine.mpr ⟨a, rfl⟩
    have hone : emitted (start :: (t ++ [⟨.emit (ctx.event sql .allow none (rows a)), ()⟩])) =
        [ctx.event sql .allow none (rows a)] := by
      rw [← List.cons_append, emitted_append, hquiet, hnone]
      rfl
    refine RunAudited.taken (hran _) ?_ hone
    rw [← List.cons_append, List.forall_mem_append]
    exact ⟨hall, by simpa using hemit _⟩
  | err e =>
    exact .lost (hran _) (fun h => by simpa using hfine.mp h) ((hquiet t).trans hnone)
  | panic =>
    exact .lost (hran _) (fun h => by simpa using hfine.mp h) ((hquiet t).trans hnone)

/-- An allowed text, with the events around its run. -/
theorem auditExact_run (conn : ConnId) {failed : AuditDecision} {t rest : List SessionEvent}
    (h : RunAudited ctx fine sql failed t) (hfailed : failed ≠ .allow) (hemit : emitted rest = [])
    (hran : ¬ BackendRan sql rest) (hfine : ∀ e ∈ rest, fine e)
    (hget : fine ⟨.evaluate sql, .allow⟩ ∧ fine ⟨.poolGet, .ok conn⟩) :
    AuditExact ctx .allow sql (⟨.evaluate sql, .allow⟩ :: ⟨.poolGet, .ok conn⟩ :: (t ++ rest)) ↔
      (BackendRan sql (⟨.evaluate sql, .allow⟩ :: ⟨.poolGet, .ok conn⟩ :: (t ++ rest)) →
        ∀ e ∈ (⟨.evaluate sql, .allow⟩ :: ⟨.poolGet, .ok conn⟩ :: (t ++ rest) :
          List SessionEvent), fine e) ∧
      (failed = .deny →
        BackendRan sql (⟨.evaluate sql, .allow⟩ :: ⟨.poolGet, .ok conn⟩ :: (t ++ rest))) := by
  have hran' : BackendRan sql (⟨.evaluate sql, .allow⟩ :: ⟨.poolGet, .ok conn⟩ :: (t ++ rest)) ↔
      BackendRan sql t := by simp [Ran, hran]
  have hfine' : (∀ e ∈ (⟨.evaluate sql, .allow⟩ :: ⟨.poolGet, .ok conn⟩ :: (t ++ rest) :
      List SessionEvent), fine e) ↔ ∀ e ∈ t, fine e := by
    simp only [List.forall_mem_cons, List.forall_mem_append]
    exact ⟨fun h => h.2.2.1, fun h => ⟨hget.1, hget.2, h, hfine⟩⟩
  have hemit' : emitted (⟨.evaluate sql, .allow⟩ :: ⟨.poolGet, .ok conn⟩ :: (t ++ rest)) =
      emitted t := by simp [hemit]
  rw [hran', hfine']
  cases h with
  | refused hnot hone =>
    rw [auditExact_iff_of_single (hemit'.trans hone), hran']
    exact ⟨fun h => ⟨fun hdone => absurd hdone hnot, fun hd => absurd (h.1.mp hd) (by simp)⟩,
      fun h => ⟨⟨fun hd => absurd (h.2 hd) hnot, fun hne => absurd rfl hne⟩,
        fun ha => absurd ha hfailed⟩⟩
  | taken hdone hgood hone =>
    rw [auditExact_iff_of_single (hemit'.trans hone), hran']
    exact iff_of_true ⟨by simp, fun _ => hdone⟩ ⟨fun _ => hgood, fun _ => hdone⟩
  | lost hdone hbad hnone =>
    exact iff_of_false (not_auditExact_of_nil (hemit'.trans hnone)) fun h => hbad (h.1 hdone)

end

/-! ## MySQL -/

/-- The packets of these columns fit. -/
def ColumnsFit : Option (List Column) → Prop
  | some cols => ∀ c ∈ cols, (columnDefPacket c).length < maxPayload
  | none => True

def RowsFit (deps : SessionDeps) (rows : List Row) : Prop :=
  ∀ row ∈ rows, (rowText deps row).length < maxPayload

/-- The answers that let a result pass: the socket takes what is written, the rows end
without an error, and each column and row fits a packet. -/
def Fine (deps : SessionDeps) : SessionEvent → Prop
  | ⟨.write _, r⟩ | ⟨.flush, r⟩ => r = .ok ()
  | ⟨.queryIter _ _, .ok cols⟩ => ColumnsFit cols
  | ⟨.rows _, (rows, failure)⟩ => failure = none ∧ RowsFit deps rows
  | _ => True

section
variable {M : Sem sessionSig Unit} (deps : SessionDeps)

theorem writePacket_succeedsIff (seq : SequenceCounter) (payload : Bytes) (s : Unit) :
    SucceedsIff M (Fine deps) (writePacket seq payload) (payload.length < maxPayload) s := by
  have hwrite (bytes : Bytes) (s : Unit) :
      SucceedsIff M (Fine deps) (writeAll bytes) True s := by
    apply succeedsIff_answer
    intro r
    cases r <;> simp [Fine, Except.mapError]
  unfold writePacket
  split_ifs with hlen
  · exact (succeedsIff_err _ s).congr (by simpa using hlen)
  · have hflush (s : Unit) : SucceedsIff M (Fine deps)
        (.call .flush fun r => Prog.ofExcept (r.mapError FramingError.io)) True s := by
      apply succeedsIff_answer
      intro r
      cases r <;> simp [Fine, Except.mapError]
    have hall := (hwrite (packetHeader seq payload.length) s).bind fun _ s₁ =>
      (hwrite payload s₁).bind fun _ s₂ =>
        (hflush s₂).bind fun _ s₃ => succeedsIff_ok (seq + 1) s₃
    exact hall.congr (by simpa using hlen)

theorem reply_succeedsIff (seq : SequenceCounter) (payload : Bytes) (s : Unit) :
    SucceedsIff M (Fine deps) (reply seq payload) (payload.length < maxPayload) s :=
  (writePacket_succeedsIff deps seq payload s).mapErr

theorem replyAll_succeedsIff (seq : SequenceCounter) (payloads : List Bytes) (s : Unit) :
    SucceedsIff M (Fine deps) (replyAll seq payloads)
      (∀ p ∈ payloads, p.length < maxPayload) s := by
  induction payloads generalizing seq s with
  | nil => exact (succeedsIff_ok seq s).congr (by simp)
  | cons p ps ih =>
    have hcons := (reply_succeedsIff deps seq p s).bind fun seq' s' => ih seq' s'
    exact hcons.congr (by rw [List.forall_mem_cons])

theorem replyRows_succeedsIff (seq : SequenceCounter) (rows : List Row) (s : Unit) :
    SucceedsIff M (Fine deps) (replyRows deps seq rows) (RowsFit deps rows) s := by
  induction rows generalizing seq s with
  | nil => exact (succeedsIff_ok seq s).congr (by simp [RowsFit])
  | cons row rows ih =>
    rw [replyRows_cons]
    have hcons := (reply_succeedsIff deps seq (rowText deps row) s).bind fun seq' s' => ih seq' s'
    exact hcons.congr (by rw [RowsFit, RowsFit, List.forall_mem_cons])

theorem okEofPacket_fits : (okEofPacket 0 0).length < maxPayload := by decide

theorem columnCountPacket_fits (n : ℕ) : (columnCountPacket n).length < maxPayload := by
  have hlen : (columnCountPacket n).length ≤ 9 := by
    unfold columnCountPacket writeLenencInt
    split_ifs <;> simp [le]
  exact hlen.trans_lt (by decide)

theorem askRows_succeedsIff (seq : SequenceCounter) (conn : ConnId) (s : Unit) :
    SucceedsIff M (Fine deps)
      (.call (.rows conn) fun r => (replyRows deps seq r.1).bind fun seq => match r.2 with
        | some e => fail (.backend e)
        | none => (reply seq (okEofPacket 0 0)).bind fun _ => .halt (.ok r.1.length)) True s := by
  have hend (rows : List Row) (s : Unit) : SucceedsIff M (Fine deps)
      ((replyRows deps seq rows).bind fun seq => (reply seq (okEofPacket 0 0)).bind fun _ =>
        (.halt (.ok rows.length) : SessionProg RouterError ℕ)) (RowsFit deps rows) s := by
    have hrows := (replyRows_succeedsIff (M := M) deps seq rows s).bind fun seq s₁ =>
      (reply_succeedsIff deps seq (okEofPacket 0 0) s₁).bind fun _ s₂ =>
        succeedsIff_ok rows.length s₂
    exact hrows.congr (by simp [okEofPacket_fits])
  apply SucceedsIff.call
  · intro r s' _ hfine
    obtain ⟨rows, failure⟩ := r
    obtain ⟨rfl, hfit⟩ : failure = none ∧ RowsFit deps rows := hfine
    exact (hend rows s').congr (by simp [hfit])
  · intro r s' _ hbad
    obtain ⟨rows, failure⟩ := r
    cases failure with
    | none =>
      have hfit : ¬ RowsFit deps rows := fun h => hbad ⟨rfl, h⟩
      exact (hend rows s').congr (by simp [hfit])
    | some e =>
      have hfail := (replyRows_succeedsIff (M := M) deps seq rows s').bind fun _ s₁ =>
        succeedsIff_err (α := ℕ) (RouterError.backend e) s₁
      exact hfail.congr (by simp)

theorem replyResultSet_succeedsIff (seq : SequenceCounter) (conn : ConnId) (cols : List Column)
    (s : Unit) : SucceedsIff M (Fine deps) (replyResultSet deps seq conn cols)
      (∀ c ∈ cols, (columnDefPacket c).length < maxPayload) s := by
  have hall := (reply_succeedsIff (M := M) deps seq (columnCountPacket cols.length) s).bind
    fun seq s₁ => (replyAll_succeedsIff deps seq (cols.map columnDefPacket) s₁).bind
      fun seq s₂ => askRows_succeedsIff deps seq conn s₂
  exact hall.congr (by simp [columnCountPacket_fits])

theorem replyResult_succeedsIff (seq : SequenceCounter) (conn : ConnId)
    (cols : Option (List Column)) (s : Unit) :
    SucceedsIff M (Fine deps) (replyResult deps seq conn cols) (ColumnsFit cols) s := by
  have hnone : SucceedsIff M (Fine deps) (.call (.dropResult conn) fun _ =>
      (reply seq okPacket).bind fun _ => (.halt (.ok 0) : SessionProg RouterError ℕ)) True s := by
    apply SucceedsIff.call
    · intro _ s' _ _
      have hok := (reply_succeedsIff (M := M) deps seq okPacket s').bind fun _ s₁ =>
        succeedsIff_ok 0 s₁
      exact hok.congr (by decide)
    · exact fun _ _ _ hbad => absurd trivial hbad
  unfold replyResult
  split
  · exact replyResultSet_succeedsIff deps seq conn _ s
  · rename_i hcols
    apply hnone.congr
    rcases cols with _ | _ | ⟨c, cs⟩
    · exact Iff.rfl
    · simp [ColumnsFit]
    · exact absurd rfl (hcols c cs)

end

section
variable (ctx : SessionCtx)

/-- What the audit of a MySQL query depends on. -/
structure MysqlAudited (sql : String) (t : List SessionEvent) : Prop where
  cut : ∀ reason, mysqlVerdict ctx sql = .deny reason → CutsCleanly sql
  taken : BackendRan sql t → ∀ e ∈ t, Fine ctx.deps e

variable {M : Sem sessionSig Unit}

theorem failQuery_emits (seq : SequenceCounter) (sql cause message : String) (s : Unit) :
    wp M (failQuery ctx seq sql cause message) (fun t _ _ =>
      emitted t = [ctx.event sql .error (some cause) none] ∧ ¬ BackendRan sql t) s := by
  intro t out s' ht
  have hunheard := ht.stops.uses (failQuery_unheard ctx seq sql cause message)
  refine ⟨?_, not_backendRan_of_unheard hunheard⟩
  have htail : ((reply seq (errPacket 1815 "HY000" message)).bind fun _ =>
      (.halt (.ok ()) : SessionProg RouterError Unit)).Uses SessionOp.toClient :=
    uses_bind (reply_uses seq _) fun _ => trivial
  obtain ⟨_, s₁, t', -, ht', rfl⟩ := exec_call_iff.mp ht
  rw [emitted_emit, emitted_of_toClient (ht'.stops.uses htail)]

theorem runQueryOn_audited (seq : SequenceCounter) (sql : String) (conn : ConnId) (s : Unit) :
    wp M (runQueryOn ctx seq sql conn) (fun t _ _ =>
      RunAudited ctx (Fine ctx.deps) sql .error t) s := by
  rw [runQueryOn_eq, wp_call]
  intro r s' _
  cases r with
  | error e =>
    refine wp_mono (failQuery_emits ctx seq sql ("backend: " ++ e) _ s') ?_
    rintro t _ _ ⟨hemit, hran⟩
    exact .refused (by simp [Ran, hran]) hemit
  | ok cols =>
    have hpass : wp M (replyResult ctx.deps seq conn cols) (fun t out _ => emitted t = [] ∧
        ((∃ n, out = .ok n) ↔ ColumnsFit cols ∧ ∀ e ∈ t, Fine ctx.deps e)) s' := by
      intro t out s₁ ht
      have huses := ht.stops.uses (replyResult_uses ctx.deps seq conn cols)
      exact ⟨emitted_of_passesOn huses,
        replyResult_succeedsIff ctx.deps seq conn cols s' t out s₁ ht⟩
    exact runAudited_of_passes hpass rfl Iff.rfl fun _ => trivial

theorem handleComQuery_audited (sql : String) (s : Unit) :
    wp (mysqlSem ctx) (handleComQuery ctx 1 sql) (fun t _ _ =>
      AuditExact ctx (mysqlVerdict ctx sql) sql t ↔ MysqlAudited ctx sql t) s := by
  rw [handleComQuery_eq, wp_call]
  intro verdict s₁ hverdict
  cases verdict with
  | deny reason =>
    have hdeny : mysqlVerdict ctx sql = .deny reason := hverdict.symm
    have hlisted : (mysqlVerdict ctx sql).Listed := evaluate_listed sql _ _
    rw [hdeny] at hlisted
    have hquiet (t : List SessionEvent) (out : Outcome RouterError Unit) (s' : Unit)
        (ht : Exec (mysqlSem ctx) (denyQuery ctx 1 sql reason) s₁ t out s') :
        ¬ BackendRan sql t :=
      not_backendRan_of_unheard (ht.stops.uses (denyQuery_unheard ctx 1 sql reason))
    by_cases hcut : CutsCleanly sql
    · intro t out s' ht
      have hsafe := denyQuery_denialSafe ctx hcut hlisted s₁ t out s' ht
      have hran := hquiet t out s' ht
      have hone : emitted (⟨.evaluate sql, .deny reason⟩ :: t) =
          [ctx.event sql .deny (some reason) none] := hsafe.audited
      rw [auditExact_iff_of_single hone, hdeny]
      refine iff_of_true (by simp) ⟨fun _ _ => hcut, ?_⟩
      intro h
      exact absurd h (by simp [Ran, hran])
    · dsimp only
      rw [denyQuery_panics ctx reason hcut, wp_halt]
      exact iff_of_false (not_auditExact_of_nil rfl) fun h => hcut (h.cut reason hdeny)
  | allow =>
    have hallow : mysqlVerdict ctx sql = .allow := hverdict.symm
    have hcut : ∀ reason, mysqlVerdict ctx sql = .deny reason → CutsCleanly sql := by
      rw [hallow]
      exact nofun
    dsimp only
    rw [wp_call]
    intro conn s₂ _
    cases conn with
    | error e =>
      refine wp_mono (failQuery_emits ctx 1 sql ("pool: " ++ e) _ s₂) ?_
      intro t _ _ h
      have hone : emitted (⟨.evaluate sql, .allow⟩ :: ⟨.poolGet, .error e⟩ :: t) =
          [ctx.event sql .error (some ("pool: " ++ e)) none] := h.1
      rw [auditExact_iff_of_single hone, hallow]
      refine iff_of_true (by simp) ⟨hcut, ?_⟩
      intro hran
      exact absurd hran (by simp [Ran, h.2])
    | ok conn =>
      refine wp_finally.mpr (wp_mono (runQueryOn_audited ctx 1 sql conn s₂) ?_)
      intro t out s₃ h
      -- the connection goes back to the pool unless the process died
      have hall (rest : List SessionEvent) (hemit : emitted rest = [])
          (hran : ¬ BackendRan sql rest) (hfine : ∀ e ∈ rest, Fine ctx.deps e) :
          AuditExact ctx (mysqlVerdict ctx sql) sql
              (⟨.evaluate sql, .allow⟩ :: ⟨.poolGet, .ok conn⟩ :: (t ++ rest)) ↔
            MysqlAudited ctx sql
              (⟨.evaluate sql, .allow⟩ :: ⟨.poolGet, .ok conn⟩ :: (t ++ rest)) := by
        rw [hallow, auditExact_run conn h nofun hemit hran hfine ⟨trivial, trivial⟩]
        exact ⟨fun h => ⟨hcut, h.1⟩, fun h => ⟨h.taken, nofun⟩⟩
      cases out with
      | panic => simpa using hall [] rfl (by simp [BackendRan]) nofun
      | ok _ => exact fun r _ _ => hall _ rfl (by simp [BackendRan, Ran]) (by simp [Fine])
      | err _ => exact fun r _ _ => hall _ rfl (by simp [BackendRan, Ran]) (by simp [Fine])

end

end MiddleWhere.Net
