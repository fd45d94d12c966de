import MiddleWhere.Net.Router
import MiddleWhere.Net.PgServer

/-!
# Complete mediation

Text reaches the backend by three operations. The monitor remembers the text that the
firewall has allowed last and lets it be handed over once; reading from the client,
another evaluation and the hand-over itself make it forget. No trace of either session
is rejected.
-/

namespace MiddleWhere.Net
open Prog Firewall

def handedOver : SessionOp → Option String
  | .queryIter _ sql | .simpleQuery _ sql | .prepare _ sql => some sql
  | _ => none

def Quiet : SessionOp → Prop
  | .recv _ | .evaluate _ | .queryIter _ _ | .simpleQuery _ _ | .prepare _ _ => False
  | _ => True

/-- Each text handed over was allowed just before, with nothing read, evaluated or handed
over in between. -/
def Mediated (profile : PolicyProfile) (policy : Policy) (t : List SessionEvent) : Prop :=
  ∀ pre e post sql, t = pre ++ e :: post → handedOver e.op = some sql →
    Firewall.evaluate sql policy profile = .allow ∧ ∃ before between,
      pre = before ++ ⟨.evaluate sql, .allow⟩ :: between ∧ ∀ e' ∈ between, Quiet e'.op

def mediation (profile : PolicyProfile) (policy : Policy) :
    Monitor sessionSig (Option String) where
  next
    | _, ⟨.evaluate sql, .allow⟩ => some sql
    | _, ⟨.evaluate _, .deny _⟩ | _, ⟨.recv _, _⟩ | _, ⟨.queryIter _ _, _⟩
    | _, ⟨.simpleQuery _ _, _⟩ | _, ⟨.prepare _ _, _⟩ => none
    | x, _ => x
  ok x e := ∀ sql, handedOver e.op = some sql →
    x = some sql ∧ Firewall.evaluate sql policy profile = .allow

section
variable {profile : PolicyProfile} {policy : Policy}

theorem mediation_quiet (o : SessionOp) (r : o.Res) (x : Option String) (h : Quiet o) :
    (mediation profile policy).next x ⟨o, r⟩ = x := by
  cases o with
  | recv n => exact h.elim
  | evaluate sql => exact h.elim
  | queryIter conn sql => exact h.elim
  | simpleQuery conn sql => exact h.elim
  | prepare conn sql => exact h.elim
  | _ => rfl

theorem mediation_next_eq_some {x : Option String} {e : SessionEvent} {sql : String}
    (h : (mediation profile policy).next x e = some sql) :
    e = ⟨.evaluate sql, .allow⟩ ∨ (x = some sql ∧ Quiet e.op) := by
  obtain ⟨o, r⟩ := e
  by_cases hquiet : Quiet o
  · have hnext : (mediation profile policy).next x ⟨o, r⟩ = x := mediation_quiet o r x hquiet
    exact Or.inr ⟨hnext.symm.trans h, hquiet⟩
  cases o with
  | evaluate sql' =>
    cases r with
    | allow =>
      have hsql : sql' = sql := by simpa [mediation] using h
      exact Or.inl (by rw [hsql])
    | deny reason => cases h
  | recv n => cases h
  | queryIter conn sql' => cases h
  | simpleQuery conn sql' => cases h
  | prepare conn sql' => cases h
  | _ => exact absurd trivial hquiet

/-- What the monitor remembers was allowed, and only quiet operations followed. -/
theorem mediation_after_eq_some (t : List SessionEvent) {sql : String}
    (h : (mediation profile policy).after none t = some sql) : ∃ before between,
      t = before ++ ⟨.evaluate sql, .allow⟩ :: between ∧ ∀ e ∈ between, Quiet e.op := by
  induction t using List.reverseRecOn with
  | nil => cases h
  | append_singleton t e ih =>
    rw [Monitor.after_append] at h
    rcases mediation_next_eq_some h with he | ⟨hlast, hquiet⟩
    · exact ⟨t, [], by rw [he], by simp⟩
    · obtain ⟨before, between, ht, hbetween⟩ := ih hlast
      refine ⟨before, between ++ [e], by simp [ht], ?_⟩
      intro e' he'
      rcases List.mem_append.mp he' with hmem | hmem
      · exact hbetween e' hmem
      · rw [List.mem_singleton.mp hmem]
        exact hquiet

theorem mediated_of_accepts {t : List SessionEvent}
    (h : (mediation profile policy).Accepts none t) : Mediated profile policy t := by
  intro pre e post sql ht hsql
  subst ht
  obtain ⟨hlast, hallow⟩ := h.ok_at sql hsql
  exact ⟨hallow, mediation_after_eq_some pre hlast⟩

theorem guards_unheard {ε α : Type} {p : SessionProg ε α} {M : Sem sessionSig Unit}
    (hp : p.Uses fun o => handedOver o = none) (x : Option String) (s : Unit) :
    (mediation profile policy).Guards M p x s fun _ _ _ => True := by
  apply Monitor.Guards.of_passes _ hp x s
  intro o r x' ho sql hsql
  cases ho.symm.trans hsql

theorem guards_withConn {ε α : Type} {conn : ConnId} {body : SessionProg ε α}
    {M : Sem sessionSig Unit} {x : Option String} {s : Unit}
    (h : (mediation profile policy).Guards M body x s fun _ _ _ => True) :
    (mediation profile policy).Guards M (withConn conn body) x s fun _ _ _ => True := by
  apply Monitor.guards_finally.mpr
  apply h.mono
  intro x' out s' _
  cases out with
  | ok a => exact fun _ _ _ => ⟨nofun, trivial⟩
  | err e => exact fun _ _ _ => ⟨nofun, trivial⟩
  | panic => trivial

/-- A hand-over of the text that was allowed last, and what follows it. -/
theorem guards_handOver {ε α : Type} {o : SessionOp} {k : o.Res → SessionProg ε α} {sql : String}
    {M : Sem sessionSig Unit} {s : Unit} (ho : handedOver o = some sql)
    (hallow : Firewall.evaluate sql policy profile = .allow)
    (hk : ∀ r, (k r).Uses fun o => handedOver o = none) :
    (mediation profile policy).Guards M (.call o k) (some sql) s fun _ _ _ => True := by
  intro r s' _
  refine ⟨?_, guards_unheard (hk r) _ s'⟩
  intro sql' hsql'
  have hsame : sql = sql' := Option.some.inj (ho.symm.trans hsql')
  subst hsame
  exact ⟨rfl, hallow⟩

end

theorem handedOver_toClient (o : SessionOp) (h : o.toClient) : handedOver o = none := by
  cases o with
  | write bytes => rfl
  | flush => rfl
  | _ => exact h.elim

theorem handedOver_passesOn (o : SessionOp) (h : o.passesOn) : handedOver o = none := by
  cases o with
  | write bytes => rfl
  | flush => rfl
  | rows conn => rfl
  | dropResult conn => rfl
  | _ => exact h.elim

theorem handedOver_fromClient (o : SessionOp) (h : o.fromClient) : handedOver o = none := by
  cases o with
  | recv n => rfl
  | _ => exact h.elim

theorem uses_heard {ε α : Type} {p : SessionProg ε α} {P : String → Prop}
    (h : p.Uses fun o => handedOver o = none) :
    p.Uses fun o => ∀ sql, handedOver o = some sql → P sql := by
  apply uses_mono _ h
  intro o ho sql hsql
  rw [ho] at hsql
  cases hsql

/-! ## MySQL -/

section
variable (ctx : SessionCtx)

theorem reply_unheard (seq : SequenceCounter) (payload : Bytes) :
    (reply seq payload).Uses fun o => handedOver o = none :=
  uses_mono handedOver_toClient (reply_uses seq payload)

theorem denyQuery_unheard (seq : SequenceCounter) (sql reason : String) :
    (denyQuery ctx seq sql reason).Uses fun o => handedOver o = none := by
  apply uses_bind (by trivial)
  intro _
  refine ⟨rfl, fun _ => ?_⟩
  apply uses_bind (reply_unheard _ _)
  exact fun _ => trivial

theorem failQuery_unheard (seq : SequenceCounter) (sql cause message : String) :
    (failQuery ctx seq sql cause message).Uses fun o => handedOver o = none := by
  refine ⟨rfl, fun _ => ?_⟩
  apply uses_bind (reply_unheard _ _)
  exact fun _ => trivial

theorem handleComQuery_mediated (seq : SequenceCounter) (sql : String) (x : Option String)
    (s : Unit) :
    (mediation (mysqlProfile ctx.deps.sqlparser) ctx.policy).Guards (mysqlSem ctx)
      (handleComQuery ctx seq sql) x s fun _ _ _ => True := by
  intro verdict s' hverdict
  refine ⟨nofun, ?_⟩
  cases verdict with
  | deny reason => exact guards_unheard (denyQuery_unheard ctx seq sql reason) none s'
  | allow =>
    intro conn s'' _
    refine ⟨nofun, ?_⟩
    cases conn with
    | error e => exact guards_unheard (failQuery_unheard ctx seq sql _ _) (some sql) s''
    | ok conn =>
      apply guards_withConn
      apply guards_handOver rfl hverdict.symm
      intro result
      cases result with
      | error e => exact failQuery_unheard ctx seq sql _ _
      | ok columns =>
        apply uses_bind (uses_mono handedOver_passesOn (replyResult_uses _ _ _ _))
        exact fun rowCount => ⟨rfl, fun _ => trivial⟩

theorem handleCommand_mediated (pkt : Bytes) (x : Option String) (s : Unit) :
    (mediation (mysqlProfile ctx.deps.sqlparser) ctx.policy).Guards (mysqlSem ctx)
      (handleCommand ctx pkt) x s fun _ _ _ => True := by
  have hanswer (payload : Bytes) : ((reply 1 payload).bind fun _ =>
      (.halt (.ok (some ())) : SessionProg RouterError (Option Unit))).Uses
        fun o => handedOver o = none :=
    uses_bind (reply_unheard 1 payload) fun _ => trivial
  unfold handleCommand
  simp only [bind_eq, pure_eq]
  split
  · exact trivial
  · split_ifs with hquit hping hquery
    · exact trivial
    · exact guards_unheard (hanswer _) x s
    · exact (handleComQuery_mediated ctx _ _ x s).bind_any fun _ _ _ => trivial
    · exact guards_unheard (hanswer _) x s

theorem serveSession_mediated (t : List SessionEvent)
    (ht : (serveSession ctx).Trace (mysqlSem ctx) () () t) :
    Mediated (mysqlProfile ctx.deps.sqlparser) ctx.policy t := by
  apply mediated_of_accepts
  apply ht.accepts_of_guards
  · exact guards_unheard (uses_mono handedOver_fromClient readCommand_uses)
  · exact fun x _ pkt s => handleCommand_mediated ctx pkt x s

end

/-! ## Postgres -/

section
variable (ctx : SessionCtx)

theorem writeRaw_unheard (frame : Outcome PgProtoError Bytes) :
    (writeRaw frame).Uses fun o => handedOver o = none :=
  uses_mono handedOver_toClient (writeRaw_uses frame)

theorem failUntilSync_unheard (st : PgState) (sqlstate message : String) :
    (failUntilSync st sqlstate message).Uses fun o => handedOver o = none := by
  unfold failUntilSync
  exact uses_bind (writeRaw_unheard _) fun _ => trivial

/-- A frame, and then the next state. -/
theorem writeRaw_then_unheard (frame : Outcome PgProtoError Bytes) (st : PgState) :
    ((writeRaw frame).bind fun _ =>
      (.halt (.ok (some st)) : SessionProg EngineError (Option PgState))).Uses
        fun o => handedOver o = none :=
  uses_bind (writeRaw_unheard _) fun _ => trivial

theorem firewalled_mediated {write : ResultSet → SessionProg EngineError Unit}
    (hwrite : ∀ rs, (write rs).Uses SessionOp.toClient) (sql : String) (x : Option String)
    (s : Unit) :
    (mediation (pgProfile ctx.deps.sqlparser) ctx.policy).Guards (pgSem ctx)
      (firewalled write ctx sql) x s fun _ _ _ => True := by
  have hrefuse {frame : Outcome PgProtoError Bytes} : ((writeRaw frame).bind fun _ =>
      (.halt (.ok false) : SessionProg EngineError Bool)).Uses fun o => handedOver o = none :=
    uses_bind (writeRaw_unheard _) fun _ => trivial
  intro verdict s' hverdict
  refine ⟨nofun, ?_⟩
  cases verdict with
  | deny reason =>
    apply guards_unheard
    exact ⟨rfl, fun _ => hrefuse⟩
  | allow =>
    intro conn s'' _
    refine ⟨nofun, ?_⟩
    cases conn with
    | error e => exact guards_unheard hrefuse (some sql) s''
    | ok conn =>
      apply guards_withConn
      apply guards_handOver rfl hverdict.symm
      intro result
      cases result with
      | error e => exact ⟨rfl, fun _ => hrefuse⟩
      | ok msgs =>
        apply uses_bind (uses_mono handedOver_toClient (hwrite _))
        exact fun _ => ⟨rfl, fun _ => trivial⟩

theorem backendDescribe_mediated (sql : String)
    (hallow : Firewall.evaluate sql ctx.policy (pgProfile ctx.deps.sqlparser) = .allow) (s : Unit) :
    (mediation (pgProfile ctx.deps.sqlparser) ctx.policy).Guards (pgSem ctx)
      (backendDescribe sql) (some sql) s fun _ _ _ => True := by
  intro conn s' _
  refine ⟨nofun, ?_⟩
  cases conn with
  | error e => trivial
  | ok conn =>
    apply guards_withConn
    apply guards_handOver rfl hallow
    intro result
    cases result <;> trivial

theorem onQuery_mediated (st : PgState) (body : Bytes) (x : Option String) (s : Unit) :
    (mediation (pgProfile ctx.deps.sqlparser) ctx.policy).Guards (pgSem ctx)
      (onQuery ctx st body) x s fun _ _ _ => True := by
  have hready (x : Option String) (s : Unit) :
      (mediation (pgProfile ctx.deps.sqlparser) ctx.policy).Guards (pgSem ctx)
        ((writeRaw readyForQuery).bind fun _ =>
          (.halt (.ok (some st)) : SessionProg EngineError (Option PgState))) x s
        fun _ _ _ => True :=
    guards_unheard (writeRaw_then_unheard _ _) x s
  unfold onQuery
  simp only [bind_eq, pure_eq]
  split_ifs with hempty
  · exact (guards_unheard (writeRaw_unheard _) x s).bind_any fun _ => hready
  · have hexec := firewalled_mediated ctx writeResultSet_uses (queryText body) x s
    exact hexec.bind_any fun _ => hready

theorem onParse_mediated (st : PgState) (body : Bytes) (x : Option String) (s : Unit) :
    (mediation (pgProfile ctx.deps.sqlparser) ctx.policy).Guards (pgSem ctx)
      (onParse ctx st body) x s fun _ _ _ => True := by
  unfold onParse
  split_ifs with hskip
  · trivial
  · simp only [bind_eq, pure_eq]
    cases hparse : (parseParse body : Outcome EngineError (Option ParseMsg)) with
    | err e => trivial
    | panic => trivial
    | ok parsed =>
      simp only [lift, halt_ok_bind]
      cases parsed with
      | none => exact guards_unheard (failUntilSync_unheard _ _ _) x s
      | some m =>
        intro verdict s' hverdict
        refine ⟨nofun, ?_⟩
        cases verdict with
        | deny reason =>
          apply guards_unheard
          exact ⟨rfl, fun _ => failUntilSync_unheard _ _ _⟩
        | allow =>
          have hdescribe := backendDescribe_mediated ctx m.query hverdict.symm s'
          apply hdescribe.bind_any
          intro described x' s''
          apply guards_unheard
          cases described with
          | ok d => exact writeRaw_then_unheard _ _
          | error e => exact failUntilSync_unheard _ _ _

theorem onExecute_mediated (st : PgState) (body : Bytes) (x : Option String) (s : Unit) :
    (mediation (pgProfile ctx.deps.sqlparser) ctx.policy).Guards (pgSem ctx)
      (onExecute ctx st body) x s fun _ _ _ => True := by
  unfold onExecute
  split_ifs with hskip
  · trivial
  · simp only [bind_eq, pure_eq]
    cases hparse : (parseExecute body : Outcome EngineError (Option String)) with
    | err e => trivial
    | panic => trivial
    | ok name =>
      simp only [lift, halt_ok_bind]
      cases st.portals[name.getD ""]? with
      | none => exact guards_unheard (failUntilSync_unheard _ _ _) x s
      | some portal =>
        have hexec := firewalled_mediated ctx writeRowsOnly_uses portal.sql x s
        apply hexec.bind_any
        intro ran x' s'
        split_ifs <;> trivial

theorem onBind_unheard (st : PgState) (body : Bytes) :
    (onBind ctx st body).Uses fun o => handedOver o = none := by
  unfold onBind
  split_ifs with hskip
  · trivial
  · apply uses_bind (by trivial)
    intro parsed
    cases parsed with
    | none => exact failUntilSync_unheard _ _ _
    | some m =>
      dsimp only
      split
      · exact failUntilSync_unheard _ _ _
      · split
        · trivial
        · exact failUntilSync_unheard _ _ _
        · apply uses_bind (by trivial)
          exact fun inlined => writeRaw_then_unheard _ _

theorem onDescribe_unheard (st : PgState) (body : Bytes) :
    (onDescribe st body).Uses fun o => handedOver o = none := by
  unfold onDescribe
  split_ifs with hskip
  · trivial
  · apply uses_bind (by trivial)
    intro parsed
    cases parsed with
    | none => exact writeRaw_then_unheard _ _
    | some target =>
      dsimp only
      split
      · exact writeRaw_then_unheard _ _
      · split
        · apply uses_bind (writeRaw_unheard _)
          intro _
          split_ifs <;> exact writeRaw_then_unheard _ _
        · split_ifs <;> exact writeRaw_then_unheard _ _

theorem onClose_unheard (st : PgState) (body : Bytes) :
    (onClose st body).Uses fun o => handedOver o = none := by
  apply uses_bind (by trivial)
  exact fun _ => writeRaw_then_unheard _ _

theorem onUnsupported_unheard (st : PgState) :
    (onUnsupported st).Uses fun o => handedOver o = none := by
  unfold onUnsupported
  exact uses_bind (writeRaw_unheard _) fun _ => writeRaw_then_unheard _ _

theorem pgHandle_mediated (st : PgState) (m : UInt8 × Bytes) (x : Option String) (s : Unit) :
    (mediation (pgProfile ctx.deps.sqlparser) ctx.policy).Guards (pgSem ctx)
      (pgHandle ctx st m.1 m.2) x s fun _ _ _ => True := by
  unfold pgHandle
  split_ifs
  · exact onQuery_mediated ctx st m.2 x s
  · exact onParse_mediated ctx st m.2 x s
  · exact guards_unheard (onBind_unheard ctx st m.2) x s
  · exact guards_unheard (onDescribe_unheard st m.2) x s
  · exact onExecute_mediated ctx st m.2 x s
  · exact guards_unheard (onClose_unheard st m.2) x s
  · trivial
  · exact guards_unheard (writeRaw_then_unheard _ _) x s
  · trivial
  · exact guards_unheard (onUnsupported_unheard st) x s

theorem serve_mediated (t : List SessionEvent) (ht : (serve ctx).Trace (pgSem ctx) {} () t) :
    Mediated (pgProfile ctx.deps.sqlparser) ctx.policy t := by
  apply mediated_of_accepts
  apply ht.accepts_of_guards
  · exact guards_unheard (uses_mono handedOver_fromClient pgRead_uses)
  · exact fun x st m s => pgHandle_mediated ctx st m x s

end

/-- Whatever the client sends, no session hands the backend a text that the firewall has not
just allowed. -/
theorem sessions_mediated (ctx : SessionCtx) :
    (∀ t, (serveSession ctx).Trace (mysqlSem ctx) () () t →
      Mediated (mysqlProfile ctx.deps.sqlparser) ctx.policy t) ∧
    (∀ t, (serve ctx).Trace (pgSem ctx) {} () t →
      Mediated (pgProfile ctx.deps.sqlparser) ctx.policy t) :=
  ⟨serveSession_mediated ctx, serve_mediated ctx⟩

end MiddleWhere.Net
