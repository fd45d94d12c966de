import MiddleWhere.Net.Ledger

/-!
# The MySQL session does not panic

The handshake parser indexes only behind its own checks, and encoding a row indexes only
the row. What can panic is the log line of a denied query: it slices the text at byte 64,
which need not be a character boundary. A turn is safe exactly when it does not take that
slice inside a character.
-/

namespace MiddleWhere.Net
open Prog Firewall
open Outcome (safe_ok safe_err safe_ofOption index_of_lt slice_of_le ok_bind bind_eq_ok_iff)

/-! ## The handshake response -/

theorem nulStringAt_safe {buf : Bytes} {cur : ℕ} {missing : String} (h : cur ≤ buf.length) :
    (nulStringAt buf cur missing).Safe := by
  unfold nulStringAt
  rw [slice_of_le h le_rfl, ok_bind]
  apply Outcome.safe_bind (safe_ofOption _ _)
  exact fun _ _ => safe_ok _

theorem nulStringAt_le {buf text : Bytes} {cur cur' : ℕ} {missing : String}
    (h : cur ≤ buf.length) (hok : nulStringAt buf cur missing = .ok (text, cur')) :
    cur' ≤ buf.length := by
  unfold nulStringAt at hok
  rw [slice_of_le h le_rfl, ok_bind] at hok
  cases hread : readNulString ((buf.drop cur).take (buf.length - cur)) with
  | none => simp [hread, Outcome.ofOption] at hok
  | some p =>
    have hle : p.2 ≤ ((buf.drop cur).take (buf.length - cur)).length := readNulString_le hread
    simp only [hread, Outcome.ofOption, ok_bind, Outcome.pure_eq, Outcome.ok.injEq, Prod.mk.injEq] at hok
    simp only [List.length_take, List.length_drop] at hle
    omega

theorem authResponseAt_safe {buf : Bytes} {caps cur : ℕ} (h : cur ≤ buf.length) :
    (authResponseAt buf caps cur).Safe := by
  unfold authResponseAt
  split_ifs with hcap hcur
  · exact safe_err _
  · rw [index_of_lt (by omega), ok_bind]
    dsimp only
    split_ifs with hlen
    · exact safe_err _
    · rw [slice_of_le (by omega) (by omega), ok_bind]
      exact safe_ok _
  · exact nulStringAt_safe h

theorem authResponseAt_le {buf text : Bytes} {caps cur cur' : ℕ} (h : cur ≤ buf.length)
    (hok : authResponseAt buf caps cur = .ok (text, cur')) : cur' ≤ buf.length := by
  unfold authResponseAt at hok
  split_ifs at hok with hcap hcur
  · rw [index_of_lt (by omega), ok_bind] at hok
    dsimp only at hok
    split_ifs at hok with hlen
    rw [slice_of_le (by omega) (by omega), ok_bind, Outcome.pure_eq] at hok
    simp only [Outcome.ok.injEq, Prod.mk.injEq] at hok
    omega
  · exact nulStringAt_le h hok

theorem databaseAt_safe {buf : Bytes} {caps cur : ℕ} (h : cur ≤ buf.length) :
    (databaseAt buf caps cur).Safe := by
  unfold databaseAt
  split_ifs with hcap
  · apply Outcome.safe_bind (nulStringAt_safe h)
    exact fun _ _ => safe_ok _
  · exact safe_ok _

theorem databaseAt_le {buf : Bytes} {db : Option Bytes} {caps cur cur' : ℕ}
    (h : cur ≤ buf.length) (hok : databaseAt buf caps cur = .ok (db, cur')) :
    cur' ≤ buf.length := by
  unfold databaseAt at hok
  split_ifs at hok with hcap
  · obtain ⟨⟨text, cur₁⟩, hnul, hdb⟩ := bind_eq_ok_iff.mp hok
    have hcur := nulStringAt_le h hnul
    simp only [Outcome.pure_eq, Outcome.ok.injEq, Prod.mk.injEq] at hdb
    omega
  · simp only [Outcome.pure_eq, Outcome.ok.injEq, Prod.mk.injEq] at hok
    omega

theorem authPluginAt_safe {buf : Bytes} {caps cur : ℕ} (h : cur ≤ buf.length) :
    (authPluginAt buf caps cur).Safe := by
  unfold authPluginAt
  split_ifs with hcap
  · apply Outcome.safe_bind (nulStringAt_safe h)
    exact fun _ _ => safe_ok _
  · exact safe_ok _

theorem parseHandshakeResponse_safe (buf : Bytes) : (parseHandshakeResponse buf).Safe := by
  unfold parseHandshakeResponse
  split_ifs with hshort
  · exact safe_err _
  rw [slice_of_le (by omega) (by omega), ok_bind]
  dsimp only
  split_ifs with hcaps
  · exact safe_err _
  apply Outcome.safe_bind (nulStringAt_safe (by omega))
  intro user huser
  have hcur : user.2 ≤ buf.length := nulStringAt_le (by omega) huser
  apply Outcome.safe_bind (authResponseAt_safe hcur)
  intro auth hauth
  have hcur₁ : auth.2 ≤ buf.length := authResponseAt_le hcur hauth
  apply Outcome.safe_bind (databaseAt_safe hcur₁)
  intro db hdb
  have hcur₂ : db.2 ≤ buf.length := databaseAt_le hcur₁ hdb
  apply Outcome.safe_bind (authPluginAt_safe hcur₂)
  exact fun _ _ => safe_ok _

/-! ## Reading and writing packets -/

section
variable {M : Sem sessionSig Unit}

theorem writePacket_safe (seq : SequenceCounter) (payload : Bytes) (s : Unit) :
    Prog.Safe M (writePacket seq payload) s := by
  have hwrite (bytes : Bytes) (s : Unit) : Prog.Safe M (writeAll bytes) s :=
    safe_call.mpr fun _ _ _ => safe_ofExcept
  unfold writePacket
  split_ifs with hlen
  · exact safe_halt.mpr (safe_err _)
  · apply Prog.safe_bind (hwrite _ s)
    intro _ s₁
    apply Prog.safe_bind (hwrite _ s₁)
    intro _ s₂
    refine safe_call.mpr fun r s₃ _ => ?_
    apply Prog.safe_bind safe_ofExcept
    exact fun _ _ => safe_halt.mpr (safe_ok _)

theorem reply_safe (seq : SequenceCounter) (payload : Bytes) (s : Unit) :
    Prog.Safe M (reply seq payload) s :=
  safe_mapErr (writePacket_safe seq payload s)

/-- A read that succeeds has filled its buffer. -/
theorem recvExact_wp (profile : PolicyProfile) (policy : Policy) (what : String) (n : ℕ)
    (s : Unit) : wp (sessionSem profile policy) (recvExact what n)
      (fun _ out _ => out.Safe ∧ ∀ bytes, out = .ok bytes → bytes.length = n) s := by
  refine wp_call.mpr ?_
  intro r s' hM
  rcases r with (_ | e) | bytes
  · exact wp_halt.mpr ⟨safe_err _, nofun⟩
  · exact wp_halt.mpr ⟨safe_err _, nofun⟩
  · refine wp_halt.mpr ⟨safe_ok _, ?_⟩
    intro bytes' h
    obtain rfl := Outcome.ok.inj h
    exact hM bytes rfl

theorem readPacket_safe (profile : PolicyProfile) (policy : Policy) (seq : SequenceCounter)
    (s : Unit) : Prog.Safe (sessionSem profile policy) (readPacket seq) s := by
  have hrecv (what : String) (n : ℕ) (s : Unit) :
      Prog.Safe (sessionSem profile policy) (recvExact what n) s :=
    wp_mono (recvExact_wp profile policy what n s) fun _ _ _ h => h.1
  apply safe_bind_of_wp
  refine wp_mono (recvExact_wp profile policy "packet header" 4 s) ?_
  intro _ out s' hread
  refine ⟨hread.1, ?_⟩
  intro header hout
  obtain ⟨lo, mid, hi, got, rfl⟩ := List.length_eq_four.mp (hread.2 header hout)
  apply Prog.safe_bind safe_ofExcept
  intro seq' s''
  split_ifs with hlen
  · exact safe_halt.mpr (safe_err _)
  · apply Prog.safe_bind (hrecv _ _ s'')
    exact fun _ _ => safe_halt.mpr (safe_ok _)

theorem readCommand_safe (ctx : SessionCtx) (s : Unit) :
    Prog.Safe (mysqlSem ctx) readCommand s := by
  apply Prog.safe_bind (safe_attempt (readPacket_safe _ _ 0 s))
  intro r s'
  rcases r with e | p
  · cases e <;> exact safe_halt.mpr (by simp)
  · exact safe_halt.mpr (safe_ok _)

/-! ## The handshake -/

theorem bestEffort_safe {α : Type} {p : SessionProg FramingError α} {s : Unit}
    (h : Prog.Safe M p s) : Prog.Safe M (bestEffort p) s := by
  apply Prog.safe_bind (safe_attempt h)
  exact fun _ _ => safe_halt.mpr (safe_ok _)

theorem readHandshakePacket_safe (profile : PolicyProfile) (policy : Policy)
    (seq : SequenceCounter) (s : Unit) :
    Prog.Safe (sessionSem profile policy) (readHandshakePacket seq) s := by
  apply Prog.safe_bind (safe_attempt (readPacket_safe profile policy seq s))
  intro r s'
  rcases r with e | p
  · cases e <;> exact safe_halt.mpr (by simp)
  · exact safe_halt.mpr (safe_ok _)

theorem handshake_safe (ctx : SessionCtx) (envName : String) (auth : ClientAuth)
    (threadId : UInt32) (s : Unit) :
    Prog.Safe (mysqlSem ctx) (handshake ctx.deps envName auth threadId) s := by
  have hsend (seq : SequenceCounter) (payload : Bytes) (s : Unit) :
      Prog.Safe (mysqlSem ctx) ((writePacket seq payload).mapErr HandshakeError.framing) s :=
    safe_mapErr (writePacket_safe seq payload s)
  have hrefuse (seq : SequenceCounter) (payload : Bytes) (e : HandshakeError) (s : Unit) :
      Prog.Safe (mysqlSem ctx) ((bestEffort (writePacket seq payload)).bind fun _ =>
        (fail e : SessionProg HandshakeError AcceptedSession)) s :=
    Prog.safe_bind (bestEffort_safe (writePacket_safe seq payload s)) fun _ _ =>
      safe_halt.mpr (safe_err e)
  refine safe_call.mpr fun random s₁ _ => ?_
  apply Prog.safe_bind (hsend _ _ s₁)
  intro seq s₂
  apply Prog.safe_bind (readHandshakePacket_safe _ _ seq s₂)
  intro response s₃
  dsimp only
  cases hparse : parseHandshakeResponse response.1 with
  | panic => exact absurd hparse (parseHandshakeResponse_safe response.1)
  | err e => exact hrefuse _ _ e s₃
  | ok parsed =>
    have hnative : Prog.Safe (mysqlSem ctx)
        (nativeResponse response.2 (random.map printable) parsed) s₃ := by
      unfold nativeResponse
      split_ifs with hswitch
      · apply Prog.safe_bind (hsend _ _ s₃)
        exact fun seq s₄ => readHandshakePacket_safe _ _ seq s₄
      · exact safe_halt.mpr (safe_ok _)
    apply Prog.safe_bind hnative
    intro native s₄
    split_ifs with hok
    · apply Prog.safe_bind (hsend _ _ s₄)
      exact fun _ _ => safe_halt.mpr (safe_ok _)
    · exact hrefuse _ _ _ s₄

/-! ## One command -/

def comQuery : Bytes → Option String
  | 0x03 :: body => some (Str.fromUtf8Lossy body)
  | _ => none

/-- Byte 64 of the text, up to which the log line shows it, does not split a character. -/
def CutsCleanly (sql : String) : Prop :=
  64 < Str.len sql → Str.isCharBoundary (Str.asBytes sql) 64 = true

theorem cutsCleanly_iff (sql : String) : CutsCleanly sql ↔
    Str.isCharBoundary (Str.asBytes sql) (min (Str.len sql) 64) = true := by
  by_cases hlong : 64 < Str.len sql
  · rw [min_eq_right hlong.le]
    exact ⟨fun h => h hlong, fun h _ => h⟩
  · rw [min_eq_left (not_lt.mp hlong)]
    exact ⟨fun _ => Str.isCharBoundary_length _, fun _ h => absurd h hlong⟩

theorem comQuery_eq_some {pkt : Bytes} {sql : String} (h : comQuery pkt = some sql) :
    ∃ body, pkt = 0x03 :: body ∧ sql = Str.fromUtf8Lossy body := by
  unfold comQuery at h
  split at h
  · exact ⟨_, rfl, (Option.some.inj h).symm⟩
  · cases h

theorem handleCommand_query (ctx : SessionCtx) (body : Bytes) :
    handleCommand ctx (0x03 :: body) =
      (handleComQuery ctx 1 (Str.fromUtf8Lossy body)).bind fun _ => .halt (.ok (some ())) := rfl

theorem replyAll_safe (seq : SequenceCounter) (payloads : List Bytes) (s : Unit) :
    Prog.Safe M (replyAll seq payloads) s := by
  induction payloads generalizing seq s with
  | nil => exact safe_halt.mpr (safe_ok _)
  | cons p ps ih => exact Prog.safe_bind (reply_safe seq p s) fun seq' s' => ih seq' s'

theorem replyRows_safe (deps : SessionDeps) (seq : SequenceCounter) (rows : List Row) (s : Unit) :
    Prog.Safe M (replyRows deps seq rows) s := by
  induction rows generalizing seq s with
  | nil => exact safe_halt.mpr (safe_ok _)
  | cons row rows ih =>
    rw [replyRows_cons]
    exact Prog.safe_bind (reply_safe seq _ s) fun seq' s' => ih seq' s'

theorem replyResult_safe (deps : SessionDeps) (seq : SequenceCounter) (conn : ConnId)
    (cols : Option (List Column)) (s : Unit) :
    Prog.Safe M (replyResult deps seq conn cols) s := by
  unfold replyResult
  split
  · apply Prog.safe_bind (reply_safe _ _ s)
    intro seq s
    apply Prog.safe_bind (replyAll_safe _ _ s)
    intro seq s
    refine safe_call.mpr fun r s' _ => ?_
    apply Prog.safe_bind (replyRows_safe deps seq _ s')
    intro seq s
    cases r.2 with
    | none => exact Prog.safe_bind (reply_safe _ _ s) fun _ _ => safe_halt.mpr (safe_ok _)
    | some e => exact safe_halt.mpr (safe_err _)
  · refine safe_call.mpr fun r s' _ => ?_
    apply Prog.safe_bind (reply_safe _ _ s')
    exact fun _ _ => safe_halt.mpr (safe_ok _)

theorem failQuery_safe (ctx : SessionCtx) (seq : SequenceCounter) (sql cause message : String)
    (s : Unit) : Prog.Safe M (failQuery ctx seq sql cause message) s := by
  refine safe_call.mpr fun _ s' _ => ?_
  apply Prog.safe_bind (reply_safe _ _ s')
  exact fun _ _ => safe_halt.mpr (safe_ok _)

theorem runQueryOn_safe (ctx : SessionCtx) (seq : SequenceCounter) (sql : String) (conn : ConnId)
    (s : Unit) : Prog.Safe M (runQueryOn ctx seq sql conn) s := by
  refine safe_call.mpr fun r s' _ => ?_
  cases r with
  | error e => exact failQuery_safe ctx seq sql _ _ s'
  | ok cols =>
    apply Prog.safe_bind (replyResult_safe ctx.deps seq conn cols s')
    exact fun _ _ => safe_call.mpr fun _ _ _ => safe_halt.mpr (safe_ok _)

/-! ## A denied query -/

/-- What a denied query leads to: one audit event and, unless the client is gone, one error
packet after which the session goes on. -/
structure DenialSafe {α : Type} (event : AuditEvent) (reply : Bytes) (done : α)
    (t : List SessionEvent) (out : Outcome RouterError α) : Prop where
  safe : out.Safe
  audited : emitted t = [event]
  answered : sent t <+: reply
  usable : ClientTook t → sent t = reply ∧ out = .ok done

def denial (reason : String) : Bytes := packet 1 (errPacket 1064 "42000" reason)

theorem errPacket_fits {reason : String} (h : reason ∈ denyReasons) :
    (errPacket 1064 "42000" reason).length < maxPayload := by
  have hlens : ∀ r ∈ denyReasons, (errPacket 1064 "42000" r).length < 2 ^ 10 := by decide
  exact (hlens reason h).trans (by decide)

theorem reply_sends {seq : SequenceCounter} {payload : Bytes}
    (hfit : payload.length < maxPayload) (s : Unit) :
    wp M (reply seq payload) (fun t out _ => out.Safe ∧ emitted t = [] ∧
      SendsPacket seq payload t out) s := by
  have hsends : wp M (reply seq payload) (fun t out _ => SendsPacket seq payload t out) s := by
    refine wp_mapErr.mpr (wp_mono (writePacket_sends hfit s) ?_)
    intro t out _ h
    refine ⟨h.1, fun htook => ⟨(h.2 htook).1, ?_⟩⟩
    rw [(h.2 htook).2]
    rfl
  intro t out s' ht
  have huses := ht.stops.uses (reply_uses seq payload)
  exact ⟨reply_safe seq payload s t out s' ht, emitted_of_toClient huses, hsends t out s' ht⟩

theorem denyQuery_denialSafe (ctx : SessionCtx) {sql reason : String} (hcut : CutsCleanly sql)
    (hreason : reason ∈ denyReasons) (s : Unit) :
    wp M (denyQuery ctx 1 sql reason) (fun t out _ =>
      DenialSafe (ctx.event sql .deny (some reason) none) (denial reason) () t out) s := by
  unfold denyQuery ask perform
  rw [Str.strSlice_prefix, if_pos ((cutsCleanly_iff sql).mp hcut)]
  simp only [lift, bind_eq, pure_eq, call_bind, halt_ok_bind]
  rw [wp_call]
  intro _ s₁ _
  rw [wp_bind_halt]
  refine wp_mono (reply_sends (errPacket_fits hreason) s₁) ?_
  intro t out s₂ h
  refine ⟨?_, ?_, ?_, ?_⟩
  · exact Outcome.safe_bind h.1 fun _ _ => safe_ok _
  · rw [emitted_emit, h.2.1]
  · rw [sent_emit]
    exact h.2.2.1
  · intro htook
    obtain ⟨hsent, hout⟩ := h.2.2.2 (clientTook_cons.mp htook).2
    exact ⟨hsent, by rw [hout, ok_bind]⟩

theorem denyQuery_panics (ctx : SessionCtx) {sql : String} (reason : String)
    (hcut : ¬ CutsCleanly sql) : denyQuery ctx 1 sql reason = .halt .panic := by
  unfold denyQuery
  rw [Str.strSlice_prefix, if_neg fun h => hcut ((cutsCleanly_iff sql).mpr h)]
  rfl

end

/-! ## One turn -/

section
variable (ctx : SessionCtx)

def mysqlVerdict (sql : String) : Decision :=
  Firewall.evaluate sql ctx.policy (mysqlProfile ctx.deps.sqlparser)

theorem handleComQuery_safe {sql : String}
    (hcut : ∀ reason, mysqlVerdict ctx sql = .deny reason → CutsCleanly sql) (s : Unit) :
    Prog.Safe (mysqlSem ctx) (handleComQuery ctx 1 sql) s := by
  refine safe_call.mpr ?_
  intro verdict s₁ hverdict
  cases verdict with
  | deny reason =>
    have hlisted : (mysqlVerdict ctx sql).Listed := evaluate_listed sql _ _
    have hdeny : mysqlVerdict ctx sql = .deny reason := hverdict.symm
    rw [hdeny] at hlisted
    exact wp_mono (denyQuery_denialSafe ctx (hcut reason hdeny) hlisted s₁) fun _ _ _ h => h.safe
  | allow =>
    refine safe_call.mpr ?_
    intro conn s₂ _
    cases conn with
    | error e => exact failQuery_safe ctx 1 sql _ _ s₂
    | ok conn => exact safe_finally (runQueryOn_safe ctx 1 sql conn s₂)

theorem handleComQuery_denied {sql reason : String} (hdeny : mysqlVerdict ctx sql = .deny reason)
    {Q : List SessionEvent → Outcome RouterError Unit → Unit → Prop} {s : Unit}
    (h : wp (mysqlSem ctx) (denyQuery ctx 1 sql reason)
      (fun t out s' => Q (⟨.evaluate sql, .deny reason⟩ :: t) out s') s) :
    wp (mysqlSem ctx) (handleComQuery ctx 1 sql) Q s := by
  refine wp_call.mpr ?_
  intro verdict s₁ hverdict
  obtain rfl : verdict = .deny reason := hverdict.trans hdeny
  exact h

theorem handleCommand_safe {pkt : Bytes} (hcut : ∀ sql reason, comQuery pkt = some sql →
      mysqlVerdict ctx sql = .deny reason → CutsCleanly sql) (s : Unit) :
    Prog.Safe (mysqlSem ctx) (handleCommand ctx pkt) s := by
  have hanswer (payload : Bytes) : Prog.Safe (mysqlSem ctx) ((reply 1 payload).bind fun _ =>
      (.halt (.ok (some ())) : SessionProg RouterError (Option Unit))) s :=
    Prog.safe_bind (reply_safe 1 payload s) fun _ _ => safe_halt.mpr (safe_ok _)
  unfold handleCommand
  simp only [bind_eq, pure_eq]
  split
  · exact safe_halt.mpr (safe_err _)
  · rename_i cmd body
    split_ifs with hquit hping hquery
    · exact safe_halt.mpr (safe_ok _)
    · exact hanswer _
    · subst hquery
      apply Prog.safe_bind (handleComQuery_safe ctx (fun reason => hcut _ reason rfl) s)
      exact fun _ _ => safe_halt.mpr (safe_ok _)
    · exact hanswer _

/-- The turn does not panic, and a denied query leads to what it should. -/
structure MysqlTurnSafe (turn : Turn sessionSig Unit Bytes)
    (out : Outcome RouterError (Option Unit)) : Prop where
  safe : out.Safe
  denials : ∀ sql reason, comQuery turn.msg = some sql → mysqlVerdict ctx sql = .deny reason →
    DenialSafe (ctx.event sql .deny (some reason) none) (denial reason) (some ()) turn.trace out

theorem handleCommand_denialSafe {pkt : Bytes} {sql reason : String}
    (hquery : comQuery pkt = some sql) (hdeny : mysqlVerdict ctx sql = .deny reason)
    (hcut : CutsCleanly sql) (s : Unit) :
    wp (mysqlSem ctx) (handleCommand ctx pkt) (fun t out _ =>
      DenialSafe (ctx.event sql .deny (some reason) none) (denial reason) (some ()) t out) s := by
  obtain ⟨body, rfl, rfl⟩ := comQuery_eq_some hquery
  have hlisted : (mysqlVerdict ctx (Str.fromUtf8Lossy body)).Listed := evaluate_listed _ _ _
  rw [hdeny] at hlisted
  rw [handleCommand_query, wp_bind_halt]
  refine handleComQuery_denied ctx hdeny (wp_mono (denyQuery_denialSafe ctx hcut hlisted s) ?_)
  intro t out s' h
  refine ⟨Outcome.safe_bind h.safe fun _ _ => safe_ok _, ?_, ?_, ?_⟩
  · rw [emitted_evaluate]
    exact h.audited
  · rw [sent_evaluate]
    exact h.answered
  · intro htook
    obtain ⟨hsent, hout⟩ := h.usable (clientTook_cons.mp htook).2
    exact ⟨hsent, by rw [hout, ok_bind]⟩

theorem handleCommand_panics {pkt : Bytes} {sql reason : String}
    (hquery : comQuery pkt = some sql) (hdeny : mysqlVerdict ctx sql = .deny reason)
    (hcut : ¬ CutsCleanly sql) (s : Unit) :
    wp (mysqlSem ctx) (handleCommand ctx pkt) (fun _ out _ => out = .panic) s := by
  obtain ⟨body, rfl, rfl⟩ := comQuery_eq_some hquery
  rw [handleCommand_query, wp_bind_halt]
  refine handleComQuery_denied ctx hdeny ?_
  rw [denyQuery_panics ctx reason hcut, wp_halt]
  rfl

/-- The handshake and the command reader never panic, and a turn is safe exactly when byte 64
of a query that it denies does not lie inside a character. -/
theorem mysqlSession_safe_iff :
    (∀ envName auth threadId,
      Prog.Safe (mysqlSem ctx) (handshake ctx.deps envName auth threadId) ()) ∧
    Prog.Safe (mysqlSem ctx) readCommand () ∧
    ∀ turn out, (serveSession ctx).Handled (mysqlSem ctx) () () turn out →
      (MysqlTurnSafe ctx turn out ↔ ∀ sql reason, comQuery turn.msg = some sql →
        mysqlVerdict ctx sql = .deny reason → CutsCleanly sql) := by
  refine ⟨fun envName auth threadId => handshake_safe ctx envName auth threadId (),
    readCommand_safe ctx (), ?_⟩
  rintro ⟨b, pkt, t⟩ out ⟨_, _, s₁, _, _, _, _, hturn⟩
  constructor
  · intro hsafe sql reason hquery hdeny
    by_contra hcut
    have hpanic : out = .panic := handleCommand_panics ctx hquery hdeny hcut s₁ _ _ _ hturn
    exact hsafe.safe hpanic
  · intro hcut
    refine ⟨handleCommand_safe ctx hcut s₁ _ _ _ hturn, ?_⟩
    intro sql reason hquery hdeny
    exact handleCommand_denialSafe ctx hquery hdeny (hcut _ _ hquery hdeny) s₁ _ _ _ hturn

end

/-! ## Two refused queries -/

def sampleDeps : SessionDeps where
  sqlparser := ⟨fun _ => .error "expected a statement", fun _ => .error "expected a statement",
    fun _ => ""⟩
  sha256 _ := List.replicate 32 0
  sha1 _ := List.replicate 20 0
  widenF32 bits := bits.toUInt64
  showF64 _ := ""
  formatFloat _ := ""

def sampleCtx : SessionCtx := ⟨sampleDeps, "stage", "alice", .readOnly⟩

def unparsed : Decision := .deny "statement did not parse"

def plainTurn : Turn sessionSig Unit Bytes :=
  let reply := errPacket 1064 "42000" "statement did not parse"
  ⟨(), [0x03, 0x78], [⟨.evaluate "x", unparsed⟩,
    ⟨.emit (sampleCtx.event "x" .deny (some "statement did not parse") none), ()⟩,
    ⟨.write (packetHeader 1 reply.length), .ok ()⟩, ⟨.write reply, .ok ()⟩, ⟨.flush, .ok ()⟩]⟩

theorem plainTurn_handled :
    (serveSession sampleCtx).Handled (mysqlSem sampleCtx) () () plainTurn (.ok (some ())) := by
  have hread : Exec (mysqlSem sampleCtx) readCommand ()
      [⟨.recv 4, .ok [2, 0, 0, 0]⟩, ⟨.recv 2, .ok [0x03, 0x78]⟩] (.ok (some [0x03, 0x78])) () :=
    .step (fun bytes h => by cases h; rfl) (.step (fun bytes h => by cases h; rfl) (.halt _ _))
  have hturn : Exec (mysqlSem sampleCtx) (handleCommand sampleCtx [0x03, 0x78]) ()
      plainTurn.trace (.ok (some ())) () :=
    .step rfl (.step trivial (.step trivial (.step trivial (.step trivial (.halt _ _)))))
  exact ⟨[], (), (), (), _, .nil _ _, hread, hturn⟩

theorem mysqlSession_safe_iff_plain : MysqlTurnSafe sampleCtx plainTurn (.ok (some ())) :=
  ((mysqlSession_safe_iff sampleCtx).2.2 plainTurn _ plainTurn_handled).mpr
    fun sql _ hquery _ hlong => by
      obtain rfl : "x" = sql := Option.some.inj hquery
      exact absurd hlong (by decide)

/-- 63 letters and an accented one, as a query. -/
def accentedQuery : Bytes := 0x03 :: (List.replicate 63 0x78 ++ [0xC3, 0xA9])

def accentedTurn : Turn sessionSig Unit Bytes :=
  ⟨(), accentedQuery, [⟨.evaluate (Str.fromUtf8Lossy accentedQuery.tail), unparsed⟩]⟩

theorem accentedTurn_handled :
    (serveSession sampleCtx).Handled (mysqlSem sampleCtx) () () accentedTurn .panic := by
  have hread : Exec (mysqlSem sampleCtx) readCommand ()
      [⟨.recv 4, .ok [66, 0, 0, 0]⟩, ⟨.recv 66, .ok accentedQuery⟩]
      (.ok (some accentedQuery)) () :=
    .step (fun bytes h => by cases h; rfl) (.step (fun bytes h => by cases h; rfl) (.halt _ _))
  have hturn : Exec (mysqlSem sampleCtx) (handleCommand sampleCtx accentedQuery) ()
      accentedTurn.trace .panic () :=
    .step rfl (.halt _ _)
  exact ⟨[], (), (), (), _, .nil _ _, hread, hturn⟩

theorem not_mysqlTurnSafe_accented : ∃ out,
    (serveSession sampleCtx).Handled (mysqlSem sampleCtx) () () accentedTurn out ∧
      ¬ MysqlTurnSafe sampleCtx accentedTurn out :=
  ⟨.panic, accentedTurn_handled, fun h => h.safe rfl⟩

/-! ## An allowed query -/

/-- The turn of an allowed text that the backend answers without columns. -/
def okTurn (ctx : SessionCtx) (body : Bytes) : Turn sessionSig Unit Bytes :=
  let sql := Str.fromUtf8Lossy body
  ⟨(), 0x03 :: body, [⟨.evaluate sql, .allow⟩, ⟨.poolGet, .ok 7⟩, ⟨.queryIter 7 sql, .ok none⟩,
    ⟨.dropResult 7, .ok ()⟩, ⟨.write (packetHeader 1 okPacket.length), .ok ()⟩,
    ⟨.write okPacket, .ok ()⟩, ⟨.flush, .ok ()⟩,
    ⟨.emit (ctx.event sql .allow none (some 0)), ()⟩, ⟨.poolPut 7, ()⟩]⟩

theorem okTurn_handled {ctx : SessionCtx} {body : Bytes} {t : List SessionEvent}
    (hallow : mysqlVerdict ctx (Str.fromUtf8Lossy body) = .allow)
    (hread : Exec (mysqlSem ctx) readCommand () t (.ok (some (0x03 :: body))) ()) :
    (serveSession ctx).Handled (mysqlSem ctx) () () (okTurn ctx body) (.ok (some ())) := by
  have hquery : Exec (mysqlSem ctx) (handleComQuery ctx 1 (Str.fromUtf8Lossy body)) ()
      (okTurn ctx body).trace (.ok ()) () :=
    .step hallow.symm (.step trivial (.step trivial (.step trivial (.step trivial
      (.step trivial (.step trivial (.step trivial (.step trivial (.halt _ _)))))))))
  have hturn : Exec (mysqlSem ctx) (handleCommand ctx (0x03 :: body)) ()
      (okTurn ctx body).trace (.ok (some ())) () := by
    rw [handleCommand_query]
    exact exec_bind_iff.mpr (Or.inl ⟨(), _, [], (), hquery, .halt _ _, by simp⟩)
  exact Loop.handled_first hread hturn

end MiddleWhere.Net
