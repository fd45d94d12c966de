import MiddleWhere.Net.HandshakeCodec
import MiddleWhere.Net.MysqlFidelity
import MiddleWhere.Net.TokenLife

/-!
# Result sets under the negotiated capabilities

The greeting offers CLIENT_DEPRECATE_EOF, and a client that declines it reads result sets by
other rules: an EOF packet stands between the columns and the rows and another after the rows.
The session that follows the handshake writes one form only.
-/

namespace MiddleWhere.Net
open Prog Firewall

/-! ## The rules without CLIENT_DEPRECATE_EOF -/

/-- What a client awaits: an EOF after its columns, or what the rules that both kinds of
client share say. -/
inductive EofState
  | between (done : List ResultView) (cols : List ColumnView)
  | reading (st : ClientState)

/-- No row packet of fewer than nine bytes begins like an EOF. -/
def isEof (p : Bytes) : Bool := p.head? = some 0xFE ∧ p.length < 9

/-- The warnings of an EOF, and whether its status announces another result. -/
def eofBody : Decoder UInt8 (ℕ × Bool) := do
  let warnings ← fromLe <$> takeN 2
  let status ← fromLe <$> takeN 2
  return (warnings, hasCap status 0x0008)

/-- Once its columns are complete, the client awaits the EOF. -/
def EofState.of : ClientState → EofState
  | .rows done cols [] => .between done cols
  | st => .reading st

def eofStep : EofState → Bytes → Option EofState
  | .between done cols, p =>
    if isEof p then do
      let _ ← front eofBody p.tail
      return .reading (.rows done cols [])
    else none
  | .reading (.rows done cols rows), p =>
    if p.head? = some 0xFF then some (.reading (.finished ⟨done, some (some ⟨cols, rows⟩)⟩))
    else if isEof p then do
      let (_, more) ← front eofBody p.tail
      return .reading (afterResult done (.set ⟨cols, rows⟩) more)
    else do
      let row ← whole (repeatN cell cols.length) p
      return .reading (.rows done cols (rows ++ [row]))
  | .reading st, p => EofState.of <$> clientStep st p

/-- What a client reads of a reply under the capabilities in force. -/
def decodePacketsUnder (caps : ℕ) (payloads : List Bytes) : Option ReplyView :=
  if hasCap caps clientDeprecateEof then decodePackets payloads
  else
    match payloads.foldlM eofStep (.reading (.start [])) with
    | some (.reading (.finished reply)) => some reply
    | _ => none

def decodeReplyUnder (caps : ℕ) (input : Bytes) : Option ReplyView := do
  decodePacketsUnder caps (← splitPackets input.length 1 input)

theorem decodeReplyUnder_packets (caps : ℕ) {ps : List Bytes}
    (h : ∀ p ∈ ps, p.length < maxPayload) :
    decodeReplyUnder caps (packets 1 ps) = decodePacketsUnder caps ps := by
  have hsplit := splitPackets_packets 1 (packets_length_ge 1 ps) h
  unfold decodeReplyUnder
  rw [hsplit]
  rfl

section
variable {deps : SessionDeps} {s : TextSet}

theorem foldlM_eofColumns {done : List ResultView} {count : ℕ} (acc : List Column)
    {cols : List Column} (hle : acc.length + cols.length ≤ count)
    (hfit : ∀ c ∈ cols, Fits (columnDefPacket c)) :
    (cols.map columnDefPacket).foldlM eofStep
        (.of (afterColumns done count (acc.map Column.view))) =
      some (.of (afterColumns done count ((acc ++ cols).map Column.view))) := by
  induction cols generalizing acc with
  | nil => simp
  | cons c cols ih =>
    have hlt : acc.length < count := by
      simp only [List.length_cons] at hle
      omega
    have hwaiting : afterColumns done count (acc.map Column.view) =
        .columns done count (acc.map Column.view) := if_neg (by simp; omega)
    have hread : whole columnDef (columnDefPacket c) = some c.view :=
      (reads_columnDef (hfit c List.mem_cons_self)).whole
    have hstep : eofStep (.of (afterColumns done count (acc.map Column.view)))
        (columnDefPacket c) =
          some (.of (afterColumns done count ((acc ++ [c]).map Column.view))) := by
      rw [hwaiting, List.map_append]
      simp only [EofState.of, eofStep, clientStep, hread]
      rfl
    have hrest : (cols.map columnDefPacket).foldlM eofStep
        (.of (afterColumns done count ((acc ++ [c]).map Column.view))) =
          some (.of (afterColumns done count ((acc ++ [c] ++ cols).map Column.view))) := by
      apply ih
      · simp only [List.length_append, List.length_cons, List.length_nil] at hle ⊢
        omega
      · exact fun c' hc' => hfit c' (List.mem_cons_of_mem c hc')
    rw [List.map_cons, List.foldlM_cons, hstep]
    simpa using hrest

/-- What follows the columns is the first row, or the OK, which is taken for the EOF between
columns and rows. -/
theorem foldlM_eof_reply (hfit : ∀ p ∈ s.body deps, Fits p) :
    ∀ reply, (s.reply deps).foldlM eofStep (.reading (.start [])) ≠
      some (.reading (.finished reply)) := by
  have hcount : eofStep (.reading (.start [])) s.count =
      some (.of (afterColumns [] s.cols.length [])) := by
    simp only [eofStep, clientStep_count]
    rfl
  have hcols : (s.cols.map columnDefPacket).foldlM eofStep
      (.of (afterColumns [] s.cols.length [])) =
        some (.between [] (s.cols.map Column.view)) := by
    have hread := @foldlM_eofColumns [] s.cols.length [] s.cols (by simp)
      fun c hc => hfit _ (List.mem_append_left _ (List.mem_map_of_mem hc))
    rw [List.map_nil, List.nil_append] at hread
    rw [hread, afterColumns, if_pos (List.length_map _)]
    rfl
  intro reply
  unfold TextSet.reply TextSet.body
  rw [List.foldlM_cons, hcount, Option.bind_eq_bind, Option.bind_some, List.append_assoc,
    List.foldlM_append, hcols, Option.bind_eq_bind, Option.bind_some]
  cases hrows : s.rows with
  | nil =>
    -- the OK is taken for the EOF, and nothing follows
    have hok : eofStep (.between [] (s.cols.map Column.view)) (okEofPacket 0 0) =
        some (.reading (.rows [] (s.cols.map Column.view) [])) := rfl
    rw [List.map_nil, List.nil_append, List.foldlM_cons, hok]
    simp
  | cons row rows =>
    have hmem : row ∈ s.rows := by simp [hrows]
    have hrow_ne : row ≠ [] := by
      rintro rfl
      exact s.cols_ne (List.eq_nil_of_length_eq_zero (s.aligned _ hmem).symm)
    have hrowfit : Fits (rowText deps row) :=
      hfit _ (List.mem_append_right _ (List.mem_map_of_mem hmem))
    have hnoeof : isEof (rowText deps row) = false := by
      simp [isEof, (rowText_head deps hrow_ne hrowfit).2]
    have hrefused : eofStep (.between [] (s.cols.map Column.view)) (rowText deps row) = none := by
      simp [eofStep, hnoeof]
    rw [List.map_cons, List.cons_append, List.foldlM_cons, hrefused]
    simp

theorem decodePacketsUnder_reply (caps : ℕ) (hfit : ∀ p ∈ s.body deps, Fits p) :
    decodePacketsUnder caps (s.reply deps) = some ⟨[.set (s.view deps)], none⟩ ↔
      hasCap caps clientDeprecateEof = true := by
  unfold decodePacketsUnder
  by_cases hcap : hasCap caps clientDeprecateEof = true
  · rw [if_pos hcap]
    exact iff_of_true (decodePackets_set hfit) hcap
  · rw [if_neg hcap]
    refine iff_of_false ?_ hcap
    split
    · rename_i reply hreply
      exact absurd hreply (foldlM_eof_reply hfit reply)
    · exact nofun

end

/-! ## Sessions -/

/-- Some run of the handshake reads `response` from the client and accepts the session. -/
def Accepts (deps : SessionDeps) (expectedEnvName : String) (auth : ClientAuth)
    (threadId : UInt32) (response : Bytes) (session : AcceptedSession) : Prop :=
  ∃ scramble seq t₁ t₂,
    Exec (Sem.free sessionSig) (greet threadId) () t₁ (.ok (scramble, response, seq)) () ∧
    Exec (Sem.free sessionSig) (verifyResponse deps expectedEnvName auth scramble response seq) () t₂
      (.ok session) ()

section
variable {deps : SessionDeps} {expectedEnvName : String} {auth : ClientAuth} {threadId : UInt32}
  {response : Bytes} {session : AcceptedSession}

/-- A client that answers the scramble at once and rightly. -/
theorem eval_verifyResponse {client : Client} {random : Bytes} {s : Wire} {scramble : Bytes}
    {seq : SequenceCounter} {parsed : ParsedHandshakeResponse}
    (hparse : parseHandshakeResponse response = .ok parsed) (hswitch : needsSwitch parsed = false)
    (huser : Str.fromUtf8Lossy parsed.username = expectedEnvName)
    (hauth : nativeAuth deps.sha1 scramble parsed.authResponse auth = true) :
    (verifyResponse deps expectedEnvName auth scramble response seq).eval (wireAnswer client random) s =
      (.ok ⟨expectedEnvName, expectedEnvName, parsed.database.map Str.fromUtf8Lossy⟩,
        { s with received := s.received ++ packet seq okPacket }) := by
  have hfits : okPacket.length < maxPayload := by decide
  unfold verifyResponse nativeResponse
  rw [hparse]
  simp only [hswitch, Bool.false_eq_true, if_false, pure_eq, bind_eq, halt_ok_bind, huser, hauth,
    beq_self_eq_true, Bool.and_self, if_true]
  rw [eval_bind_ok (eval_writeHandshake hfits)]
  rfl

theorem Accepts.handshake (h : Accepts deps expectedEnvName auth threadId response session) :
    ∃ t, Exec (Sem.free sessionSig) (handshake deps expectedEnvName auth threadId) () t
      (.ok session) () := by
  obtain ⟨scramble, seq, t₁, t₂, hgreet, hverify⟩ := h
  rw [handshake_eq]
  exact ⟨t₁ ++ t₂, hgreet.bind hverify⟩

theorem Accepts.parsed (h : Accepts deps expectedEnvName auth threadId response session) :
    ∃ parsed, parseHandshakeResponse response = .ok parsed := by
  obtain ⟨scramble, seq, t₁, t₂, -, hverify⟩ := h
  unfold verifyResponse at hverify
  cases hparse : parseHandshakeResponse response with
  | ok parsed => exact ⟨parsed, rfl⟩
  | panic =>
    rw [hparse] at hverify
    obtain ⟨-, heq, -⟩ := exec_halt_iff.mp hverify
    cases heq
  | err e =>
    rw [hparse] at hverify
    obtain ⟨_, _, _, _, -, hfail, -⟩ | ⟨_, heq, -⟩ | ⟨heq, -⟩ := exec_bind_iff.mp hverify
    · obtain ⟨-, heq, -⟩ := exec_halt_iff.mp hfail
      cases heq
    · cases heq
    · cases heq

end

/-- The capabilities that both sides named. -/
def inForce (parsed : ParsedHandshakeResponse) : ℕ := serverCaps &&& parsed.clientCaps

theorem inForce_deprecateEof (parsed : ParsedHandshakeResponse) :
    hasCap (inForce parsed) clientDeprecateEof = hasCap parsed.clientCaps clientDeprecateEof := by
  have hoffered : serverCaps &&& clientDeprecateEof = clientDeprecateEof := by decide
  unfold hasCap inForce
  rw [Nat.and_comm serverCaps, Nat.and_assoc, hoffered]

/-- A result set that an accepted session sends is read back exactly by the clients that set
CLIENT_DEPRECATE_EOF. -/
theorem resultSet_negotiated_iff {ctx : SessionCtx} {auth : ClientAuth} {threadId : UInt32}
    {response : Bytes} {session : AcceptedSession} {s : TextSet}
    {turn : Turn sessionSig Unit Bytes} {out : Outcome RouterError (Option Unit)} {sql : String}
    (haccept : Accepts ctx.deps ctx.envName auth threadId response session)
    (h : (serveSession ctx).Handled (mysqlSem ctx) () () turn out)
    (hquery : comQuery turn.msg = some sql) (hallow : mysqlVerdict ctx sql = .allow)
    (hconn : GotConnection turn.trace) (htook : ClientTook turn.trace)
    (hset : ∀ e ∈ turn.trace, (BackendOutcome.last (.set s)).Answers e)
    (hfit : ∀ p ∈ s.body ctx.deps, Fits p) :
    ∃ parsed, parseHandshakeResponse response = .ok parsed ∧
      (decodeReplyUnder (inForce parsed) (sent turn.trace) =
          some ⟨[.set (s.view ctx.deps)], none⟩ ↔
        hasCap parsed.clientCaps clientDeprecateEof = true) := by
  obtain ⟨parsed, hparse⟩ := haccept.parsed
  refine ⟨parsed, hparse, ?_⟩
  obtain ⟨ps, hps, hsent⟩ := comQuery_sent h hquery hallow hconn htook hset
  obtain rfl : ps = s.reply ctx.deps := hps
  have hall : ∀ p ∈ s.reply ctx.deps, Fits p := by
    intro p hp
    rw [TextSet.reply, List.mem_cons, List.mem_append, List.mem_singleton] at hp
    rcases hp with rfl | hp | rfl
    · exact count_fits s
    · exact hfit p hp
    · decide
  have hwhole : (s.reply ctx.deps).takeWhile Fits = s.reply ctx.deps :=
    List.takeWhile_eq_self_iff.mpr fun p hp => decide_eq_true (hall p hp)
  rw [hsent, hwhole, decodeReplyUnder_packets _ hall, decodePacketsUnder_reply _ hfit,
    inForce_deprecateEof]

/-! ## One row for a client without CLIENT_DEPRECATE_EOF -/

def literalColumn : Column := ⟨"", "", "", "1", "", 63, 2, 8, 0x81, 0⟩

def literalSet : TextSet where
  cols := [literalColumn]
  rows := [[.int 1]]
  cols_ne := by decide
  count_lt := by decide
  aligned := by simp

/-- `SELECT 1` -/
def selectBody : Bytes := [0x53, 0x45, 0x4C, 0x45, 0x43, 0x54, 0x20, 0x31]

def eofCtx : SessionCtx where
  deps := { sampleSessions with sqlparser := parserOf "SELECT 1" selectLiteral }
  envName := "prod"
  clientUser := "prod"
  policy := .readOnly

theorem select_allowed : mysqlVerdict eofCtx (Str.fromUtf8Lossy selectBody) = .allow := by
  decide

theorem sampleResponse_accepted : Accepts eofCtx.deps eofCtx.envName
    (.nativePassword (Token.doubleSha1 eofCtx.deps.hashes replacedToken)) 7 sampleResponse
    ⟨"prod", "prod", none⟩ := by
  have hgreet := @eval_greet sampleConnection.client sampleConnection.random 7 sampleResponse
    (by decide) (by decide) (List.prefix_refl _)
  have hparse : parseHandshakeResponse sampleResponse = .ok sampleParsed := by rfl
  have hswitch : needsSwitch sampleParsed = false := by decide
  have huser : Str.fromUtf8Lossy sampleParsed.username = eofCtx.envName := by decide
  have hauth : nativeAuth eofCtx.deps.sha1 sampleConnection.scramble sampleParsed.authResponse
      (.nativePassword (Token.doubleSha1 eofCtx.deps.hashes replacedToken)) = true := by
    have hown : sampleParsed.authResponse =
        Token.nativeResponse eofCtx.deps.hashes replacedToken sampleConnection.scramble :=
      replacedAnswer_eq.symm
    have hsha1 : ∀ x, (eofCtx.deps.hashes.sha1 x).length = 20 := Sha.sha1_length
    rw [hown]
    exact @nativeAuth_own eofCtx.deps.hashes _ _ hsha1
  obtain ⟨t₁, h₁⟩ := exec_iff_eval.mpr hgreet
  obtain ⟨t₂, h₂⟩ := exec_iff_eval.mpr
    (@eval_verifyResponse _ _ _ _ sampleConnection.client sampleConnection.random {} _ 2 _ hparse hswitch
      huser hauth)
  exact ⟨_, _, t₁, t₂, h₁.free, h₂.free⟩

/-- The turn of an allowed text that the backend answers with one row. -/
def setTurn : Turn sessionSig Unit Bytes :=
  let column := columnDefPacket literalColumn
  let row := rowText eofCtx.deps [.int 1]
  ⟨(), 0x03 :: selectBody, [⟨.evaluate "SELECT 1", .allow⟩, ⟨.poolGet, .ok 7⟩,
    ⟨.queryIter 7 "SELECT 1", .ok (some [literalColumn])⟩,
    ⟨.write (packetHeader 1 1), .ok ()⟩, ⟨.write [1], .ok ()⟩, ⟨.flush, .ok ()⟩,
    ⟨.write (packetHeader 2 column.length), .ok ()⟩, ⟨.write column, .ok ()⟩, ⟨.flush, .ok ()⟩,
    ⟨.rows 7, ([[.int 1]], none)⟩,
    ⟨.write (packetHeader 3 row.length), .ok ()⟩, ⟨.write row, .ok ()⟩, ⟨.flush, .ok ()⟩,
    ⟨.write (packetHeader 4 7), .ok ()⟩, ⟨.write (okEofPacket 0 0), .ok ()⟩, ⟨.flush, .ok ()⟩,
    ⟨.emit (eofCtx.event "SELECT 1" .allow none (some 1)), ()⟩, ⟨.poolPut 7, ()⟩]⟩

theorem setTurn_handled : (serveSession eofCtx).Handled (mysqlSem eofCtx) () () setTurn
    (.ok (some ())) := by
  have hread : Exec (mysqlSem eofCtx) readCommand ()
      [⟨.recv 4, .ok [9, 0, 0, 0]⟩, ⟨.recv 9, .ok (0x03 :: selectBody)⟩]
      (.ok (some (0x03 :: selectBody))) () :=
    .step (fun bytes h => by cases h; rfl) (.step (fun bytes h => by cases h; rfl) (.halt _ _))
  have hquery : Exec (mysqlSem eofCtx) (handleComQuery eofCtx 1 (Str.fromUtf8Lossy selectBody)) ()
      setTurn.trace (.ok ()) () :=
    .step select_allowed.symm (.step trivial (.step trivial (.step trivial (.step trivial
      (.step trivial (.step trivial (.step trivial (.step trivial (.step trivial (.step trivial
        (.step trivial (.step trivial (.step trivial (.step trivial (.step trivial
          (.step trivial (.step trivial (.halt _ _))))))))))))))))))
  have hturn : Exec (mysqlSem eofCtx) (handleCommand eofCtx (0x03 :: selectBody)) ()
      setTurn.trace (.ok (some ())) () := by
    rw [handleCommand_query]
    exact exec_bind_iff.mpr (Or.inl ⟨(), _, [], (), hquery, .halt _ _, by simp⟩)
  exact Loop.handled_first hread hturn

theorem setTurn_conn : GotConnection setTurn.trace := ⟨7, by simp [setTurn]⟩

theorem setTurn_took : ClientTook setTurn.trace := by simp [setTurn, ClientTook, Took]

theorem setTurn_answers : ∀ e ∈ setTurn.trace, (BackendOutcome.last (.set literalSet)).Answers e := by
  simp [setTurn, BackendOutcome.Answers, BackendOutcome.Starts, BackendOutcome.Yields, literalSet]

theorem literalSet_fits : ∀ p ∈ literalSet.body eofCtx.deps, Fits p := by decide

theorem resultSet_negotiated_iff_sample : ∃ parsed,
    parseHandshakeResponse sampleResponse = .ok parsed ∧
      (decodeReplyUnder (inForce parsed) (sent setTurn.trace) =
          some ⟨[.set (literalSet.view eofCtx.deps)], none⟩ ↔
        hasCap parsed.clientCaps clientDeprecateEof = true) :=
  resultSet_negotiated_iff sampleResponse_accepted setTurn_handled rfl select_allowed setTurn_conn
    setTurn_took setTurn_answers literalSet_fits

theorem not_resultSet_negotiated : ∃ auth threadId response session parsed turn out sql,
    ∃ s : TextSet, Accepts eofCtx.deps eofCtx.envName auth threadId response session ∧
      parseHandshakeResponse response = .ok parsed ∧
      (serveSession eofCtx).Handled (mysqlSem eofCtx) () () turn out ∧
      comQuery turn.msg = some sql ∧ mysqlVerdict eofCtx sql = .allow ∧
      GotConnection turn.trace ∧ ClientTook turn.trace ∧
      (∀ e ∈ turn.trace, (BackendOutcome.last (.set s)).Answers e) ∧
      (∀ p ∈ s.body eofCtx.deps, Fits p) ∧
      decodeReplyUnder (inForce parsed) (sent turn.trace) ≠
        some ⟨[.set (s.view eofCtx.deps)], none⟩ := by
  have hparse : parseHandshakeResponse sampleResponse = .ok sampleParsed := by rfl
  refine ⟨_, _, _, _, sampleParsed, _, _, _, literalSet, sampleResponse_accepted, hparse,
    setTurn_handled, rfl, select_allowed, setTurn_conn, setTurn_took, setTurn_answers,
    literalSet_fits, ?_⟩
  have hread : decodeReplyUnder (inForce sampleParsed) (sent setTurn.trace) = none := by
    decide +kernel
  rw [hread]
  exact nofun

end MiddleWhere.Net
