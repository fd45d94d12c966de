import MiddleWhere.Net.PgPortals

/-!
# Result formats and row limits

A Bind ends with the formats it wants its result columns in, and an Execute with the number
of rows it wants. The session reads neither: every value is sent as text, and every row is
sent.
-/

namespace MiddleWhere.Net
open Prog Firewall

/-! ## A tail that is not read -/

section
variable {ε : Type} {buf tail : Bytes}

theorem readCstr_eq_ok {pos p : ℕ} {text : String}
    (h : (readCstr buf pos : Outcome ε (String × ℕ)) = .ok (text, p)) :
    pos ≤ p ∧ p ≤ buf.length := by
  unfold readCstr at h
  obtain ⟨bytes, hslice, htext⟩ := Outcome.bind_eq_ok_iff.mp h
  obtain ⟨hle, hlength, -⟩ := Outcome.slice_eq_ok_iff.mp hslice
  obtain ⟨-, hp⟩ := Prod.mk.inj (Outcome.ok.inj htext)
  split_ifs at hp with hnul
  · omega
  · omega

theorem readCstr_append {pos p : ℕ} {text : String}
    (h : (readCstr buf pos : Outcome ε (String × ℕ)) = .ok (text, p)) (hp : p < buf.length) :
    (readCstr (buf ++ tail) pos : Outcome ε (String × ℕ)) = .ok (text, p) := by
  unfold readCstr at h ⊢
  obtain ⟨bytes, hslice, htext⟩ := Outcome.bind_eq_ok_iff.mp h
  obtain ⟨hle, hlength, -⟩ := Outcome.slice_eq_ok_iff.mp hslice
  obtain ⟨-, hstop⟩ := Prod.mk.inj (Outcome.ok.inj htext)
  have hnul : pos + ((buf.drop pos).takeWhile (· ≠ 0)).length < buf.length := by
    by_contra hend
    rw [if_neg hend] at hstop
    omega
  have hdrop : (buf ++ tail).drop pos = buf.drop pos ++ tail :=
    List.drop_append_of_le_length (by omega)
  have htake : ((buf ++ tail).drop pos).takeWhile (· ≠ 0) = (buf.drop pos).takeWhile (· ≠ 0) := by
    rw [hdrop, List.takeWhile_append, if_neg]
    rw [List.length_drop]
    omega
  have hlength : (buf ++ tail).length = buf.length + tail.length := List.length_append
  rw [htake]
  dsimp only
  rw [Outcome.slice_append hslice, Outcome.ok_bind, if_pos (by omega), ← htext,
    if_pos hnul]

theorem readInt_eq_ok {width pos p : ℕ} {n : ℤ}
    (h : (readInt width buf pos : Outcome ε (ℤ × ℕ)) = .ok (n, p)) :
    p = pos + width ∧ p ≤ buf.length := by
  unfold readInt at h
  obtain ⟨bytes, hslice, hpair⟩ := Outcome.bind_eq_ok_iff.mp h
  obtain ⟨-, hlength, -⟩ := Outcome.slice_eq_ok_iff.mp hslice
  obtain ⟨-, rfl⟩ := Prod.mk.inj (Outcome.ok.inj hpair)
  exact ⟨rfl, hlength⟩

theorem readInt_append {width pos p : ℕ} {n : ℤ}
    (h : (readInt width buf pos : Outcome ε (ℤ × ℕ)) = .ok (n, p)) :
    (readInt width (buf ++ tail) pos : Outcome ε (ℤ × ℕ)) = .ok (n, p) := by
  unfold readInt at h ⊢
  obtain ⟨bytes, hslice, hpair⟩ := Outcome.bind_eq_ok_iff.mp h
  rw [Outcome.slice_append hslice]
  exact hpair

theorem readFormats_append {n p q : ℕ} {fmts : List ℤ}
    (h : (readFormats buf n p : Outcome ε (List ℤ × ℕ)) = .ok (fmts, q)) :
    (readFormats (buf ++ tail) n p : Outcome ε (List ℤ × ℕ)) = .ok (fmts, q) := by
  induction n generalizing p q fmts with
  | zero => exact h
  | succ n ih =>
    unfold readFormats at h ⊢
    obtain ⟨⟨fmt, p'⟩, hfmt, hrest⟩ := Outcome.bind_eq_ok_iff.mp h
    obtain ⟨⟨fmts', q'⟩, hfmts, hpair⟩ := Outcome.bind_eq_ok_iff.mp hrest
    have hfmt' : readInt (ε := ε) 2 (buf ++ tail) p = .ok (fmt, p') := readInt_append hfmt
    rw [readI16, hfmt', Outcome.ok_bind]
    dsimp only
    rw [ih hfmts]
    exact hpair

theorem readParams_append {n p q : ℕ} {params : List (Option Bytes)}
    (h : (readParams buf n p : Outcome ε (List (Option Bytes) × ℕ)) = .ok (params, q)) :
    (readParams (buf ++ tail) n p : Outcome ε (List (Option Bytes) × ℕ)) = .ok (params, q) := by
  induction n generalizing p q params with
  | zero => exact h
  | succ n ih =>
    unfold readParams at h ⊢
    obtain ⟨⟨len, p'⟩, hlen, hrest⟩ := Outcome.bind_eq_ok_iff.mp h
    have hlen' : readInt (ε := ε) 4 (buf ++ tail) p = .ok (len, p') := readInt_append hlen
    rw [readI32, hlen', Outcome.ok_bind]
    dsimp only at hrest ⊢
    split_ifs at hrest ⊢ with hnull
    · obtain ⟨⟨params', q'⟩, hparams, hpair⟩ := Outcome.bind_eq_ok_iff.mp hrest
      rw [ih hparams]
      exact hpair
    · obtain ⟨stop, hstop, hrest⟩ := Outcome.bind_eq_ok_iff.mp hrest
      obtain ⟨value, hvalue, hrest⟩ := Outcome.bind_eq_ok_iff.mp hrest
      obtain ⟨⟨params', q'⟩, hparams, hpair⟩ := Outcome.bind_eq_ok_iff.mp hrest
      rw [hstop, Outcome.ok_bind, Outcome.slice_append hvalue, Outcome.ok_bind, ih hparams]
      exact hpair

/-- A Bind says what it says whatever follows its parameters. -/
theorem parseBind_append {m : BindMsg} (h : (parseBind buf : Outcome ε _) = .ok (some m)) :
    (parseBind (buf ++ tail) : Outcome ε _) = .ok (some m) := by
  unfold parseBind at h ⊢
  obtain ⟨⟨portal, p₁⟩, hportal, h⟩ := Outcome.bind_eq_ok_iff.mp h
  obtain ⟨⟨stmt, p₂⟩, hstmt, h⟩ := Outcome.bind_eq_ok_iff.mp h
  obtain ⟨⟨nfmt, p₃⟩, hnfmt, h⟩ := Outcome.bind_eq_ok_iff.mp h
  obtain ⟨⟨fmts, p₄⟩, hfmts, h⟩ := Outcome.bind_eq_ok_iff.mp h
  obtain ⟨⟨nparams, p₅⟩, hnparams, h⟩ := Outcome.bind_eq_ok_iff.mp h
  obtain ⟨⟨params, p₆⟩, hparams, h⟩ := Outcome.bind_eq_ok_iff.mp h
  have hstmt_le : p₁ ≤ p₂ := (readCstr_eq_ok hstmt).1
  obtain ⟨hp₃, hend⟩ := readInt_eq_ok hnfmt
  have hlt : p₂ < buf.length := by omega
  rw [readCstr_append hportal (by omega), Outcome.ok_bind]
  dsimp only
  rw [readCstr_append hstmt hlt, Outcome.ok_bind]
  dsimp only
  rw [readI16, readInt_append hnfmt, Outcome.ok_bind]
  dsimp only
  rw [readFormats_append hfmts, Outcome.ok_bind]
  dsimp only
  rw [readI16, readInt_append hnparams, Outcome.ok_bind]
  dsimp only
  rw [readParams_append hparams, Outcome.ok_bind]
  exact h

theorem queryText_append (h : 0 ∈ buf) : queryText (buf ++ tail) = queryText buf := by
  have hnul : (buf.takeWhile (· ≠ 0)).length ≠ buf.length := by
    intro hlength
    have hall := List.takeWhile_eq_self_iff.mp
      ((List.takeWhile_prefix (· ≠ 0)).eq_of_length hlength) 0 h
    simp at hall
  unfold queryText
  rw [List.takeWhile_append, if_neg hnul]

end

/-- A Bind is handled the same whatever follows its parameters. -/
theorem onBind_append (ctx : SessionCtx) (st : PgState) {body : Bytes} (tail : Bytes)
    {m : BindMsg} (h : parseBind (ε := EngineError) body = .ok (some m)) :
    onBind ctx st (body ++ tail) = onBind ctx st body := by
  unfold onBind
  rw [h, parseBind_append h]

/-- An Execute is handled the same whatever follows the name of its portal. -/
theorem onExecute_append (ctx : SessionCtx) (st : PgState) {body : Bytes} (tail : Bytes)
    (h : 0 ∈ body) : onExecute ctx st (body ++ tail) = onExecute ctx st body := by
  rw [onExecute_eq, onExecute_eq, queryText_append h]

/-! ## What was asked for -/

/-- The result formats at the end of a Bind. -/
def resultFormats (body : Bytes) : List ℤ :=
  let read : Outcome EngineError (List ℤ) := do
    let (_, p) ← readCstr body 0
    let (_, p) ← readCstr body p
    let (nfmt, p) ← readI16 body p
    let (_, p) ← readFormats body nfmt.toNat p
    let (nparams, p) ← readI16 body p
    let (_, p) ← readParams body nparams.toNat p
    let (ncodes, p) ← readI16 body p
    let (codes, _) ← readFormats body ncodes.toNat p
    return codes
  match read with
  | .ok codes => codes
  | _ => []

/-- The row limit at the end of an Execute; there is none at zero. -/
def rowLimit (body : Bytes) : ℤ :=
  let read : Outcome EngineError ℤ := do
    let (_, p) ← readCstr body 0
    let (n, _) ← readI32 body p
    return n
  match read with
  | .ok n => n
  | _ => 0

/-- Text for all columns, one format for all, or one for each. -/
def formatOf (codes : List ℤ) (i : ℕ) : ℤ :=
  match codes with
  | [] => 0
  | [code] => code
  | codes => codes[i]?.getD 0

/-- A row in the formats asked for; `binary` gives the binary form of a text of column `i`. -/
def encodeRow (binary : ℕ → Bytes → Bytes) (codes : List ℤ) (row : List (Option Bytes)) :
    List (Option Bytes) :=
  row.mapIdx fun i cell => cell.map fun text =>
    if formatOf codes i = 1 then binary i text else text

def FormatsHonoured (binary : ℕ → Bytes → Bytes) (codes : List ℤ)
    (rows : List (List (Option Bytes))) (t : List SessionEvent) : Prop :=
  ∀ bytes ∈ written t, bytes.head? = some 0x44 →
    ∃ row ∈ rows, (dataRow (encodeRow binary codes row) : Frame) = .ok bytes

def LimitHonoured (limit : ℤ) (t : List SessionEvent) : Prop :=
  0 < limit → ((sentTags t).count (some 0x44) : ℤ) ≤ limit

/-- One message of the history: the formats that a completed Bind asked for its portal. -/
def requests (requested : Table (List ℤ)) (turn : PgTurn) : Table (List ℤ) :=
  match boundBy turn with
  | some b => requested.insert b.portal (resultFormats turn.msg.2)
  | none => requested

def requestedBy (ts : List PgTurn) : Table (List ℤ) := ts.foldl requests ∅

/-- The rows of a backend's answer, as it sent them: text. -/
def rowsOf (msgs : List SimpleQueryMessage) : List (List (Option Bytes)) :=
  msgs.filterMap fun
    | .row _ cells => some cells
    | _ => none

/-! ## What is sent -/

theorem collect_rows (msgs : List SimpleQueryMessage) (cols : List String)
    (rows : List (List (Option Bytes))) (affected : UInt64) :
    (collect msgs cols rows affected).2.1 = rows ++ rowsOf msgs := by
  induction msgs generalizing cols rows affected with
  | nil => exact (List.append_nil rows).symm
  | cons msg msgs ih =>
    cases msg with
    | row columns cells =>
      rw [collect, ih, List.append_assoc]
      rfl
    | commandComplete n => exact ih cols rows n
    | other => exact ih cols rows affected

theorem resultSet_rows (sql : String) (msgs : List SimpleQueryMessage) :
    (resultSet sql msgs).rows = rowsOf msgs :=
  collect_rows msgs [] [] 0

section
variable {st : PgState} {m : UInt8 × Bytes} {t : List SessionEvent}
  {rows : List (List (Option Bytes))} {tag : String}

theorem formatsHonoured_of_text {binary : ℕ → Bytes → Bytes} {codes : List ℤ}
    (hcodes : ∀ i, formatOf codes i ≠ 1)
    (h : Replied (rows.map dataRow ++ [commandComplete tag]) t) :
    FormatsHonoured binary codes rows t := by
  intro bytes hbytes hhead
  have hframe : (.ok bytes : Frame) ∈ rows.map dataRow ++ [commandComplete tag] := by
    rw [← h]
    exact List.mem_map_of_mem hbytes
  rcases List.mem_append.mp hframe with hrow | htag
  · obtain ⟨row, hrow, hdata⟩ := List.mem_map.mp hrow
    have hencode : encodeRow binary codes row = row := by
      apply List.ext_getElem (by simp [encodeRow])
      intro i _ _
      simp [encodeRow, hcodes]
    exact ⟨row, hrow, by rw [hencode, hdata]⟩
  · have hcomplete := msg_head (List.mem_singleton.mp htag).symm
    rw [hhead] at hcomplete
    exact absurd hcomplete (by decide)

theorem sentTags_rows (h : Replied (rows.map dataRow ++ [commandComplete tag]) t) :
    (sentTags t).count (some 0x44) = rows.length := by
  have hdata : (rows.map dataRow).map frameTag = List.replicate rows.length (some 0x44) := by
    apply List.eq_replicate_iff.mpr ⟨by simp, ?_⟩
    intro b hb
    obtain ⟨f, hf, rfl⟩ := List.mem_map.mp hb
    have hframed : Framed f := h.framed (List.mem_append_left _ hf)
    obtain ⟨row, -, rfl⟩ := List.mem_map.mp hf
    exact frameTag_msg hframed
  have hcomplete : frameTag (commandComplete tag) ≠ some 0x44 := frameTag_msg_ne (by decide)
  rw [h.sentTags_eq, List.map_append, hdata, List.map_singleton, List.count_append,
    List.count_replicate_self, List.count_singleton]
  simp [hcomplete]

end

/-- The portal that an Execute runs, unless it is skipped. -/
def executedPortal (turn : PgTurn) : Option (String × Portal) :=
  if turn.msg.1 = 0x45 ∧ turn.state.skipUntilSync = false then
    (turn.state.portals[queryText turn.msg.2]?).map fun po => (queryText turn.msg.2, po)
  else none

theorem run_requested {ctx : SessionCtx} {ts : List PgTurn} {st : PgState} {s s' : Unit}
    (h : (serve ctx).Run (pgSem ctx) {} s ts st s') {name : String} {po : Portal}
    (hpo : st.portals[name]? = some po) : ∃ codes, (requestedBy ts)[name]? = some codes := by
  have hstep (requested : Table (List ℤ)) (st : PgState) (m : UInt8 × Bytes) (s : Unit)
      (t : List SessionEvent) (st' : PgState) (s' : Unit)
      (hall : ∀ (name : String) (po : Portal), st.portals[name]? = some po →
        ∃ codes, requested[name]? = some codes)
      (hexec : Exec (pgSem ctx) ((serve ctx).handle st m) s t (.ok (some st')) s') :
      ∀ (name : String) (po : Portal), st'.portals[name]? = some po →
        ∃ codes, (requests requested ⟨st, m, t⟩)[name]? = some codes := by
    intro name po hpo
    have hstep : PgStep ctx st t m (some st') := (pgHandle_step ctx st m.2 s m.1).exec hexec
    unfold requests
    obtain ⟨hnone, hportals⟩ | ⟨b, prep, rendered, inlined, hbound, -, -, -, rfl⟩ := hstep.portals
    · rw [hnone]
      exact hall name po (hportals name po hpo)
    · rw [hbound]
      dsimp only
      rw [Std.ExtTreeMap.getElem?_insert] at hpo ⊢
      split_ifs at hpo ⊢ with hname
      · exact ⟨_, rfl⟩
      · exact hall name po hpo
  have hempty : ∀ (name : String) (po : Portal), ({} : PgState).portals[name]? = some po →
      ∃ codes, (∅ : Table (List ℤ))[name]? = some codes := by
    simp
  exact h.record hstep hempty name po hpo

/-- The answer to an Execute, after the Bind with the formats `codes`: one ErrorResponse, or
all the rows of the backend as text. -/
def AnsweredInText (codes : List ℤ) (turn : PgTurn) (po : Portal) : Prop :=
  (∃ sqlstate message, Replied [errorResponse sqlstate message] turn.trace) ∨
    ∃ conn msgs tag, ⟨.simpleQuery conn po.sql, .ok msgs⟩ ∈ turn.trace ∧
      Replied ((rowsOf msgs).map dataRow ++ [commandComplete tag]) turn.trace ∧
      (∀ binary, (∀ i, formatOf codes i ≠ 1) →
        FormatsHonoured binary codes (rowsOf msgs) turn.trace) ∧
      (LimitHonoured (rowLimit turn.msg.2) turn.trace ↔
        (0 < rowLimit turn.msg.2 → ((rowsOf msgs).length : ℤ) ≤ rowLimit turn.msg.2))

theorem executedPortal_eq_some {turn : PgTurn} {name : String} {po : Portal}
    (h : executedPortal turn = some (name, po)) : turn.msg.1 = 0x45 ∧
      turn.state.skipUntilSync = false ∧ turn.state.portals[name]? = some po ∧
      name = queryText turn.msg.2 := by
  unfold executedPortal at h
  split_ifs at h with htag
  obtain ⟨po', hpo, hpair⟩ := Option.map_eq_some_iff.mp h
  obtain ⟨rfl, rfl⟩ := Prod.mk.inj hpair
  exact ⟨htag.1, htag.2, hpo, rfl⟩

theorem PgStep.answeredInText {ctx : SessionCtx} {turn : PgTurn} {next : Option PgState}
    {name : String} {po : Portal} (h : PgStep ctx turn.state turn.trace turn.msg next)
    (codes : List ℤ) (hpo : executedPortal turn = some (name, po)) :
    AnsweredInText codes turn po := by
  obtain ⟨st, ⟨tag, body⟩, t⟩ := turn
  obtain ⟨htag, hskip, hportal, rfl⟩ := executedPortal_eq_some hpo
  obtain rfl : tag = 0x45 := htag
  cases h with
  | skip hskip' =>
    rw [hskip'] at hskip
    cases hskip
  | refuse _ _ hreplied => exact Or.inl ⟨_, _, hreplied⟩
  | execute _ hportal' hran =>
    rw [hportal] at hportal'
    obtain rfl := Option.some.inj hportal'
    obtain ⟨conn, msgs, hmem, hreplied⟩ := hran
    rw [rowsOnlyFrames, resultSet_rows] at hreplied
    refine Or.inr ⟨conn, msgs, _, hmem, hreplied, fun binary hcodes => ?_, ?_⟩
    · exact formatsHonoured_of_text hcodes hreplied
    · unfold LimitHonoured
      rw [sentTags_rows hreplied]
  | unsupported hmem => exact absurd (by decide) hmem

def bindPrefix : Bytes := [0x70, 0, 0x73, 0, 0, 0, 0, 0]

/-- One result format for all columns: binary. -/
def binaryBindMsg : UInt8 × Bytes := (0x42, bindPrefix ++ [0, 1, 0, 1])

def limitedExecuteMsg : UInt8 × Bytes := (0x45, [0x70, 0, 0, 0, 0, 1])

def twoRows : List SimpleQueryMessage :=
  [.row ["id"] [some [0x31]], .row ["id"] [some [0x32]], .commandComplete 2]

/-- The binary form of an `int4`. -/
def int4Binary (_ : ℕ) (text : Bytes) : Bytes :=
  be 4 (text.foldl (fun n b => n * 10 + ((b.toNat : ℤ) - 48)) 0)

theorem catalogSem_mono {ctx : SessionCtx} {columns : String → List (String × ℤ)} (s : Unit)
    (o : SessionOp) (r : o.Res) (s' : Unit) (h : catalogSem ctx columns s o r s') :
    pgSem ctx s o r s' :=
  h.1

theorem binaryBindMsg_handled : ∃ t, Replied [bindComplete] t ∧ Exec (pgSem tableCtx)
    ((serve tableCtx).handle parsedState binaryBindMsg) () t (.ok (some boundState)) () := by
  obtain ⟨t, hreplied, ht⟩ := bindMsg_handled
  have hparse : parseBind (ε := EngineError) bindPrefix = .ok (some ⟨"p", "s", [], []⟩) := by
    rfl
  have hbind : (serve tableCtx).handle parsedState bindMsg =
      onBind tableCtx parsedState bindPrefix := onBind_append tableCtx parsedState [0, 0] hparse
  have hbinary : (serve tableCtx).handle parsedState binaryBindMsg =
      onBind tableCtx parsedState bindPrefix := onBind_append tableCtx parsedState _ hparse
  rw [hbind] at ht
  rw [hbinary]
  exact ⟨t, hreplied, ht.mono catalogSem_mono⟩

theorem twoRows_tag : (resultSet tableText twoRows).tag = "SELECT 2" := by decide

/-- The frames of the answer. -/
def twoFrames : List Frame := (rowsOf twoRows).map dataRow ++ [commandComplete "SELECT 2"]

theorem twoFrames_eq : rowsOnlyFrames (resultSet tableText twoRows) = twoFrames := by
  rw [rowsOnlyFrames, resultSet_rows, twoRows_tag, twoFrames]

theorem twoFrames_framed : ∀ f ∈ twoFrames, Framed f := by
  intro f hf
  simp only [twoFrames, twoRows, rowsOf, List.filterMap_cons, List.filterMap_nil, List.map_cons,
    List.map_nil, List.cons_append, List.nil_append, List.mem_cons, List.not_mem_nil,
    or_false] at hf
  rcases hf with rfl | rfl | rfl
  · exact framed_msg (by decide)
  · exact framed_msg (by decide)
  · exact framed_msg (by decide)

theorem pgSem_write (ctx : SessionCtx) (bytes : Bytes) : pgSem ctx () (.write bytes) (.ok ()) () :=
  trivial

theorem limitedExecute_handled : ∃ t, ⟨.simpleQuery 0 tableText, .ok twoRows⟩ ∈ t ∧
    Replied twoFrames t ∧ Exec (pgSem tableCtx) ((serve tableCtx).handle boundState limitedExecuteMsg) () t
      (.ok (some boundState)) () := by
  obtain ⟨t, ht⟩ := writeFrames_exec (pgSem_write tableCtx) twoFrames_framed
  have hwritten : Replied twoFrames t := (writeFrames_replied _ ()).exec ht
  obtain ⟨t₁, hmem, hreplied, hrun⟩ : ∃ t₁, ⟨.simpleQuery 0 tableText, .ok twoRows⟩ ∈ t₁ ∧
      Replied twoFrames t₁ ∧
      Exec (pgSem tableCtx) (runOn tableCtx writeRowsOnly tableText 0) () t₁ (.ok true) () := by
    refine ⟨⟨.simpleQuery 0 tableText, .ok twoRows⟩ :: (t ++ [⟨.emit (tableCtx.event tableText
      .allow none (some (UInt64.ofNat (resultSet tableText twoRows).rows.length))), ()⟩]),
      List.mem_cons_self .., (hwritten.concat (by nofun)).cons (by nofun), .step trivial ?_⟩
    dsimp only
    rw [writeRowsOnly_eq, twoFrames_eq]
    exact ht.bind (.step trivial (.halt _ _))
  have hput : pgSem tableCtx () (.poolPut 0) () () := trivial
  have hexec : Exec (pgSem tableCtx) (execRowsOnly tableCtx tableText) ()
      (⟨.evaluate tableText, .allow⟩ :: ⟨.poolGet, .ok 0⟩ :: (t₁ ++ [⟨.poolPut 0, ()⟩]))
      (.ok true) () := by
    rw [execRowsOnly, firewalled_eq]
    exact .step tableText_allowed.symm (.step trivial (hrun.finally hput))
  have hhandle : (serve tableCtx).handle boundState limitedExecuteMsg =
      onExecute tableCtx boundState limitedExecuteMsg.2 := by
    rw [serve_handle]
    rfl
  have hname : queryText limitedExecuteMsg.2 = "p" := by decide
  have hskip : boundState.skipUntilSync = false := rfl
  rw [hhandle, onExecute_eq, hskip, if_neg (by decide), hname, boundState_portal]
  refine ⟨_, ?_, ?_, hexec.bind (.halt _ _)⟩
  · simp [hmem]
  · rw [List.append_nil]
    exact ((hreplied.concat (by nofun)).cons (by nofun)).cons (by nofun)

theorem options_run : ∃ ts t, (requestedBy ts)["p"]? = some [1] ∧
    ⟨.simpleQuery 0 tableText, .ok twoRows⟩ ∈ t ∧ Replied twoFrames t ∧
    (serve tableCtx).HandledAfter (pgSem tableCtx) {} () ts ⟨boundState, limitedExecuteMsg, t⟩
      (.ok (some boundState)) := by
  obtain ⟨t₁, hparse⟩ := parseMsg_handled
  obtain ⟨t₂, hreplied, hbind⟩ := binaryBindMsg_handled
  obtain ⟨t₃, hmem, hframes, hexecute⟩ := limitedExecute_handled
  obtain ⟨_, hread⟩ := pgRead_exec (pgSem_recv tableCtx) [0, 0, 0, 16] parseMsg rfl (by decide)
    (by decide)
  obtain ⟨_, hread'⟩ := pgRead_exec (pgSem_recv tableCtx) [0, 0, 0, 16] binaryBindMsg rfl
    (by decide) (by decide)
  obtain ⟨_, hread''⟩ := pgRead_exec (pgSem_recv tableCtx) [0, 0, 0, 10] limitedExecuteMsg rfl
    (by decide) (by decide)
  refine ⟨_, t₃, ?_, hmem, hframes, (), (), (), _, .turn hread (hparse.mono catalogSem_mono)
    (.turn hread' hbind (.nil _ _)), hread'', hexecute⟩
  have hparsed : boundBy ⟨{}, parseMsg, t₁⟩ = none := boundBy_of_tag_ne (by decide)
  have hbound : boundBy ⟨parsedState, binaryBindMsg, t₂⟩ = some ⟨"p", "s", [], []⟩ := by
    have hprefix : parseBind (ε := EngineError) bindPrefix = .ok (some ⟨"p", "s", [], []⟩) := by
      rfl
    unfold boundBy
    rw [if_pos ⟨rfl, hreplied.sentTags_msg⟩]
    dsimp only [binaryBindMsg]
    rw [parseBind_append hprefix]
  have hcodes : resultFormats binaryBindMsg.2 = [1] := by rfl
  unfold requestedBy
  rw [List.foldl_cons, List.foldl_cons, List.foldl_nil, requests, requests, hparsed, hbound]
  dsimp only
  rw [hcodes, Std.ExtTreeMap.getElem?_insert_self]

theorem limitedExecute_portal (t : List SessionEvent) :
    executedPortal ⟨boundState, limitedExecuteMsg, t⟩ = some ("p", ⟨"s", tableText⟩) := by
  have hname : queryText limitedExecuteMsg.2 = "p" := by decide
  unfold executedPortal
  rw [if_pos ⟨rfl, rfl⟩]
  dsimp only
  rw [hname, boundState_portal]
  rfl

end MiddleWhere.Net
