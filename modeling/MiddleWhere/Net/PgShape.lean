import MiddleWhere.Net.PgAudit
import MiddleWhere.Net.PgOptions

/-!
# The shape of a simple query's results

The backend answers each statement of a simple query with a description of its columns, its
rows and its completion. The session rebuilds one result from the rows of all of them.
-/

namespace MiddleWhere.Net
open Prog Firewall

/-! ## What the backend answers -/

/-- What one statement answers: a result set, whose rows are as wide as its columns, or only
its completion. -/
inductive PgResult
  | complete (affected : UInt64)
  | set (columns : List String) (rows : List (List (Option Bytes))) (affected : UInt64)
      (widths : ∀ row ∈ rows, row.length = columns.length)

def PgResult.described : PgResult → Bool
  | .complete _ => false
  | .set _ _ _ _ => true

def PgResult.rows : PgResult → List (List (Option Bytes))
  | .complete _ => []
  | .set _ rows _ _ => rows

/-- The description comes before the rows; it is one of the messages that are passed over. -/
def PgResult.messages : PgResult → List SimpleQueryMessage
  | .complete n => [.commandComplete n]
  | .set columns rows n _ => .other :: (rows.map (.row columns) ++ [.commandComplete n])

def answerOf (results : List PgResult) : List SimpleQueryMessage :=
  results.flatMap PgResult.messages

/-! ## What the client reads -/

/-- The number of fields of a RowDescription, or of cells of a DataRow. -/
def fieldCount (frame : Bytes) : ℕ := fromBe ((frame.drop 5).take 2)

/-- A frame that is neither a RowDescription nor a DataRow. -/
def Plain (frame : Bytes) : Prop := frame.head? ≠ some 0x54 ∧ frame.head? ≠ some 0x44

/-- Each result set has a RowDescription of its own, which comes before its DataRows, and each
of these has as many cells. -/
inductive Shaped : List PgResult → List Bytes → Prop
  | nil : Shaped [] []
  | plain {results : List PgResult} {frame : Bytes} {frames : List Bytes} :
      Plain frame → Shaped results frames → Shaped results (frame :: frames)
  | complete {results : List PgResult} {result : PgResult} {frames : List Bytes} :
      result.described = false → Shaped results frames → Shaped (result :: results) frames
  | described {results : List PgResult} {result : PgResult}
      {description : Bytes} {dataRows frames : List Bytes} : result.described = true →
      description.head? = some 0x54 →
      (∀ row ∈ dataRows, row.head? = some 0x44 ∧ fieldCount row = fieldCount description) →
      Shaped results frames →
      Shaped (result :: results) (description :: (dataRows ++ frames))

theorem Shaped.count {results : List PgResult} {frames : List Bytes}
    (h : Shaped results frames) :
    (frames.map List.head?).count (some 0x54) = (results.filter PgResult.described).length := by
  induction h with
  | nil => rfl
  | plain hplain _ ih =>
    rw [List.map_cons, List.count_cons_of_ne hplain.1, ih]
  | complete hresult _ ih =>
    rw [ih, List.filter_cons_of_neg (by simp [hresult])]
  | @described results result description dataRows frames hresult hhead hrows _ ih =>
    have hnone : (dataRows.map List.head?).count (some 0x54) = 0 := by
      refine List.count_eq_zero.mpr fun hmem => ?_
      obtain ⟨row, hrow, hrowHead⟩ := List.mem_map.mp hmem
      rw [(hrows row hrow).1] at hrowHead
      exact absurd hrowHead (by decide)
    rw [List.map_cons, hhead, List.count_cons_self, List.map_append, List.count_append, hnone,
      Nat.zero_add, ih, List.filter_cons_of_pos hresult, List.length_cons]

theorem shaped_complete {results : List PgResult} {frames : List Bytes}
    (hresults : ∀ result ∈ results, result.described = false)
    (hframes : ∀ frame ∈ frames, Plain frame) : Shaped results frames := by
  induction results with
  | nil =>
    induction frames with
    | nil => exact .nil
    | cons frame frames ih =>
      obtain ⟨hframe, hrest⟩ := List.forall_mem_cons.mp hframes
      exact .plain hframe (ih hrest)
  | cons result results ih =>
    obtain ⟨hresult, hrest⟩ := List.forall_mem_cons.mp hresults
    exact .complete hresult (ih hrest)

/-- One result set among statements without. -/
theorem shaped_single {results : List PgResult} {result : PgResult}
    {description : Bytes} {dataRows frames : List Bytes}
    (hsingle : results.filter PgResult.described = [result])
    (hhead : description.head? = some 0x54)
    (hrows : ∀ row ∈ dataRows, row.head? = some 0x44 ∧ fieldCount row = fieldCount description)
    (hframes : ∀ frame ∈ frames, Plain frame) :
    Shaped results (description :: (dataRows ++ frames)) := by
  induction results with
  | nil => cases hsingle
  | cons first results ih =>
    cases hfirst : first.described with
    | false =>
      rw [List.filter_cons_of_neg (by simp [hfirst])] at hsingle
      exact .complete hfirst (ih hsingle)
    | true =>
      rw [List.filter_cons_of_pos hfirst] at hsingle
      have hrest : results.filter PgResult.described = [] := (List.cons.inj hsingle).2
      refine .described hfirst hhead hrows (shaped_complete (fun r hr => ?_) hframes)
      simpa using List.filter_eq_nil_iff.mp hrest r hr

/-! ## The result that is rebuilt -/

theorem collect_cols (msgs : List SimpleQueryMessage) (cols : List String)
    (rows : List (List (Option Bytes))) (affected : UInt64) :
    (collect msgs cols rows affected).1 = cols ∨ ∃ columns cells, .row columns cells ∈ msgs ∧
      (collect msgs cols rows affected).1 = columns := by
  induction msgs generalizing cols rows affected with
  | nil => exact Or.inl rfl
  | cons msg msgs ih =>
    cases msg with
    | row columns cells =>
      rw [collect]
      obtain hsame | ⟨columns', cells', hmem, heq⟩ :=
        ih (if cols.isEmpty then columns else cols) (rows ++ [cells]) affected
      · rw [hsame]
        split_ifs with hcols
        · exact Or.inr ⟨columns, cells, List.mem_cons_self, rfl⟩
        · exact Or.inl rfl
      · exact Or.inr ⟨columns', cells', List.mem_cons_of_mem _ hmem, heq⟩
    | commandComplete n =>
      obtain hsame | ⟨columns, cells, hmem, heq⟩ := ih cols rows n
      · exact Or.inl hsame
      · exact Or.inr ⟨columns, cells, List.mem_cons_of_mem _ hmem, heq⟩
    | other =>
      obtain hsame | ⟨columns, cells, hmem, heq⟩ := ih cols rows affected
      · exact Or.inl hsame
      · exact Or.inr ⟨columns, cells, List.mem_cons_of_mem _ hmem, heq⟩

theorem collect_cols_nil {msgs : List SimpleQueryMessage} {cols : List String}
    {rows : List (List (Option Bytes))} {affected : UInt64}
    (h : (collect msgs cols rows affected).1 = []) :
    cols = [] ∧ ∀ columns cells, .row columns cells ∈ msgs → columns = [] := by
  induction msgs generalizing cols rows affected with
  | nil => exact ⟨h, nofun⟩
  | cons msg msgs ih =>
    cases msg with
    | row columns cells =>
      obtain ⟨hcols, hrest⟩ := ih h
      split_ifs at hcols with hempty
      · refine ⟨List.isEmpty_iff.mp hempty, fun columns' cells' hmem => ?_⟩
        rcases List.mem_cons.mp hmem with heq | hmem
        · obtain ⟨rfl, -⟩ := SimpleQueryMessage.row.inj heq
          exact hcols
        · exact hrest columns' cells' hmem
      · exact absurd (List.isEmpty_iff.mpr hcols) hempty
    | commandComplete n =>
      obtain ⟨hcols, hrest⟩ := ih h
      exact ⟨hcols, fun columns cells hmem => hrest columns cells (by simpa using hmem)⟩
    | other =>
      obtain ⟨hcols, hrest⟩ := ih h
      exact ⟨hcols, fun columns cells hmem => hrest columns cells (by simpa using hmem)⟩

theorem row_mem_answerOf {results : List PgResult} {columns : List String}
    {cells : List (Option Bytes)} : .row columns cells ∈ answerOf results ↔
      ∃ rows n widths, .set columns rows n widths ∈ results ∧ cells ∈ rows := by
  unfold answerOf
  rw [List.mem_flatMap]
  constructor
  · rintro ⟨result, hresult, hmem⟩
    cases result with
    | complete n => simp [PgResult.messages] at hmem
    | set columns' rows n widths =>
      have hrow : cells ∈ rows ∧ columns' = columns := by
        simpa [PgResult.messages] using hmem
      obtain ⟨hcells, rfl⟩ := hrow
      exact ⟨rows, n, widths, hresult, hcells⟩
  · rintro ⟨rows, n, widths, hresult, hcells⟩
    exact ⟨_, hresult, by simp [PgResult.messages, hcells]⟩

theorem rowsOf_answerOf (results : List PgResult) :
    rowsOf (answerOf results) = results.flatMap PgResult.rows := by
  have hone (result : PgResult) : rowsOf result.messages = result.rows := by
    cases result with
    | complete n => rfl
    | set columns rows n widths =>
      simp [PgResult.messages, PgResult.rows, rowsOf, List.filterMap_append,
        List.filterMap_map]
  unfold answerOf rowsOf
  rw [List.filterMap_flatMap]
  exact List.flatMap_congr fun result _ => hone result

/-! ## The frames that are written -/

/-- No result set, or one that has columns and rows. -/
def Relayable (results : List PgResult) : Prop :=
  results.filter PgResult.described = [] ∨ ∃ columns rows n widths,
    results.filter PgResult.described = [.set columns rows n widths] ∧
      columns ≠ [] ∧ rows ≠ []

/-- All that a simple query is answered with. -/
def answerFrames (rs : ResultSet) : List Frame := resultSetFrames rs ++ [readyForQuery]

theorem fieldCount_msg {tag : Char} {n : ℤ} {fields frame : Bytes}
    (h : (msg tag (be 2 n ++ fields) : Frame) = .ok frame) : fieldCount frame = fromBe (be 2 n) := by
  rw [fieldCount, msg_payload h, List.take_left' (be_length 2 n)]

theorem plain_msg {tag : Char} {payload frame : Bytes} (htag : tagByte tag ≠ 0x54)
    (htag' : tagByte tag ≠ 0x44) (h : (.ok frame : Frame) = msg tag payload) : Plain frame := by
  rw [Plain, msg_head h.symm]
  exact ⟨fun heq => htag (Option.some.inj heq), fun heq => htag' (Option.some.inj heq)⟩

section
variable {t : List SessionEvent} {rs : ResultSet} {results : List PgResult}

theorem descriptions_sent (h : Replied (answerFrames rs) t) :
    ((written t).map List.head?).count (some 0x54) = if rs.cols.isEmpty then 0 else 1 := by
  have hsent : (written t).map List.head? = (answerFrames rs).map frameTag := h.sentTags_eq
  have hrows : ((rs.rows.map dataRow).map frameTag).count (some 0x54) = 0 := by
    refine List.count_eq_zero.mpr fun hmem => ?_
    rw [List.map_map] at hmem
    obtain ⟨row, -, hrow⟩ := List.mem_map.mp hmem
    exact frameTag_msg_ne (by decide) hrow
  have hother {tag : Char} {payload : Bytes} (htag : tagByte tag ≠ 0x54) (rest) :
      (frameTag (msg tag payload) :: rest).count (some 0x54) = rest.count (some 0x54) :=
    List.count_cons_of_ne (frameTag_msg_ne htag)
  have hend : ([commandComplete rs.tag, readyForQuery].map frameTag).count (some 0x54) = 0 := by
    rw [List.map_cons, List.map_cons, List.map_nil, commandComplete, readyForQuery,
      hother (by decide), hother (by decide)]
    rfl
  rw [hsent, answerFrames, resultSetFrames, List.append_assoc, List.map_append, List.count_append]
  rw [List.singleton_append, hend, Nat.add_zero]
  split_ifs with hcols
  · rw [List.map_singleton, noData, hother (by decide)]
    rfl
  · have hframed : Framed (rowDescription (rs.cols.map fun n => (n, 25))) := by
      refine h.framed ?_
      simp [answerFrames, resultSetFrames, hcols]
    rw [List.map_cons, rowDescription, frameTag_msg hframed, tagByte, List.count_cons, hrows]
    rfl

/-- Without columns nothing of a result set is written. -/
theorem shaped_noData (h : Replied (answerFrames rs) t) (hcols : rs.cols = [])
    (hresults : ∀ result ∈ results, result.described = false) : Shaped results (written t) := by
  refine shaped_complete hresults fun frame hframe => ?_
  have hmem : (.ok frame : Frame) ∈ answerFrames rs := by
    rw [← h]
    exact List.mem_map_of_mem hframe
  simp only [answerFrames, resultSetFrames, hcols, List.isEmpty_nil, if_true, List.mem_append,
    List.mem_singleton] at hmem
  rcases hmem with (hnoData | hcomplete) | hready
  · exact plain_msg (by decide) (by decide) hnoData
  · exact plain_msg (by decide) (by decide) hcomplete
  · exact plain_msg (by decide) (by decide) hready

/-- One result set is written behind its description. -/
theorem shaped_described (h : Replied (answerFrames rs) t) (hcols : rs.cols ≠ [])
    (hwidths : ∀ row ∈ rs.rows, row.length = rs.cols.length) {result : PgResult}
    (hsingle : results.filter PgResult.described = [result]) :
    Shaped results (written t) := by
  have hframes : (written t).map .ok =
      (rowDescription (rs.cols.map fun n => (n, 25)) :: (rs.rows.map dataRow ++
        [commandComplete rs.tag, readyForQuery]) : List Frame) := by
    rw [h, answerFrames, resultSetFrames, if_neg (by simpa using hcols)]
    simp
  obtain ⟨description, tail, hwritten, hdescription, htail⟩ := List.map_eq_cons_iff.mp hframes
  obtain ⟨dataRows, frames, rfl, hrows, hend⟩ := List.map_eq_append_iff.mp htail
  rw [hwritten]
  refine shaped_single hsingle (msg_head hdescription.symm) (fun row hrow => ?_) fun frame hf => ?_
  · have hmem : (.ok row : Frame) ∈ rs.rows.map dataRow := by
      rw [← hrows]
      exact List.mem_map_of_mem hrow
    obtain ⟨cells, hcells, hdata⟩ := List.mem_map.mp hmem
    refine ⟨msg_head hdata, ?_⟩
    rw [fieldCount_msg hdata, fieldCount_msg hdescription.symm, List.length_map,
      hwidths cells hcells]
  · have hmem : (.ok frame : Frame) ∈ [commandComplete rs.tag, readyForQuery] := by
      rw [← hend]
      exact List.mem_map_of_mem hf
    rcases List.mem_cons.mp hmem with hcomplete | hready
    · exact plain_msg (by decide) (by decide) hcomplete
    · exact plain_msg (by decide) (by decide) (List.mem_singleton.mp hready)

end

theorem described_mem {results : List PgResult} {columns : List String}
    {rows : List (List (Option Bytes))} {n : UInt64}
    {widths : ∀ row ∈ rows, row.length = columns.length}
    (h : .set columns rows n widths ∈ results) :
    .set columns rows n widths ∈ results.filter PgResult.described :=
  List.mem_filter.mpr ⟨h, rfl⟩

/-- The rows of the answer are those of the result sets. -/
theorem rows_of_described (results : List PgResult) :
    results.flatMap PgResult.rows =
      (results.filter PgResult.described).flatMap PgResult.rows := by
  induction results with
  | nil => rfl
  | cons result results ih =>
    cases result with
    | complete n => exact ih
    | set columns rows n widths =>
      rw [List.filter_cons_of_pos rfl, List.flatMap_cons, List.flatMap_cons, ih]

/-- The frames have the shape of the results just when there is no result set, or one with
columns and rows. -/
theorem shaped_iff {t : List SessionEvent} {sql : String} {results : List PgResult}
    (h : Replied (answerFrames (resultSet sql (answerOf results))) t) :
    Shaped results (written t) ↔ Relayable results := by
  have hcols : (resultSet sql (answerOf results)).cols = (collect (answerOf results) [] [] 0).1 :=
    rfl
  have hrows : (resultSet sql (answerOf results)).rows = results.flatMap PgResult.rows := by
    rw [resultSet_rows, rowsOf_answerOf]
  constructor
  · intro hshaped
    have hcount := hshaped.count
    rw [descriptions_sent h] at hcount
    split_ifs at hcount with hempty
    · exact Or.inl (List.length_eq_zero_iff.mp hcount.symm)
    · obtain ⟨result, hsingle⟩ := List.length_eq_one_iff.mp hcount.symm
      have hne : (collect (answerOf results) [] [] 0).1 ≠ [] := by
        simpa [hcols] using hempty
      obtain hnil | ⟨columns, cells, hmem, heq⟩ := collect_cols (answerOf results) [] [] 0
      · exact absurd hnil hne
      · obtain ⟨rows, n, widths, hset, hcells⟩ := row_mem_answerOf.mp hmem
        have hresult := described_mem hset
        rw [hsingle, List.mem_singleton] at hresult
        refine Or.inr ⟨columns, rows, n, widths, hresult ▸ hsingle, heq ▸ hne, ?_⟩
        exact List.ne_nil_of_mem hcells
  · rintro (hnone | ⟨columns, rows, n, widths, hsingle, hcolumns, hne⟩)
    · have hresults : ∀ result ∈ results, result.described = false := by
        simpa using List.filter_eq_nil_iff.mp hnone
      refine shaped_noData h ?_ hresults
      obtain hnil | ⟨columns, cells, hmem, -⟩ := collect_cols (answerOf results) [] [] 0
      · exact hnil
      · obtain ⟨rows, n, widths, hset, -⟩ := row_mem_answerOf.mp hmem
        exact absurd (hresults _ hset) (by simp [PgResult.described])
    · -- every row is one of the result set's, so the columns are its own
      have hset : .set columns rows n widths ∈ results :=
        List.mem_of_mem_filter (hsingle ▸ List.mem_singleton_self _)
      obtain ⟨first, hfirst⟩ := List.exists_mem_of_ne_nil rows hne
      have hrow : .row columns first ∈ answerOf results :=
        row_mem_answerOf.mpr ⟨rows, n, widths, hset, hfirst⟩
      have hown : (collect (answerOf results) [] [] 0).1 = columns := by
        obtain hnil | ⟨columns', cells, hmem, heq⟩ := collect_cols (answerOf results) [] [] 0
        · exact absurd ((collect_cols_nil hnil).2 columns first hrow) hcolumns
        · obtain ⟨rows', n', widths', hset', -⟩ := row_mem_answerOf.mp hmem
          have hsame := described_mem hset'
          rw [hsingle, List.mem_singleton] at hsame
          rw [heq]
          exact (PgResult.set.inj hsame).1
      have hall : (resultSet sql (answerOf results)).rows = rows := by
        rw [hrows, rows_of_described, hsingle]
        simp [PgResult.rows]
      refine shaped_described h ?_ ?_ hsingle
      · rwa [hcols, hown]
      · rw [hall, hcols, hown]
        exact widths

/-! ## Queries of a session -/

/-- The texts that ran, with what the backend answered. -/
def answers (t : List SessionEvent) : List (String × List SimpleQueryMessage) :=
  t.filterMap fun
    | ⟨.simpleQuery _ sql, .ok msgs⟩ => some (sql, msgs)
    | _ => none

theorem mem_answers {t : List SessionEvent} {conn : ConnId} {sql : String}
    {msgs : List SimpleQueryMessage} (h : ⟨.simpleQuery conn sql, .ok msgs⟩ ∈ t) :
    (sql, msgs) ∈ answers t :=
  List.mem_filterMap.mpr ⟨_, h, rfl⟩

theorem answers_append (t t' : List SessionEvent) : answers (t ++ t') = answers t ++ answers t' :=
  List.filterMap_append

theorem answers_cons {e : SessionEvent} {t : List SessionEvent} (h : handedOver e.op = none) :
    answers (e :: t) = answers t := by
  obtain ⟨o, r⟩ := e
  cases o with
  | simpleQuery conn sql => cases h
  | _ => rfl

theorem answers_of_unheard {t : List SessionEvent} (h : ∀ e ∈ t, handedOver e.op = none) :
    answers t = [] := by
  induction t with
  | nil => rfl
  | cons e t ih =>
    obtain ⟨he, hrest⟩ := List.forall_mem_cons.mp h
    rw [answers_cons he, ih hrest]

/-- At most one text ran, and what the backend answered to it was written. -/
def Answered (frames : ResultSet → List Frame) (t : List SessionEvent) : Prop :=
  answers t = [] ∨ ∃ sql msgs, answers t = [(sql, msgs)] ∧ Replied (frames (resultSet sql msgs)) t

section
variable {M : Sem sessionSig Unit} {frames : ResultSet → List Frame} {t : List SessionEvent}

theorem Answered.cons {e : SessionEvent} (h : Answered frames t) (he : ¬ e.op.toClient)
    (hover : handedOver e.op = none) : Answered frames (e :: t) := by
  rw [Answered, answers_cons hover]
  refine h.imp_right ?_
  rintro ⟨sql, msgs, hanswers, hreplied⟩
  exact ⟨sql, msgs, hanswers, hreplied.cons he⟩

theorem Answered.concat {e : SessionEvent} (h : Answered frames t) (he : ¬ e.op.toClient)
    (hover : handedOver e.op = none) : Answered frames (t ++ [e]) := by
  have hlast : answers [e] = [] := answers_cons hover
  rw [Answered, answers_append, hlast, List.append_nil]
  refine h.imp_right ?_
  rintro ⟨sql, msgs, hanswers, hreplied⟩
  exact ⟨sql, msgs, hanswers, hreplied.concat he⟩

variable (frames) in
theorem refuse_answers (sqlstate message : String) (s : Unit) :
    Returns M (refuse sqlstate message) (fun t _ _ => answers t = []) s := by
  intro t out s' ht a _
  have huses := ht.stops.uses (refuse_uses sqlstate message)
  exact answers_of_unheard fun e he => handedOver_toClient e.op (huses e he)

/-- The part that holds a connection. -/
theorem runOn_answered (ctx : SessionCtx) {write : ResultSet → SessionProg EngineError Unit}
    (hwrite : ∀ rs, write rs = writeFrames (frames rs)) (sql : String) (conn : ConnId) (s : Unit) :
    Returns M (runOn ctx write sql conn) (fun t _ _ => Answered frames t) s := by
  refine returns_call fun r s₁ _ => ?_
  cases r with
  | error e =>
    refine returns_call fun _ s₂ _ => (refuse_answers _ _ s₂).mono fun t _ _ ht => Or.inl ?_
    exact ht
  | ok msgs =>
    dsimp only
    rw [hwrite]
    refine Returns.bind ?_
    intro t out s₂ ht u hu
    have huses := ht.stops.uses (writeFrames_uses _)
    have hquiet := answers_of_unheard fun e he => handedOver_toClient e.op (huses e he)
    have hreplied := (writeFrames_replied _ s₁) t out s₂ ht u hu
    refine returns_call fun _ _ _ => returns_ok (Or.inr ⟨sql, msgs, ?_, ?_⟩)
    · rw [← List.singleton_append, answers_append, answers_append, hquiet]
      rfl
    · exact (hreplied.concat (by nofun)).cons (by nofun)

/-- A text that is run hands over one text, and writes what the backend answered to it. -/
theorem firewalled_answered (ctx : SessionCtx) {write : ResultSet → SessionProg EngineError Unit}
    (hwrite : ∀ rs, write rs = writeFrames (frames rs)) (sql : String) (s : Unit) :
    Returns M (firewalled write ctx sql) (fun t _ _ => Answered frames t) s := by
  rw [firewalled_eq]
  refine returns_call fun verdict s₁ _ => ?_
  cases verdict with
  | deny reason =>
    refine returns_call fun _ s₂ _ => (refuse_answers _ _ s₂).mono fun t _ _ ht => Or.inl ?_
    rwa [answers_cons rfl, answers_cons rfl]
  | allow =>
    refine returns_call fun conn s₂ _ => ?_
    cases conn with
    | error e =>
      refine (refuse_answers _ _ s₂).mono fun t _ _ ht => Or.inl ?_
      rwa [answers_cons rfl, answers_cons rfl]
    | ok conn =>
      refine Returns.finally ((runOn_answered ctx hwrite sql conn s₂).mono ?_)
      intro t _ _ ht _ _ _
      exact ((ht.concat (by nofun) rfl).cons (by nofun) rfl).cons (by nofun) rfl

/-- What a simple query wrote for the answer of the backend. -/
theorem onQuery_answered (ctx : SessionCtx) (st : PgState) (body : Bytes) (s : Unit) :
    Returns M (onQuery ctx st body) (fun t _ _ => Answered answerFrames t) s := by
  rw [onQuery_eq]
  split_ifs with hempty
  · have huses : ((writeRaw emptyQueryResponse).bind fun _ => (writeRaw readyForQuery).bind fun _ =>
        (.halt (.ok (some st)) : SessionProg EngineError (Option PgState))).Uses
          fun o => handedOver o = none :=
      uses_bind (writeRaw_unheard _) fun _ => writeRaw_then_unheard _ _
    exact fun t out s' ht _ _ => Or.inl (answers_of_unheard (ht.stops.uses huses))
  · refine Returns.bind ((firewalled_answered ctx writeResultSet_eq (queryText body) s).mono ?_)
    intro t _ s₁ ht
    refine Returns.bind ?_
    intro t' out s₂ ht' u hu
    have hquiet := answers_of_unheard (ht'.stops.uses (writeRaw_unheard _))
    have hready := (writeRaw_replied _ s₁) t' out s₂ ht' u hu
    refine returns_ok ?_
    rw [List.append_nil, Answered, answers_append, hquiet, List.append_nil]
    refine ht.imp_right ?_
    rintro ⟨sql, msgs, hanswers, hreplied⟩
    exact ⟨sql, msgs, hanswers, hreplied.append hready⟩

end

/-- After any run, a simple query is answered with the frames of the backend's answer. -/
theorem simpleQuery_replied {ctx : SessionCtx} {turn : PgTurn} {next : Option PgState}
    (h : (serve ctx).Handled (pgSem ctx) {} () turn (.ok next)) (htag : turn.msg.1 = 0x51)
    {conn : ConnId} {sql : String} {msgs : List SimpleQueryMessage}
    (hanswer : ⟨.simpleQuery conn sql, .ok msgs⟩ ∈ turn.trace) :
    Replied (answerFrames (resultSet sql msgs)) turn.trace := by
  obtain ⟨_, _, s, _, _, -, -, hturn⟩ := h
  have hquery : (serve ctx).handle turn.state turn.msg = onQuery ctx turn.state turn.msg.2 := by
    rw [serve_handle, pgHandle, if_pos htag]
  rw [hquery] at hturn
  have hmem := mem_answers hanswer
  obtain hnone | ⟨sql', msgs', hanswers, hreplied⟩ := (onQuery_answered ctx _ _ s).exec hturn
  · rw [hnone] at hmem
    cases hmem
  · rw [hanswers, List.mem_singleton] at hmem
    obtain ⟨rfl, rfl⟩ := Prod.mk.inj hmem
    exact hreplied

def queryMsg : UInt8 × Bytes := (0x51, [0x54, 0x41, 0x42, 0x4C, 0x45, 0x20, 0x74, 0])

/-- The query of the table, whatever results the backend reports for it. -/
theorem queryMsg_handled {results : List PgResult}
    (hframed : ∀ f ∈ resultSetFrames (resultSet tableText (answerOf results)), Framed f) :
    ∃ turn next, (serve tableCtx).Handled (pgSem tableCtx) {} () turn (.ok next) ∧
      turn.msg = queryMsg ∧
      ⟨.simpleQuery 0 tableText, .ok (answerOf results)⟩ ∈ turn.trace := by
  have htake : ∀ bytes, pgSem tableCtx () (.write bytes) (.ok ()) () := fun _ => trivial
  obtain ⟨t, ht⟩ := writeFrames_exec htake hframed
  obtain ⟨_, hread⟩ := pgRead_exec (pgSem_recv tableCtx) [0, 0, 0, 12] queryMsg rfl (by decide)
    (by decide)
  have htext : queryText queryMsg.2 = tableText := by decide
  have hrun : Exec (pgSem tableCtx) (runOn tableCtx writeResultSet tableText 0) ()
      (⟨.simpleQuery 0 tableText, .ok (answerOf results)⟩ :: (t ++ [⟨.emit (tableCtx.event tableText
        .allow none (some (UInt64.ofNat (resultSet tableText (answerOf results)).rows.length))),
          ()⟩])) (.ok true) () := by
    rw [← writeResultSet_eq] at ht
    exact .step trivial (ht.bind (.step trivial (.halt _ _)))
  have hheld : Exec (pgSem tableCtx) (withConn 0 (runOn tableCtx writeResultSet tableText 0)) ()
      _ (.ok true) () :=
    hrun.finally (r := ()) trivial
  obtain ⟨t', hmem, hexec⟩ : ∃ t', ⟨.simpleQuery 0 tableText, .ok (answerOf results)⟩ ∈ t' ∧
      Exec (pgSem tableCtx) (firewalledExec tableCtx tableText) () t' (.ok true) () := by
    rw [firewalledExec, firewalled_eq]
    refine ⟨⟨.evaluate tableText, .allow⟩ :: ⟨.poolGet, .ok 0⟩ :: _, ?_,
      .step tableText_allowed.symm (.step trivial hheld)⟩
    simp
  have hready : Exec (pgSem tableCtx) ((writeRaw readyForQuery).bind fun _ =>
      .halt (.ok (some {}))) () [⟨.write readyFrame, .ok ()⟩] (.ok (some ({} : PgState))) () := by
    rw [readyForQuery_eq]
    exact .step trivial (.halt _ _)
  have hquery : (serve tableCtx).handle {} queryMsg = (firewalledExec tableCtx tableText).bind
      fun _ => (writeRaw readyForQuery).bind fun _ => .halt (.ok (some {})) := by
    have htag : queryMsg.1 = 0x51 := rfl
    rw [serve_handle, pgHandle, if_pos htag, onQuery_eq, htext]
    rfl
  have hturn : Exec (pgSem tableCtx) ((serve tableCtx).handle {} queryMsg) ()
      (t' ++ [⟨.write readyFrame, .ok ()⟩]) (.ok (some {})) () := by
    rw [hquery]
    exact hexec.bind hready
  exact ⟨⟨{}, queryMsg, _⟩, _, Loop.handled_first hread hturn, rfl, List.mem_append_left _ hmem⟩

def oneRow : PgResult := .set ["id"] [[some [0x31]]] 1 (by simp)

def noRows : PgResult := .set ["id"] [] 0 (by simp)

end MiddleWhere.Net
