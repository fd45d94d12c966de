import MiddleWhere.Core.PolicySound
import MiddleWhere.Net.MysqlClient
import MiddleWhere.Net.MysqlSafe

/-!
# What a client reads of a query's outcome

A backend answers a text with a sequence of results that an error may break off. The
outcome's `view` is what a client of that backend would have seen. What the client reads from
the session is this view only for a single result without counters to report, or an error
before any result.
-/

namespace MiddleWhere.Net
open Prog Firewall Sql

structure TextSet where
  cols : List Column
  rows : List Row
  cols_ne : cols ≠ []
  count_lt : cols.length < 2 ^ 64
  aligned : ∀ row ∈ rows, row.length = cols.length

inductive StatementResult
  | ok (affectedRows lastInsertId : UInt64)
  | set (s : TextSet)

inductive BackendOutcome
  | failed (reason : String)
  | broken (s : TextSet) (reason : String)
  | last (r : StatementResult)
  | more (r : StatementResult) (rest : BackendOutcome)

def TextSet.view (deps : SessionDeps) (s : TextSet) : SetView :=
  ⟨s.cols.map Column.view, s.rows.map (Row.view deps)⟩

def StatementResult.view (deps : SessionDeps) : StatementResult → ResultView
  | .ok affectedRows lastInsertId => .ok affectedRows.toNat lastInsertId.toNat
  | .set s => .set (s.view deps)

def BackendOutcome.view (deps : SessionDeps) : BackendOutcome → ReplyView
  | .failed _ => ⟨[], some none⟩
  | .broken s _ => ⟨[], some (some (s.view deps))⟩
  | .last r => ⟨[r.view deps], none⟩
  | .more r rest => ⟨r.view deps :: (rest.view deps).results, (rest.view deps).failure⟩

/-! ## Reading a result set -/

section
variable {deps : SessionDeps} {s : TextSet}

def Fits (p : Bytes) : Prop := p.length < maxPayload

instance : DecidablePred Fits := fun _ => inferInstanceAs (Decidable (_ < _))

/-- The columns and the rows as packets, without the count before them and the OK after. -/
def TextSet.body (deps : SessionDeps) (s : TextSet) : List Bytes :=
  s.cols.map columnDefPacket ++ s.rows.map (rowText deps)

def TextSet.count (s : TextSet) : Bytes := columnCountPacket s.cols.length

theorem count_fits (s : TextSet) : Fits s.count := by
  have hlen : s.count.length ≤ 9 := by
    unfold TextSet.count columnCountPacket writeLenencInt
    split_ifs <;> simp [le_length]
  exact lt_of_le_of_lt hlen (by decide)

theorem clientStep_count (done : List ResultView) (s : TextSet) :
    clientStep (.start done) s.count = some (afterColumns done s.cols.length []) := by
  have hne : s.cols.length ≠ 0 := fun h => s.cols_ne (List.eq_nil_of_length_eq_zero h)
  have hread : whole lenencInt s.count = some s.cols.length :=
    (reads_lenencInt s.count_lt).whole
  obtain ⟨b, rest, hhead, -, herr, -, hok⟩ := writeLenencInt_head (n := s.cols.length)
  have hbytes : s.count = b :: rest := hhead
  simp only [clientStep, hread]
  rw [hbytes]
  simp [herr, hok hne]

theorem foldlM_columns {done : List ResultView} {count : ℕ} (acc : List Column) {cols : List Column}
    (hle : acc.length + cols.length ≤ count) (hfit : ∀ c ∈ cols, Fits (columnDefPacket c)) :
    (cols.map columnDefPacket).foldlM clientStep (afterColumns done count (acc.map Column.view)) =
      some (afterColumns done count ((acc ++ cols).map Column.view)) := by
  induction cols generalizing acc with
  | nil => simp
  | cons c cols ih =>
    have hlt : acc.length < count := by
      simp only [List.length_cons] at hle
      omega
    have hwaiting : afterColumns done count (acc.map Column.view) =
        .columns done count (acc.map Column.view) := if_neg (by simp; omega)
    have hread : whole columnDef (columnDefPacket c) = some c.view :=
      (reads_columnDef (hfit c List.mem_cons_self)).whole
    have hstep : clientStep (afterColumns done count (acc.map Column.view)) (columnDefPacket c) =
        some (afterColumns done count ((acc ++ [c]).map Column.view)) := by
      rw [hwaiting, List.map_append]
      simp only [clientStep, hread]
      rfl
    have hrest : (cols.map columnDefPacket).foldlM clientStep
        (afterColumns done count ((acc ++ [c]).map Column.view)) =
          some (afterColumns done count ((acc ++ [c] ++ cols).map Column.view)) := by
      apply ih
      · simp only [List.length_append, List.length_cons, List.length_nil] at hle ⊢
        omega
      · exact fun c' hc' => hfit c' (List.mem_cons_of_mem c hc')
    rw [List.map_cons, List.foldlM_cons, hstep]
    simpa using hrest

theorem foldlM_rows {done : List ResultView} {cols : List ColumnView} (hne : cols ≠ [])
    {rows : List Row} {acc : List RowView} (hlen : ∀ row ∈ rows, row.length = cols.length)
    (hfit : ∀ row ∈ rows, Fits (rowText deps row)) :
    (rows.map (rowText deps)).foldlM clientStep (.rows done cols acc) =
      some (.rows done cols (acc ++ rows.map (Row.view deps))) := by
  induction rows generalizing acc with
  | nil => simp
  | cons row rows ih =>
    have hrow : row.length = cols.length := hlen row List.mem_cons_self
    have hrowfit : Fits (rowText deps row) := hfit row List.mem_cons_self
    have hrow_ne : row ≠ [] := by
      rintro rfl
      exact hne (List.eq_nil_of_length_eq_zero hrow.symm)
    have hread : whole (repeatN cell cols.length) (rowText deps row) = some (row.view deps) := by
      rw [← hrow]
      exact (reads_row hrowfit).whole
    obtain ⟨herr, hok⟩ := rowText_head deps hrow_ne hrowfit
    have hstep : clientStep (.rows done cols acc) (rowText deps row) =
        some (.rows done cols (acc ++ [row.view deps])) := by
      simp only [clientStep, hread, if_neg herr, hok, false_and, if_false]
      rfl
    have hrest : (rows.map (rowText deps)).foldlM clientStep
        (.rows done cols (acc ++ [row.view deps])) =
          some (.rows done cols (acc ++ [row.view deps] ++ rows.map (Row.view deps))) := by
      apply ih
      · exact fun r hr => hlen r (List.mem_cons_of_mem row hr)
      · exact fun r hr => hfit r (List.mem_cons_of_mem row hr)
    rw [List.map_cons, List.foldlM_cons, hstep]
    simpa using hrest

theorem afterColumns_open (done : List ResultView) (count : ℕ) (cols : List ColumnView) :
    (afterColumns done count cols).Open := by
  unfold afterColumns
  split_ifs <;> trivial

/-- Between the count and the OK the client goes on waiting. -/
theorem foldlM_body (done : List ResultView) {k : ℕ}
    (hfit : ∀ p ∈ (s.body deps).take k, Fits p) :
    ∃ st, ((s.body deps).take k).foldlM clientStep (afterColumns done s.cols.length []) = some st ∧
      st.Open ∧ ((s.body deps).length ≤ k →
        st = .rows done (s.view deps).cols (s.view deps).rows) := by
  have hsplit : (s.body deps).take k = (s.cols.take k).map columnDefPacket ++
      (s.rows.take (k - s.cols.length)).map (rowText deps) := by
    unfold TextSet.body
    rw [List.take_append, List.map_take, List.map_take, List.length_map]
  have hlength : (s.body deps).length = s.cols.length + s.rows.length := by
    simp [TextSet.body]
  rw [hsplit] at hfit ⊢
  have hcols : ((s.cols.take k).map columnDefPacket).foldlM clientStep
      (afterColumns done s.cols.length []) =
        some (afterColumns done s.cols.length ((s.cols.take k).map Column.view)) := by
    refine foldlM_columns [] ?_ ?_
    · rw [List.length_nil, List.length_take]
      omega
    · exact fun c hc => hfit _ (List.mem_append_left _ (List.mem_map_of_mem hc))
  rw [List.foldlM_append, hcols]
  by_cases hk : s.cols.length ≤ k
  · have hall : afterColumns done s.cols.length ((s.cols.take k).map Column.view) =
        .rows done (s.cols.map Column.view) [] := by
      rw [List.take_of_length_le hk]
      exact if_pos (List.length_map _)
    have hrows : ((s.rows.take (k - s.cols.length)).map (rowText deps)).foldlM clientStep
        (.rows done (s.cols.map Column.view) []) = some (.rows done (s.cols.map Column.view)
          ((s.rows.take (k - s.cols.length)).map (Row.view deps))) := by
      refine foldlM_rows ?_ ?_ ?_
      · exact fun h => s.cols_ne (List.map_eq_nil_iff.mp h)
      · intro row hrow
        rw [List.length_map]
        exact s.aligned row (List.mem_of_mem_take hrow)
      · exact fun row hrow => hfit _ (List.mem_append_right _ (List.mem_map_of_mem hrow))
    refine ⟨.rows done (s.cols.map Column.view)
      ((s.rows.take (k - s.cols.length)).map (Row.view deps)), by rw [hall]; exact hrows, trivial, ?_⟩
    intro hle
    rw [List.take_of_length_le (by omega)]
    rfl
  · have hnone : s.rows.take (k - s.cols.length) = [] := by
      rw [Nat.sub_eq_zero_of_le (by omega), List.take_zero]
    rw [hnone]
    exact ⟨_, rfl, afterColumns_open _ _ _, fun hle => by omega⟩

theorem decodePackets_set (hfit : ∀ p ∈ s.body deps, Fits p) :
    decodePackets (s.count :: (s.body deps ++ [okEofPacket 0 0])) =
      some ⟨[.set (s.view deps)], none⟩ := by
  obtain ⟨st, hbody, -, hst⟩ := foldlM_body (k := (s.body deps).length) []
    (by rwa [List.take_length])
  rw [List.take_length, hst le_rfl] at hbody
  unfold decodePackets
  rw [List.foldlM_cons, clientStep_count, Option.bind_eq_bind, Option.bind_some,
    List.foldlM_append, hbody]
  rfl

/-- A set that breaks off leaves the client waiting. -/
theorem decodePackets_broken {ps : List Bytes} (hps : ps <+: s.body deps)
    (hfit : ∀ p ∈ ps, Fits p) : decodePackets (s.count :: ps) = none := by
  have htake : ps = (s.body deps).take ps.length := List.prefix_iff_eq_take.mp hps
  rw [htake] at hfit
  obtain ⟨st, hbody, hopen, -⟩ := foldlM_body [] hfit
  rw [← htake] at hbody
  unfold decodePackets
  rw [List.foldlM_cons, clientStep_count, Option.bind_eq_bind, Option.bind_some, hbody]
  cases st with
  | finished reply => exact hopen.elim
  | _ => rfl

end

/-! ## What the socket took -/

/-- The counter after the packets `ps`. -/
def SequenceCounter.after (seq : SequenceCounter) (ps : List Bytes) : SequenceCounter :=
  seq + UInt8.ofNat ps.length

theorem SequenceCounter.after_append (seq : SequenceCounter) (ps qs : List Bytes) :
    seq.after (ps ++ qs) = (seq.after ps).after qs := by
  unfold SequenceCounter.after
  rw [List.length_append, UInt8.ofNat_add, add_assoc]

theorem packets_append (seq : SequenceCounter) (ps qs : List Bytes) :
    packets seq (ps ++ qs) = packets seq ps ++ packets (seq.after ps) qs := by
  induction ps generalizing seq with
  | nil => simp [packets, SequenceCounter.after]
  | cons p ps ih =>
    have hafter : (seq + 1).after ps = seq.after (p :: ps) := by
      rw [← List.singleton_append, SequenceCounter.after_append]
      rfl
    rw [List.cons_append, packets, packets, ih, hafter, List.append_assoc]

theorem takeWhile_fits {ps : List Bytes} (h : ∀ p ∈ ps, Fits p) (qs : List Bytes) :
    (ps ++ qs).takeWhile Fits = ps ++ qs.takeWhile Fits :=
  List.takeWhile_append_of_pos fun p hp => decide_eq_true (h p hp)

theorem takeWhile_broken {ps : List Bytes} (h : ¬ ∀ p ∈ ps, Fits p) (qs : List Bytes) :
    (ps ++ qs).takeWhile Fits = ps.takeWhile Fits := by
  rw [List.takeWhile_append, if_neg]
  intro hlen
  have hall : ps.takeWhile Fits = ps := (List.takeWhile_prefix _).eq_of_length hlen
  exact h fun p hp => of_decide_eq_true (List.takeWhile_eq_self_iff.mp hall p hp)

section
variable {M : Sem sessionSig Unit} {P : SessionEvent → Prop} {α : Type}

/-- While the answers are in `P`, the packets go out up to the first that is too large. -/
def Sends (P : SessionEvent → Prop) (seq : SequenceCounter) (ps : List Bytes)
    (t : List SessionEvent) (out : Outcome RouterError SequenceCounter) : Prop :=
  (∀ e ∈ t, P e) → sent t = packets seq (ps.takeWhile Fits) ∧
    ((∀ p ∈ ps, Fits p) → out = .ok (seq.after ps)) ∧
    ((¬ ∀ p ∈ ps, Fits p) → ∃ e, out = .err e)

theorem sends_reply (hP : ∀ e, P e → Took e) (seq : SequenceCounter) (p : Bytes) (s : Unit) :
    wp M (reply seq p) (fun t out _ => Sends P seq [p] t out) s := by
  by_cases hfit : Fits p
  · have hsends : wp M (reply seq p) (fun t out _ => out.Safe ∧ emitted t = [] ∧
        SendsPacket seq p t out) s := reply_sends hfit s
    refine wp_mono hsends ?_
    rintro t out _ ⟨-, -, -, htook⟩ hall
    obtain ⟨hsent, hout⟩ := htook fun e he => hP e (hall e he)
    refine ⟨?_, fun _ => hout, fun h => absurd hfit (by simpa using h)⟩
    simp [hsent, hfit, packets]
  · have hfail : reply seq p = .halt (.err (.framing (.payloadTooLarge p.length))) := by
      unfold reply writePacket
      rw [if_pos (not_lt.mp hfit)]
      rfl
    rw [hfail]
    refine wp_halt.mpr fun _ => ⟨?_, fun h => absurd (h p List.mem_cons_self) hfit, fun _ => ⟨_, rfl⟩⟩
    simp [hfit, packets, sent]

theorem sends_bind {p : SessionProg RouterError SequenceCounter}
    {f : SequenceCounter → SessionProg RouterError SequenceCounter} {seq : SequenceCounter}
    {ps qs : List Bytes} {s : Unit} (hp : wp M p (fun t out _ => Sends P seq ps t out) s)
    (hf : ∀ s, wp M (f (seq.after ps)) (fun t out _ => Sends P (seq.after ps) qs t out) s) :
    wp M (p.bind f) (fun t out _ => Sends P seq (ps ++ qs) t out) s := by
  refine wp_bind.mpr (wp_mono hp ?_)
  intro t out s' hps
  by_cases hfit : ∀ p ∈ ps, Fits p
  · cases out with
    | ok seq' =>
      intro t' out' s'' ht' hall
      obtain ⟨hall₁, hall₂⟩ := List.forall_mem_append.mp hall
      obtain ⟨hsent, hok, -⟩ := hps hall₁
      obtain rfl : seq' = seq.after ps := Outcome.ok.inj (hok hfit)
      obtain ⟨hsent', hok', herr'⟩ := hf s' t' out' s'' ht' hall₂
      have hall_iff : (∀ p ∈ ps ++ qs, Fits p) ↔ ∀ p ∈ qs, Fits p := by
        rw [List.forall_mem_append]
        exact and_iff_right hfit
      rw [takeWhile_fits hfit, packets_append, sent_append, hsent, hsent',
        SequenceCounter.after_append, hall_iff]
      have hself : ps.takeWhile Fits = ps := by simpa using takeWhile_fits hfit []
      exact ⟨by rw [hself], hok', herr'⟩
    | err e => exact fun hall => by simpa using (hps hall).2.1 hfit
    | panic => exact fun hall => by simpa using (hps hall).2.1 hfit
  · have hbroken : ¬ ∀ p ∈ ps ++ qs, Fits p := fun h =>
      hfit fun p hp => h p (List.mem_append_left qs hp)
    cases out with
    | ok seq' =>
      intro t' out' s'' _ hall
      obtain ⟨e, he⟩ := (hps (List.forall_mem_append.mp hall).1).2.2 hfit
      cases he
    | err e =>
      intro hall
      rw [takeWhile_broken hfit]
      exact ⟨(hps hall).1, fun h => absurd h hbroken, fun _ => ⟨e, rfl⟩⟩
    | panic =>
      intro hall
      obtain ⟨e, he⟩ := (hps hall).2.2 hfit
      cases he

theorem sends_nil (seq : SequenceCounter) (s : Unit) :
    wp M (.halt (.ok seq) : SessionProg RouterError SequenceCounter)
      (fun t out _ => Sends P seq [] t out) s := by
  refine wp_halt.mpr fun _ => ⟨rfl, fun _ => ?_, fun h => absurd (by simp) h⟩
  simp [SequenceCounter.after]

theorem sends_replyAll (hP : ∀ e, P e → Took e) (seq : SequenceCounter) (ps : List Bytes)
    (s : Unit) : wp M (replyAll seq ps) (fun t out _ => Sends P seq ps t out) s := by
  induction ps generalizing seq s with
  | nil => exact sends_nil seq s
  | cons p ps ih =>
    exact sends_bind (f := fun seq => replyAll seq ps) (sends_reply hP seq p s) fun s' => ih _ s'

theorem sends_replyRows (hP : ∀ e, P e → Took e) (deps : SessionDeps) (seq : SequenceCounter)
    (rows : List Row) (s : Unit) : wp M (replyRows deps seq rows)
      (fun t out _ => Sends P seq (rows.map (rowText deps)) t out) s := by
  induction rows generalizing seq s with
  | nil => exact sends_nil seq s
  | cons row rows ih =>
    rw [replyRows_cons]
    exact sends_bind (f := fun seq => replyRows deps seq rows)
      (sends_reply hP seq (rowText deps row) s) fun s' => ih _ s'

/-- While the answers are in `P`, the program sends one of the replies in `L`, up to the first
packet that is too large. -/
def Delivers (M : Sem sessionSig Unit) (P : SessionEvent → Prop) (p : SessionProg RouterError α)
    (seq : SequenceCounter) (L : List Bytes → Prop) (s : Unit) : Prop :=
  wp M p (fun t _ _ => (∀ e ∈ t, P e) → ∃ ps, L ps ∧ sent t = packets seq (ps.takeWhile Fits)) s

variable {L : List Bytes → Prop}

theorem delivers_bind {p : SessionProg RouterError SequenceCounter}
    {f : SequenceCounter → SessionProg RouterError α} {seq : SequenceCounter} {ps : List Bytes}
    {s : Unit} (hp : wp M p (fun t out _ => Sends P seq ps t out) s) (hL : ∃ qs, L (ps ++ qs))
    (hf : ∀ s, Delivers M P (f (seq.after ps)) (seq.after ps) (fun qs => L (ps ++ qs)) s) :
    Delivers M P (p.bind f) seq L s := by
  obtain ⟨qs₀, hqs₀⟩ := hL
  have hpart {t : List SessionEvent} {e : RouterError} (hps : Sends P seq ps t (.err e)) :
      (∀ e ∈ t, P e) → ∃ qs, L qs ∧ sent t = packets seq (qs.takeWhile Fits) := by
    intro hall
    have hbroken : ¬ ∀ p ∈ ps, Fits p := fun h => by simpa using (hps hall).2.1 h
    exact ⟨ps ++ qs₀, hqs₀, by rw [takeWhile_broken hbroken]; exact (hps hall).1⟩
  refine wp_bind.mpr (wp_mono hp ?_)
  intro t out s' hps
  cases out with
  | ok seq' =>
    intro t' out' s'' ht' hall
    obtain ⟨hall₁, hall₂⟩ := List.forall_mem_append.mp hall
    have hfit : ∀ p ∈ ps, Fits p := by
      by_contra hbroken
      obtain ⟨e, he⟩ := (hps hall₁).2.2 hbroken
      cases he
    obtain rfl : seq' = seq.after ps := Outcome.ok.inj ((hps hall₁).2.1 hfit)
    obtain ⟨qs, hqs, hsent'⟩ := hf s' t' out' s'' ht' hall₂
    refine ⟨ps ++ qs, hqs, ?_⟩
    have hself : ps.takeWhile Fits = ps := by simpa using takeWhile_fits hfit []
    rw [takeWhile_fits hfit, packets_append, sent_append, (hps hall₁).1, hself, hsent']
  | err e => exact hpart hps
  | panic =>
    intro hall
    by_cases hfit : ∀ p ∈ ps, Fits p
    · exact absurd ((hps hall).2.1 hfit) (by simp)
    · obtain ⟨e, he⟩ := (hps hall).2.2 hfit
      cases he

/-- A call that sends nothing. -/
theorem delivers_call {o : SessionOp} {k : o.Res → SessionProg RouterError α}
    {seq : SequenceCounter} {s : Unit} (hquiet : ∀ r t, sent (⟨o, r⟩ :: t) = sent t)
    (hk : ∀ r s', M s o r s' → P ⟨o, r⟩ → Delivers M P (k r) seq L s') :
    Delivers M P (.call o k : SessionProg RouterError α) seq L s := by
  refine wp_call.mpr ?_
  intro r s' hM t out s'' ht hall
  obtain ⟨hr, hall⟩ := List.forall_mem_cons.mp hall
  rw [hquiet]
  exact hk r s' hM hr t out s'' ht hall

theorem delivers_halt {out : Outcome RouterError α} {seq : SequenceCounter} {s : Unit}
    (h : L []) : Delivers M P (.halt out) seq L s :=
  wp_halt.mpr fun _ => ⟨[], h, rfl⟩

end

/-! ## One query -/

/-- How `query_iter` answers. -/
def BackendOutcome.Starts : BackendOutcome → Except String (Option (List Column)) → Prop
  | .failed reason, r => r = .error reason
  | .broken s _, r | .last (.set s), r | .more (.set s) _, r => r = .ok (some s.cols)
  | .last (.ok _ _), r | .more (.ok _ _) _, r => r = .ok none ∨ r = .ok (some [])

/-- The rows that `next` yields. An error of the next result may show at their end. -/
def BackendOutcome.Yields : BackendOutcome → List Row × Option String → Prop
  | .broken s reason, r => r = (s.rows, some reason)
  | .last (.set s), r => r = (s.rows, none)
  | .more (.set s) rest, r => r = (s.rows, none) ∨
      ∃ reason, rest = .failed reason ∧ r = (s.rows, some reason)
  | _, _ => True

def BackendOutcome.Answers (O : BackendOutcome) : SessionEvent → Prop
  | ⟨.queryIter _ _, r⟩ => O.Starts r
  | ⟨.rows _, r⟩ => O.Yields r
  | _ => True

def TextSet.reply (deps : SessionDeps) (s : TextSet) : List Bytes :=
  s.count :: (s.body deps ++ [okEofPacket 0 0])

/-- What the session may write. -/
def BackendOutcome.Replies (deps : SessionDeps) : BackendOutcome → List Bytes → Prop
  | .failed _, ps => ps = [errPacket 1815 "HY000" "query execution failed"]
  | .broken s _, ps => ps = s.count :: s.body deps
  | .last (.set s), ps => ps = s.reply deps
  | .more (.set s) _, ps => ps = s.reply deps ∨ ps = s.count :: s.body deps
  | .last (.ok _ _), ps | .more (.ok _ _) _, ps => ps = [okPacket]

/-- What the session passes on faithfully. -/
def BackendOutcome.Relayed (deps : SessionDeps) : BackendOutcome → Prop
  | .failed _ => True
  | .last (.ok affectedRows lastInsertId) => affectedRows = 0 ∧ lastInsertId = 0
  | .last (.set s) => ∀ p ∈ s.body deps, Fits p
  | .broken _ _ | .more _ _ => False

theorem BackendOutcome.view_ne (deps : SessionDeps) (O : BackendOutcome) :
    (O.view deps).results ≠ [] ∨ (O.view deps).failure ≠ none := by
  cases O with
  | failed reason => exact Or.inr nofun
  | broken s reason => exact Or.inr nofun
  | last r => exact Or.inl nofun
  | more r rest => exact Or.inl nofun

theorem takeWhile_count (s : TextSet) (ps : List Bytes) :
    (s.count :: ps).takeWhile Fits = s.count :: ps.takeWhile Fits :=
  List.takeWhile_cons_of_pos (decide_eq_true (count_fits s))

theorem fits_of_mem_takeWhile {p : Bytes} {ps : List Bytes} (h : p ∈ ps.takeWhile Fits) :
    Fits p := by
  have hp := List.mem_takeWhile_imp h
  exact of_decide_eq_true hp

theorem decodePackets_reply (deps : SessionDeps) (s : TextSet) :
    decodePackets ((s.reply deps).takeWhile Fits) =
      if ∀ p ∈ s.body deps, Fits p then some ⟨[.set (s.view deps)], none⟩ else none := by
  have heof : [okEofPacket 0 0].takeWhile Fits = [okEofPacket 0 0] := by decide
  unfold TextSet.reply
  rw [takeWhile_count]
  by_cases hfit : ∀ p ∈ s.body deps, Fits p
  · rw [if_pos hfit, takeWhile_fits hfit, heof]
    exact decodePackets_set hfit
  · rw [if_neg hfit, takeWhile_broken hfit]
    exact decodePackets_broken (List.takeWhile_prefix _) fun p => fits_of_mem_takeWhile

theorem decodePackets_unfinished (deps : SessionDeps) (s : TextSet) :
    decodePackets ((s.count :: s.body deps).takeWhile Fits) = none := by
  rw [takeWhile_count]
  exact decodePackets_broken (List.takeWhile_prefix _) fun p => fits_of_mem_takeWhile

theorem decodePackets_ok : decodePackets ([okPacket].takeWhile Fits) = some ⟨[.ok 0 0], none⟩ := by
  have hok : [okPacket].takeWhile Fits = [okPacket] := by decide
  rw [hok]
  rfl

theorem decodePackets_failed (code : UInt16) (sqlstate msg : String)
    (hfit : Fits (errPacket code sqlstate msg)) :
    decodePackets ([errPacket code sqlstate msg].takeWhile Fits) = some ⟨[], some none⟩ := by
  have hone : [errPacket code sqlstate msg].takeWhile Fits = [errPacket code sqlstate msg] :=
    List.takeWhile_cons_of_pos (decide_eq_true hfit)
  rw [hone]
  rfl

/-- The first of several results looks like the only one. -/
theorem BackendOutcome.view_more_ne (deps : SessionDeps) (r : StatementResult)
    (rest : BackendOutcome) (r' : ResultView) :
    (BackendOutcome.more r rest).view deps ≠ ⟨[r'], none⟩ := by
  intro h
  have hresults := congrArg (fun v : ReplyView => v.results.tail) h
  have hfailure := congrArg ReplyView.failure h
  exact (rest.view_ne deps).elim (fun hne => hne hresults) fun hne => hne hfailure

theorem BackendOutcome.decode_replies {deps : SessionDeps} {O : BackendOutcome} {ps : List Bytes}
    (h : O.Replies deps ps) :
    decodePackets (ps.takeWhile Fits) = some (O.view deps) ↔ O.Relayed deps := by
  cases O with
  | failed reason =>
    obtain rfl := h
    rw [decodePackets_failed _ _ _ (by decide)]
    exact ⟨fun _ => trivial, fun _ => rfl⟩
  | broken s reason =>
    obtain rfl := h
    rw [decodePackets_unfinished]
    exact ⟨nofun, False.elim⟩
  | last r =>
    cases r with
    | ok affectedRows lastInsertId =>
      obtain rfl := h
      rw [decodePackets_ok]
      simp only [BackendOutcome.view, StatementResult.view, Relayed, Option.some.injEq,
        ReplyView.mk.injEq, List.cons.injEq, ResultView.ok.injEq, and_true,
        ← UInt64.toNat_inj, UInt64.toNat_zero, eq_comm]
    | set s =>
      obtain rfl := h
      rw [decodePackets_reply]
      by_cases hfit : ∀ p ∈ s.body deps, Fits p
      · rw [if_pos hfit]
        exact ⟨fun _ => hfit, fun _ => rfl⟩
      · rw [if_neg hfit]
        exact ⟨nofun, fun hall => absurd hall hfit⟩
  | more r rest =>
    have hone (r' : ResultView) : ¬ some ⟨[r'], none⟩ = some ((more r rest).view deps) := fun heq =>
      view_more_ne deps r rest r' (Option.some.inj heq).symm
    refine iff_of_false ?_ not_false
    cases r with
    | ok affectedRows lastInsertId =>
      obtain rfl := h
      rw [decodePackets_ok]
      exact hone _
    | set s =>
      obtain rfl | rfl := h
      · rw [decodePackets_reply]
        split_ifs
        · exact hone _
        · exact nofun
      · rw [decodePackets_unfinished]
        exact nofun

section
variable {M : Sem sessionSig Unit} {O : BackendOutcome} {P : SessionEvent → Prop}

theorem delivers_reply {α : Type} (hP : ∀ e, P e → Took e) {seq : SequenceCounter} {p : Bytes}
    {L : List Bytes → Prop} {f : SequenceCounter → SessionProg RouterError α} {s : Unit}
    (hL : L [p]) (hf : ∀ seq' s', Delivers M P (f seq') seq' (fun qs => qs = []) s') :
    Delivers M P ((reply seq p).bind f) seq L s := by
  refine delivers_bind (sends_reply hP seq p s) ⟨[], hL⟩ fun s' => ?_
  refine wp_mono (hf (seq.after [p]) s') ?_
  rintro t out _ h hall
  obtain ⟨qs, rfl, hsent⟩ := h hall
  exact ⟨[], hL, hsent⟩

/-- Nothing is sent after `p`. -/
theorem delivers_then {α β : Type} {p : SessionProg RouterError α}
    {f : α → SessionProg RouterError β} {seq : SequenceCounter} {L : List Bytes → Prop} {s : Unit}
    (hp : Delivers M P p seq L s)
    (hf : ∀ a s', Delivers M P (f a) seq (fun qs => qs = []) s') :
    Delivers M P (p.bind f) seq L s := by
  refine wp_bind.mpr (wp_mono hp ?_)
  intro t out s' h
  cases out with
  | ok a =>
    intro t' out' s'' ht' hall
    obtain ⟨hall₁, hall₂⟩ := List.forall_mem_append.mp hall
    obtain ⟨ps, hps, hsent⟩ := h hall₁
    obtain ⟨qs, rfl, hsent'⟩ := hf a s' t' out' s'' ht' hall₂
    have hnone : sent t' = [] := hsent'
    exact ⟨ps, hps, by rw [sent_append, hsent, hnone, List.append_nil]⟩
  | err e => exact h
  | panic => exact h

/-- The replies to a set whose rows were `rows`, ended by `failure`. -/
def setReply (deps : SessionDeps) (s : TextSet) (failure : Option String) : List Bytes :=
  match failure with
  | none => s.reply deps
  | some _ => s.count :: s.body deps

theorem replyResultSet_delivers (hP : ∀ e, P e → Took e) (deps : SessionDeps)
    (seq : SequenceCounter) (conn : ConnId) (set : TextSet)
    (hrows : ∀ r, P ⟨.rows conn, r⟩ → r.1 = set.rows) {L : List Bytes → Prop}
    (hL : ∃ failure, L (setReply deps set failure))
    (hyields : ∀ r, P ⟨.rows conn, r⟩ → L (setReply deps set r.2)) (s : Unit) :
    Delivers M P (replyResultSet deps seq conn set.cols) seq L s := by
  obtain ⟨failure, hfailure⟩ := hL
  have hsplit (failure : Option String) : ∃ qs, setReply deps set failure =
      [set.count] ++ (set.cols.map columnDefPacket ++ (set.rows.map (rowText deps) ++ qs)) := by
    cases failure with
    | none => exact ⟨[okEofPacket 0 0], by simp [setReply, TextSet.reply, TextSet.body]⟩
    | some e => exact ⟨[], by simp [setReply, TextSet.body]⟩
  obtain ⟨qs, hqs⟩ := hsplit failure
  rw [hqs] at hfailure
  refine delivers_bind (sends_reply hP seq _ s) ⟨_, hfailure⟩ fun s₁ => ?_
  refine delivers_bind (sends_replyAll hP _ _ s₁) ⟨_, hfailure⟩ fun s₂ => ?_
  refine delivers_call (fun _ _ => rfl) ?_
  rintro ⟨rows, failure'⟩ s₃ _ hr
  obtain rfl : rows = set.rows := hrows _ hr
  have hreply : L (setReply deps set failure') := hyields _ hr
  refine delivers_bind (sends_replyRows hP deps _ _ s₃) ⟨_, hfailure⟩ fun s₄ => ?_
  cases failure' with
  | some e =>
    refine delivers_halt ?_
    simpa [setReply, TextSet.count, TextSet.body] using hreply
  | none =>
    refine delivers_reply hP ?_ fun _ _ => delivers_halt rfl
    simpa [setReply, TextSet.reply, TextSet.count, TextSet.body] using hreply

theorem replyResult_ok (hP : ∀ e, P e → Took e) (deps : SessionDeps) (seq : SequenceCounter)
    (conn : ConnId) {cols : Option (List Column)} (hcols : cols = none ∨ cols = some [])
    {L : List Bytes → Prop} (hL : L [okPacket]) (s : Unit) :
    Delivers M P (replyResult deps seq conn cols) seq L s := by
  have hdrop : replyResult deps seq conn cols = .call (.dropResult conn) fun _ =>
      (reply seq okPacket).bind fun _ => .halt (.ok 0) := by
    obtain rfl | rfl := hcols <;> rfl
  rw [hdrop]
  refine delivers_call (fun _ _ => rfl) fun _ s' _ _ => ?_
  exact delivers_reply hP hL fun _ _ => delivers_halt rfl

theorem replyResult_set (deps : SessionDeps) (seq : SequenceCounter) (conn : ConnId)
    (set : TextSet) : replyResult deps seq conn (some set.cols) =
      replyResultSet deps seq conn set.cols := by
  obtain ⟨c, cs, hcols⟩ := List.exists_cons_of_ne_nil set.cols_ne
  rw [hcols]
  rfl

/-- What is relayed of the result that the query started with. -/
theorem replyResult_delivers (hP : ∀ e, P e → Took e ∧ O.Answers e) (deps : SessionDeps)
    (seq : SequenceCounter) (conn : ConnId) {cols : Option (List Column)}
    (hstart : O.Starts (.ok cols)) (s : Unit) :
    Delivers M P (replyResult deps seq conn cols) seq (O.Replies deps) s := by
  have htook (e : SessionEvent) (h : P e) : Took e := (hP e h).1
  have hyields (r : List Row × Option String) (h : P ⟨.rows conn, r⟩) : O.Yields r := (hP _ h).2
  have hok (h : (.ok cols : Except String (Option (List Column))) = .ok none ∨
      (.ok cols : Except String (Option (List Column))) = .ok (some [])) :
      cols = none ∨ cols = some [] := h.imp Except.ok.inj Except.ok.inj
  cases O with
  | failed reason => cases hstart
  | broken set reason =>
    obtain rfl := Except.ok.inj hstart
    rw [replyResult_set]
    have hL : (BackendOutcome.broken set reason).Replies deps (setReply deps set (some reason)) :=
      rfl
    refine replyResultSet_delivers htook deps seq conn set ?_ ⟨some reason, hL⟩ ?_ s
    · intro r hr
      rw [hyields r hr]
    · intro r hr
      rw [hyields r hr]
      rfl
  | last result =>
    cases result with
    | ok affectedRows lastInsertId =>
      have hL : (BackendOutcome.last (.ok affectedRows lastInsertId)).Replies deps [okPacket] := rfl
      exact replyResult_ok htook deps seq conn (hok hstart) hL s
    | set set =>
      obtain rfl := Except.ok.inj hstart
      have hL : (BackendOutcome.last (.set set)).Replies deps (setReply deps set none) := rfl
      rw [replyResult_set]
      refine replyResultSet_delivers htook deps seq conn set ?_ ⟨none, hL⟩ ?_ s
      · intro r hr
        rw [hyields r hr]
      · intro r hr
        rw [hyields r hr]
        rfl
  | more result rest =>
    cases result with
    | ok affectedRows lastInsertId =>
      have hL : (BackendOutcome.more (.ok affectedRows lastInsertId) rest).Replies deps
          [okPacket] := rfl
      exact replyResult_ok htook deps seq conn (hok hstart) hL s
    | set set =>
      obtain rfl := Except.ok.inj hstart
      have hL : (BackendOutcome.more (.set set) rest).Replies deps (setReply deps set none) :=
        Or.inl rfl
      rw [replyResult_set]
      refine replyResultSet_delivers htook deps seq conn set ?_ ⟨none, hL⟩ ?_ s
      · intro r hr
        obtain hr | ⟨reason, -, hr⟩ := hyields r hr
        · rw [hr]
        · rw [hr]
      · intro r hr
        obtain hr | ⟨reason, -, hr⟩ := hyields r hr
        · rw [hr]
          exact Or.inl rfl
        · rw [hr]
          exact Or.inr rfl

theorem runQueryOn_delivers (hP : ∀ e, P e → Took e ∧ O.Answers e) (ctx : SessionCtx)
    (seq : SequenceCounter) (sql : String) (conn : ConnId) (s : Unit) :
    Delivers M P (runQueryOn ctx seq sql conn) seq (O.Replies ctx.deps) s := by
  have htook (e : SessionEvent) (h : P e) : Took e := (hP e h).1
  rw [runQueryOn_eq]
  refine delivers_call (fun _ _ => rfl) ?_
  intro r s₁ _ hr
  have hstart : O.Starts r := (hP _ hr).2
  cases r with
  | ok cols =>
    refine delivers_then (replyResult_delivers hP ctx.deps seq conn hstart s₁) fun n s₂ => ?_
    exact delivers_call (fun _ _ => rfl) fun _ _ _ _ => delivers_halt rfl
  | error e =>
    have hfailed : O.Replies ctx.deps [errPacket 1815 "HY000" "query execution failed"] := by
      cases O with
      | failed reason => rfl
      | broken set reason => cases hstart
      | last result => cases result <;> simp [BackendOutcome.Starts] at hstart
      | more result rest => cases result <;> simp [BackendOutcome.Starts] at hstart
    refine delivers_call (fun _ _ => rfl) fun _ s₂ _ _ => ?_
    exact delivers_reply htook hfailed fun _ _ => delivers_halt rfl

end

/-- The pool gave the session a connection. -/
def GotConnection (t : List SessionEvent) : Prop := ∃ conn, ⟨.poolGet, .ok conn⟩ ∈ t

theorem failQuery_uses (ctx : SessionCtx) (seq : SequenceCounter) (sql cause message : String) :
    (failQuery ctx seq sql cause message).Uses fun o => o ≠ SessionOp.poolGet := by
  have hreply (payload : Bytes) : (reply seq payload).Uses fun o => o ≠ SessionOp.poolGet := by
    apply uses_mono _ (reply_uses seq payload)
    intro o ho hget
    rw [hget] at ho
    exact ho
  refine uses_bind (uses_call.mpr ⟨nofun, fun _ => trivial⟩) fun _ => ?_
  exact uses_bind (hreply _) fun _ => trivial

theorem handleComQuery_delivers {ctx : SessionCtx} {sql : String} {O : BackendOutcome}
    (hallow : mysqlVerdict ctx sql = .allow) (s : Unit) :
    wp (mysqlSem ctx) (handleComQuery ctx 1 sql) (fun t _ _ => GotConnection t →
      (∀ e ∈ t, Took e ∧ O.Answers e) →
        ∃ ps, O.Replies ctx.deps ps ∧ sent t = packets 1 (ps.takeWhile Fits)) s := by
  rw [handleComQuery_eq]
  refine wp_call.mpr ?_
  intro verdict s₁ hverdict
  obtain rfl : verdict = .allow := hverdict.trans hallow
  refine wp_call.mpr ?_
  intro answer s₂ _
  cases answer with
  | error e =>
    intro t out s' ht hgot
    obtain ⟨conn, hmem⟩ := hgot
    have huses := ht.stops.uses (failQuery_uses ctx 1 sql _ _)
    have hlate : (⟨.poolGet, .ok conn⟩ : SessionEvent) ∈ t := by simpa using hmem
    exact absurd rfl (huses _ hlate)
  | ok conn =>
    have hrun := runQueryOn_delivers (M := mysqlSem ctx) (P := fun e => Took e ∧ O.Answers e)
      (fun e h => h) ctx 1 sql conn s₂
    refine wp_finally.mpr (wp_mono hrun ?_)
    intro t out s' h
    have hfinal (rest : List SessionEvent) (hrest : sent rest = [])
        (hall : ∀ e ∈ (⟨.evaluate sql, .allow⟩ :: ⟨.poolGet, .ok conn⟩ :: (t ++ rest) :
          List SessionEvent), Took e ∧ O.Answers e) :
        ∃ ps, O.Replies ctx.deps ps ∧
          sent (t ++ rest) = packets 1 (ps.takeWhile Fits) := by
      simp only [List.forall_mem_cons, List.forall_mem_append] at hall
      rw [sent_append, hrest, List.append_nil]
      exact h hall.2.2.1
    cases out with
    | panic =>
      intro _ hall
      have hpart := hfinal [] rfl
      rw [List.append_nil] at hpart
      exact hpart hall
    | ok a => exact fun r s'' _ _ hall => hfinal [⟨.poolPut conn, r⟩] rfl hall
    | err e => exact fun r s'' _ _ hall => hfinal [⟨.poolPut conn, r⟩] rfl hall

theorem comQuery_sent {ctx : SessionCtx} {O : BackendOutcome}
    {turn : Turn sessionSig Unit Bytes} {out : Outcome RouterError (Option Unit)} {sql : String}
    (h : (serveSession ctx).Handled (mysqlSem ctx) () () turn out)
    (hquery : comQuery turn.msg = some sql) (hallow : mysqlVerdict ctx sql = .allow)
    (hconn : GotConnection turn.trace) (htook : ClientTook turn.trace)
    (hO : ∀ e ∈ turn.trace, O.Answers e) :
    ∃ ps, O.Replies ctx.deps ps ∧ sent turn.trace = packets 1 (ps.takeWhile Fits) := by
  obtain ⟨b, pkt, t⟩ := turn
  obtain ⟨_, _, s, _, _, _, _, hturn⟩ := h
  obtain ⟨body, rfl, rfl⟩ := comQuery_eq_some hquery
  have hhandle : wp (mysqlSem ctx) (handleCommand ctx (0x03 :: body)) (fun t _ _ =>
      GotConnection t → (∀ e ∈ t, Took e ∧ O.Answers e) →
        ∃ ps, O.Replies ctx.deps ps ∧ sent t = packets 1 (ps.takeWhile Fits)) s := by
    rw [handleCommand_query]
    exact wp_bind_halt.mpr (handleComQuery_delivers hallow s)
  exact hhandle _ _ _ hturn hconn fun e he => ⟨htook e he, hO e he⟩

/-- `UPDATE t SET a = 1` -/
def updateBody : Bytes := [0x55, 0x50, 0x44, 0x41, 0x54, 0x45, 0x20, 0x74, 0x20, 0x53, 0x45, 0x54,
  0x20, 0x61, 0x20, 0x3D, 0x20, 0x31]

def updateTree : List Statement :=
  [.of .update [.mk (.table (bareName "t") []) []] [] [.other []] []]

def updateCtx : SessionCtx where
  deps := { sampleDeps with sqlparser := parserOf "UPDATE t SET a = 1" updateTree }
  envName := "stage"
  clientUser := "alice"
  policy := .custom true false false

theorem update_allowed : mysqlVerdict updateCtx (Str.fromUtf8Lossy updateBody) = .allow := by
  decide

theorem updateTurn_handled : (serveSession updateCtx).Handled (mysqlSem updateCtx) () ()
    (okTurn updateCtx updateBody) (.ok (some ())) := by
  have hread : Exec (mysqlSem updateCtx) readCommand ()
      [⟨.recv 4, .ok [19, 0, 0, 0]⟩, ⟨.recv 19, .ok (0x03 :: updateBody)⟩]
      (.ok (some (0x03 :: updateBody))) () :=
    .step (fun bytes h => by cases h; rfl) (.step (fun bytes h => by cases h; rfl) (.halt _ _))
  exact okTurn_handled update_allowed hread

theorem okTurn_answers (ctx : SessionCtx) (body : Bytes) (affectedRows lastInsertId : UInt64) :
    ∀ e ∈ (okTurn ctx body).trace,
      (BackendOutcome.last (.ok affectedRows lastInsertId)).Answers e := by
  simp [okTurn, BackendOutcome.Answers, BackendOutcome.Starts]

theorem okTurn_took (ctx : SessionCtx) (body : Bytes) : ClientTook (okTurn ctx body).trace := by
  simp [okTurn, ClientTook, Took]

theorem okTurn_conn (ctx : SessionCtx) (body : Bytes) :
    GotConnection (okTurn ctx body).trace := ⟨7, by simp [okTurn]⟩

end MiddleWhere.Net
