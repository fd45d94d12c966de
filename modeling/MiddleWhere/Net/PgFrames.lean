import MiddleWhere.Effects.Answers
import MiddleWhere.Net.Ledger
import MiddleWhere.Net.PgServer

/-!
# What a Postgres session writes

Every frame is one write. A program that only writes frames succeeds exactly when the
client takes them and each frame has a length that its header can hold; what it then wrote
is the list of its frames.
-/

namespace MiddleWhere.Net
open Prog
open Outcome (safe_ok safe_err)

abbrev Frame := Outcome PgProtoError Bytes

/-- The frame's length fits its header. -/
def Framed (f : Frame) : Prop := ∃ bytes, f = .ok bytes

/-- The writes that the client's socket took. -/
def written (t : List SessionEvent) : List Bytes :=
  t.filterMap fun
    | ⟨.write bytes, .ok ()⟩ => some bytes
    | _ => none

@[simp] theorem written_nil : written [] = [] := rfl

@[simp] theorem written_append (t t' : List SessionEvent) :
    written (t ++ t') = written t ++ written t' := List.filterMap_append

@[simp] theorem written_write_ok (bytes : Bytes) (t : List SessionEvent) :
    written (⟨.write bytes, .ok ()⟩ :: t) = bytes :: written t := rfl

theorem written_cons_of_not_toClient {e : SessionEvent} {t : List SessionEvent}
    (h : ¬ e.op.toClient) : written (e :: t) = written t := by
  obtain ⟨o, r⟩ := e
  cases o with
  | write bytes => exact absurd trivial h
  | _ => rfl

/-! ## Tags -/

def tagByte (tag : Char) : UInt8 := UInt8.ofNat tag.toNat

theorem msg_head {ε : Type} {tag : Char} {payload bytes : Bytes}
    (h : (msg tag payload : Outcome ε Bytes) = .ok bytes) : bytes.head? = some (tagByte tag) := by
  unfold msg at h
  dsimp only at h
  split_ifs at h with hlen
  rw [← Outcome.ok.inj h]
  rfl

theorem be_length (width : ℕ) (n : ℤ) : (be width n).length = width := by
  unfold be
  rw [List.length_reverse, List.length_map, List.length_range]

theorem msg_payload {ε : Type} {tag : Char} {payload bytes : Bytes}
    (h : (msg tag payload : Outcome ε Bytes) = .ok bytes) : bytes.drop 5 = payload := by
  unfold msg at h
  dsimp only at h
  split_ifs at h with hlen
  rw [← Outcome.ok.inj h, List.cons_append, List.drop_succ_cons]
  exact List.drop_left' (be_length 4 _)

theorem asI32_of_lt {n : ℕ} (h : n < 2 ^ 31) : asI32 n = n := by
  have hmod : n % 2 ^ (8 * 4) = n := Nat.mod_eq_of_lt (by omega)
  unfold asI32 signed
  rw [hmod, if_pos (by omega)]

theorem framed_msg {tag : Char} {payload : Bytes} (h : payload.length + 4 < 2 ^ 31) :
    Framed (msg tag payload) := by
  have hlen : asI32 payload.length = payload.length := asI32_of_lt (by omega)
  unfold msg
  rw [hlen]
  exact ⟨_, if_pos (by omega)⟩

theorem framed_msg_nil {tag : Char} : Framed (msg tag []) := framed_msg (by decide)

theorem cstr_length (s : String) : (cstr s).length = Str.len s + 1 := by
  unfold cstr Str.len
  rw [List.length_append, List.length_singleton]

theorem framed_errorResponse {sqlstate message : String}
    (h : Str.len sqlstate + Str.len message < 2 ^ 30) :
    Framed (errorResponse sqlstate message) := by
  have hS : (Str.asBytes "S").length = 1 := by decide
  have hV : (Str.asBytes "V").length = 1 := by decide
  have hC : (Str.asBytes "C").length = 1 := by decide
  have hM : (Str.asBytes "M").length = 1 := by decide
  have hseverity : Str.len "ERROR" = 5 := by decide
  apply framed_msg
  simp only [List.length_append, cstr_length, hS, hV, hC, hM, hseverity, List.length_singleton]
  omega

/-! ## Writing frames -/

def writeFrames : List Frame → SessionProg EngineError Unit
  | [] => pure ()
  | f :: fs => do
    writeRaw f
    writeFrames fs

section
variable {M : Sem sessionSig Unit}

theorem writeRaw_ok (bytes : Bytes) : writeRaw (.ok bytes) =
    .call (.write bytes) fun r => Prog.ofExcept (r.mapError fun e => (PgProtoError.io e).toEngine) :=
  rfl

theorem writeRaw_succeedsIff (f : Frame) (s : Unit) :
    SucceedsIff M Took (writeRaw f) (Framed f) s := by
  cases f with
  | ok bytes =>
    have hanswer : SucceedsIff M Took (writeRaw (.ok bytes)) True s := by
      rw [writeRaw_ok]
      apply succeedsIff_answer
      intro r
      cases r <;> simp [Took, Except.mapError]
    exact hanswer.congr ⟨fun _ => ⟨bytes, rfl⟩, fun _ => trivial⟩
  | err e => exact (succeedsIff_err e.toEngine s).congr (by simp [Framed])
  | panic => exact (succeedsIff_panic s).congr (by simp [Framed])

theorem writeFrames_succeedsIff (fs : List Frame) (s : Unit) :
    SucceedsIff M Took (writeFrames fs) (∀ f ∈ fs, Framed f) s := by
  induction fs generalizing s with
  | nil => exact (succeedsIff_ok () s).congr (by simp)
  | cons f fs ih =>
    have hcons := (writeRaw_succeedsIff (M := M) f s).bind fun _ s' => ih s'
    exact hcons.congr (by rw [List.forall_mem_cons])

theorem writeRaw_written (f : Frame) (s : Unit) :
    wp M (writeRaw f) (fun t out _ => out = .ok () → f :: [] = (written t).map .ok) s := by
  cases f with
  | ok bytes =>
    rw [writeRaw_ok, wp_call]
    intro r s' _
    cases r with
    | ok u => exact wp_halt.mpr fun _ => rfl
    | error e => exact wp_halt.mpr nofun
  | err e => exact wp_halt.mpr nofun
  | panic => exact wp_halt.mpr nofun

/-- What was written is the list of the frames. -/
theorem writeFrames_written (fs : List Frame) (s : Unit) :
    wp M (writeFrames fs) (fun t out _ => out = .ok () → fs = (written t).map .ok) s := by
  induction fs generalizing s with
  | nil => exact wp_halt.mpr fun _ => rfl
  | cons f fs ih =>
    refine wp_bind.mpr (wp_mono (writeRaw_written f s) ?_)
    intro t out s' hf
    cases out with
    | ok u =>
      refine wp_mono (ih s') ?_
      intro t' out' _ hfs hout
      rw [written_append, List.map_append, ← hf rfl, ← hfs hout]
      rfl
    | err e => exact nofun
    | panic => exact nofun

end

theorem writeFrames_uses (fs : List Frame) : (writeFrames fs).Uses SessionOp.toClient := by
  induction fs with
  | nil => trivial
  | cons f fs ih => exact uses_bind (writeRaw_uses f) fun _ => ih

/-! ## Frames that are not ReadyForQuery -/

def readyFrame : Bytes := [0x5A, 0, 0, 0, 5, 0x49]

theorem readyForQuery_eq {ε : Type} : (readyForQuery : Outcome ε Bytes) = .ok readyFrame := by
  unfold readyForQuery msg
  exact if_pos (by decide)

/-- No frame with the tag of ReadyForQuery is written. -/
def Unready : SessionOp → Prop
  | .write bytes => bytes.head? ≠ some 0x5A
  | _ => True

def UnreadyFrame (f : Frame) : Prop := ∀ bytes, f = .ok bytes → bytes.head? ≠ some 0x5A

theorem unreadyFrame_msg {tag : Char} {payload : Bytes} (h : tagByte tag ≠ 0x5A) :
    UnreadyFrame (msg tag payload) := by
  intro bytes hf
  rw [msg_head hf]
  exact fun heq => h (Option.some.inj heq)

theorem writeRaw_unready {f : Frame} (h : UnreadyFrame f) : (writeRaw f).Uses Unready := by
  cases f with
  | ok bytes => exact ⟨h bytes rfl, fun _ => uses_ofExcept _⟩
  | err e => trivial
  | panic => trivial

theorem writeFrames_unready {fs : List Frame} (h : ∀ f ∈ fs, UnreadyFrame f) :
    (writeFrames fs).Uses Unready := by
  induction fs with
  | nil => trivial
  | cons f fs ih =>
    obtain ⟨hf, hfs⟩ := List.forall_mem_cons.mp h
    exact uses_bind (writeRaw_unready hf) fun _ => ih hfs

/-! ## The frames of a result -/

theorem writeFrames_append (fs gs : List Frame) :
    writeFrames (fs ++ gs) = (writeFrames fs).bind fun _ => writeFrames gs := by
  induction fs with
  | nil => rfl
  | cons f fs ih =>
    rw [List.cons_append, writeFrames, writeFrames, ih, bind_eq, bind_eq, bind_assoc]

theorem writeFrames_single (f : Frame) : writeFrames [f] = writeRaw f := bind_ok (writeRaw f)

theorem writeRows_eq (rows : List (List (Option Bytes))) :
    writeRows rows = writeFrames (rows.map dataRow) := by
  induction rows with
  | nil => rfl
  | cons row rows ih => rw [writeRows, List.map_cons, writeFrames, ih]

/-- Execute: the rows and the command tag. -/
def rowsOnlyFrames (rs : ResultSet) : List Frame := rs.rows.map dataRow ++ [commandComplete rs.tag]

/-- A simple query: the columns as well, when there are any. -/
def resultSetFrames (rs : ResultSet) : List Frame :=
  (if rs.cols.isEmpty then [noData]
    else rowDescription (rs.cols.map fun n => (n, 25)) :: rs.rows.map dataRow) ++
    [commandComplete rs.tag]

theorem writeRowsOnly_eq (rs : ResultSet) : writeRowsOnly rs = writeFrames (rowsOnlyFrames rs) := by
  rw [rowsOnlyFrames, writeFrames_append, writeFrames_single, ← writeRows_eq]
  rfl

theorem writeResultSet_eq (rs : ResultSet) :
    writeResultSet rs = writeFrames (resultSetFrames rs) := by
  rw [resultSetFrames, writeFrames_append, writeFrames_single, writeResultSet]
  split_ifs with hcols
  · rw [writeFrames_single]
    rfl
  · rw [writeFrames, ← writeRows_eq]
    simp only [bind_eq, bind_assoc]

theorem rowsOnlyFrames_unready (rs : ResultSet) : ∀ f ∈ rowsOnlyFrames rs, UnreadyFrame f := by
  intro f hf
  rcases List.mem_append.mp hf with hrow | htag
  · obtain ⟨row, -, rfl⟩ := List.mem_map.mp hrow
    exact unreadyFrame_msg (by decide)
  · rw [List.mem_singleton.mp htag]
    exact unreadyFrame_msg (by decide)

theorem resultSetFrames_unready (rs : ResultSet) : ∀ f ∈ resultSetFrames rs, UnreadyFrame f := by
  intro f hf
  rcases List.mem_append.mp hf with hrow | htag
  · split_ifs at hrow with hcols
    · rw [List.mem_singleton.mp hrow]
      exact unreadyFrame_msg (by decide)
    · rcases List.mem_cons.mp hrow with rfl | hrow
      · exact unreadyFrame_msg (by decide)
      · obtain ⟨row, -, rfl⟩ := List.mem_map.mp hrow
        exact unreadyFrame_msg (by decide)
  · rw [List.mem_singleton.mp htag]
    exact unreadyFrame_msg (by decide)

/-! ## Running a text -/

section
variable (ctx : SessionCtx) (write : ResultSet → SessionProg EngineError Unit)

/-- A refusal: an ErrorResponse, and the answer that the text did not run. -/
def refuse (sqlstate message : String) : SessionProg EngineError Bool := do
  writeRaw (errorResponse sqlstate message)
  return false

/-- The part that holds a connection. -/
def runOn (sql : String) (conn : ConnId) : SessionProg EngineError Bool :=
  .call (.simpleQuery conn sql) fun
    | .error _ => .call (.emit (ctx.event sql .deny (some "backend error") none)) fun _ =>
      refuse sqlstateInternal "query failed"
    | .ok msgs => (write (resultSet sql msgs)).bind fun _ =>
      .call (.emit (ctx.event sql .allow none
        (some (UInt64.ofNat (resultSet sql msgs).rows.length)))) fun _ => .halt (.ok true)

theorem firewalled_eq (sql : String) : firewalled write ctx sql = .call (.evaluate sql) fun
    | .deny reason => .call (.emit (ctx.event sql .deny (some reason) none)) fun _ =>
      refuse sqlstateInsufficientPrivilege reason
    | .allow => .call .poolGet fun
      | .error _ => refuse sqlstateInternal "backend unavailable"
      | .ok conn => withConn conn (runOn ctx write sql conn) := by
  refine congrArg (Prog.call _) (funext fun verdict => ?_)
  cases verdict with
  | deny reason => rfl
  | allow =>
    refine congrArg (Prog.call _) (funext fun conn => ?_)
    cases conn with
    | error e => rfl
    | ok conn =>
      refine congrArg (withConn conn) (congrArg (Prog.call _) (funext fun r => ?_))
      cases r <;> rfl

theorem refuse_unready (sqlstate message : String) : (refuse sqlstate message).Uses Unready :=
  uses_bind (writeRaw_unready (unreadyFrame_msg (by decide))) fun _ => trivial

theorem withConn_unready {ε α : Type} {conn : ConnId} {body : SessionProg ε α}
    (h : body.Uses Unready) : (withConn conn body).Uses Unready :=
  uses_finally trivial h

variable {write} in
theorem firewalled_unready (hwrite : ∀ rs, (write rs).Uses Unready) (sql : String) :
    (firewalled write ctx sql).Uses Unready := by
  rw [firewalled_eq]
  refine ⟨trivial, fun verdict => ?_⟩
  cases verdict with
  | deny reason => exact ⟨trivial, fun _ => refuse_unready _ _⟩
  | allow =>
    refine ⟨trivial, fun conn => ?_⟩
    cases conn with
    | error e => exact refuse_unready _ _
    | ok conn =>
      apply withConn_unready
      refine ⟨trivial, fun r => ?_⟩
      cases r with
      | error e => exact ⟨trivial, fun _ => refuse_unready _ _⟩
      | ok msgs => exact uses_bind (hwrite _) fun _ => ⟨trivial, fun _ => trivial⟩

end

/-! ## The handlers, without their reads of the body -/

theorem readCstr_eq {ε : Type} {body : Bytes} {pos : ℕ} (h : pos ≤ body.length) :
    (readCstr body pos : Outcome ε (String × ℕ)) =
      .ok (queryText (body.drop pos),
        let stop := pos + ((body.drop pos).takeWhile (· ≠ 0)).length
        if stop < body.length then stop + 1 else stop) := by
  have hfront : (body.drop pos).takeWhile (· ≠ 0) <+: body.drop pos := List.takeWhile_prefix _
  have htake : (body.drop pos).take ((body.drop pos).takeWhile (· ≠ 0)).length =
      (body.drop pos).takeWhile (· ≠ 0) := (List.prefix_iff_eq_take.mp hfront).symm
  have hle := hfront.length_le
  rw [List.length_drop] at hle
  unfold readCstr
  dsimp only
  rw [Outcome.slice_of_le (by omega) (by omega), Outcome.ok_bind, Nat.add_sub_cancel_left, htake]
  rfl

theorem readCstr_zero {ε : Type} (body : Bytes) :
    ∃ p, (readCstr body 0 : Outcome ε (String × ℕ)) = .ok (queryText body, p) :=
  ⟨_, readCstr_eq (Nat.zero_le _)⟩

theorem parseExecute_eq {ε : Type} (body : Bytes) :
    (parseExecute body : Outcome ε (Option String)) = .ok (some (queryText body)) := by
  obtain ⟨p, hread⟩ := readCstr_zero (ε := ε) body
  unfold parseExecute
  rw [hread, Outcome.ok_bind]
  rfl

theorem onQuery_eq (ctx : SessionCtx) (st : PgState) (body : Bytes) : onQuery ctx st body =
    if (Str.trim (queryText body).toList).isEmpty then
      (writeRaw emptyQueryResponse).bind fun _ => (writeRaw readyForQuery).bind fun _ =>
        .halt (.ok (some st))
    else (firewalledExec ctx (queryText body)).bind fun _ => (writeRaw readyForQuery).bind fun _ =>
        .halt (.ok (some st)) := rfl

theorem onExecute_eq (ctx : SessionCtx) (st : PgState) (body : Bytes) : onExecute ctx st body =
    if st.skipUntilSync then .halt (.ok (some st))
    else match st.portals[queryText body]? with
      | none => failUntilSync st sqlstateInternal "unknown portal"
      | some portal => (execRowsOnly ctx portal.sql).bind fun ran =>
        .halt (.ok (some (if ran then st else { st with skipUntilSync := true }))) := by
  unfold onExecute
  split_ifs with hskip
  · rfl
  · rw [parseExecute_eq]
    simp only [lift, bind_eq, halt_ok_bind, Option.getD_some, pure_eq]
    cases st.portals[queryText body]? with
    | none => rfl
    | some portal =>
      refine congrArg (Prog.bind _) (funext fun ran => ?_)
      cases ran <;> rfl

end MiddleWhere.Net
