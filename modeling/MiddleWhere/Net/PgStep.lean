import MiddleWhere.Effects.Returns
import MiddleWhere.Net.PgFrames

/-!
# One message of a Postgres session

`PgStep` lists all that the session can do with a message it handles to the end: what it
wrote, which answers of the backend it used, and the tables it left behind. Every property of
the session's runs is read off this list.
-/

namespace MiddleWhere.Net
open Prog Firewall

abbrev PgTurn := Turn sessionSig PgState (UInt8 × Bytes)

/-- All that was written, frame by frame. -/
def Replied (fs : List Frame) (t : List SessionEvent) : Prop := (written t).map .ok = fs

theorem replied_nil : Replied [] [] := rfl

theorem Replied.append {fs gs : List Frame} {t t' : List SessionEvent} (h : Replied fs t)
    (h' : Replied gs t') : Replied (fs ++ gs) (t ++ t') := by
  unfold Replied
  rw [written_append, List.map_append, h, h']

theorem Replied.cons {fs : List Frame} {e : SessionEvent} {t : List SessionEvent}
    (h : Replied fs t) (he : ¬ e.op.toClient) : Replied fs (e :: t) := by
  unfold Replied
  rw [written_cons_of_not_toClient he]
  exact h

theorem Replied.concat {fs : List Frame} {e : SessionEvent} {t : List SessionEvent}
    (h : Replied fs t) (he : ¬ e.op.toClient) : Replied fs (t ++ [e]) := by
  have hlast : Replied [] [e] := replied_nil.cons he
  simpa using h.append hlast

theorem Replied.written_nil {t : List SessionEvent} (h : Replied [] t) : written t = [] :=
  List.map_eq_nil_iff.mp h

/-! ## What is written, by type -/

/-- The type bytes of what was written. -/
def sentTags (t : List SessionEvent) : List (Option UInt8) := (written t).map List.head?

def frameTag : Frame → Option UInt8
  | .ok bytes => bytes.head?
  | _ => none

theorem Replied.sentTags_eq {fs : List Frame} {t : List SessionEvent} (h : Replied fs t) :
    sentTags t = fs.map frameTag := by
  rw [← h, List.map_map]
  rfl

theorem Replied.framed {fs : List Frame} {t : List SessionEvent} (h : Replied fs t) {f : Frame}
    (hf : f ∈ fs) : Framed f := by
  rw [← h] at hf
  obtain ⟨bytes, -, rfl⟩ := List.mem_map.mp hf
  exact ⟨bytes, rfl⟩

theorem frameTag_msg {tag : Char} {payload : Bytes} (h : Framed (msg tag payload)) :
    frameTag (msg tag payload) = some (tagByte tag) := by
  obtain ⟨bytes, hbytes⟩ := h
  rw [hbytes]
  exact msg_head hbytes

theorem Replied.sentTags_msg {tag : Char} {payload : Bytes} {t : List SessionEvent}
    (h : Replied [msg tag payload] t) : sentTags t = [some (tagByte tag)] := by
  rw [h.sentTags_eq, List.map_singleton, frameTag_msg (h.framed (List.mem_singleton_self _))]

theorem frameTag_msg_ne {tag : Char} {payload : Bytes} {b : UInt8} (h : tagByte tag ≠ b) :
    frameTag (msg tag payload) ≠ some b := by
  cases hmsg : (msg tag payload : Frame) with
  | ok bytes =>
    rw [frameTag, msg_head hmsg]
    exact fun heq => h (Option.some.inj heq)
  | err e => exact nofun
  | panic => exact nofun

/-! ## Frames written -/

section
variable {M : Sem sessionSig Unit}

theorem writeFrames_replied (fs : List Frame) (s : Unit) :
    Returns M (writeFrames fs) (fun t _ _ => Replied fs t) s :=
  wp_mono (writeFrames_written fs s) fun _ _ _ h _ hout => (h hout).symm

theorem writeRaw_replied (f : Frame) (s : Unit) :
    Returns M (writeRaw f) (fun t _ _ => Replied [f] t) s := by
  rw [← writeFrames_single]
  exact writeFrames_replied [f] s

/-- A client that takes everything is sent all the frames. -/
theorem writeFrames_exec (hM : ∀ bytes, M () (.write bytes) (.ok ()) ()) {fs : List Frame}
    (hfs : ∀ f ∈ fs, Framed f) : ∃ t, Exec M (writeFrames fs) () t (.ok ()) () := by
  induction fs with
  | nil => exact ⟨[], .halt _ _⟩
  | cons f fs ih =>
    obtain ⟨⟨bytes, rfl⟩, hrest⟩ := List.forall_mem_cons.mp hfs
    obtain ⟨t, ht⟩ := ih hrest
    have hwrite : Exec M (writeRaw (.ok bytes)) () [⟨.write bytes, .ok ()⟩] (.ok ()) () :=
      .step (hM bytes) (.halt _ _)
    exact ⟨_, hwrite.bind ht⟩

/-! ## Running a text -/

/-- A text that ran to the end, or was refused with one ErrorResponse. -/
def RanText (frames : ResultSet → List Frame) (sql : String) (t : List SessionEvent)
    (ran : Bool) : Prop :=
  if ran then ∃ conn msgs, ⟨.simpleQuery conn sql, .ok msgs⟩ ∈ t ∧
    Replied (frames (resultSet sql msgs)) t
  else ∃ sqlstate message, Replied [errorResponse sqlstate message] t

variable {frames : ResultSet → List Frame} {sql : String}

theorem RanText.cons {e : SessionEvent} {t : List SessionEvent} {ran : Bool}
    (h : RanText frames sql t ran) (he : ¬ e.op.toClient) : RanText frames sql (e :: t) ran := by
  cases ran with
  | true =>
    obtain ⟨conn, msgs, hmem, hreplied⟩ := h
    exact ⟨conn, msgs, List.mem_cons_of_mem _ hmem, hreplied.cons he⟩
  | false =>
    obtain ⟨sqlstate, message, hreplied⟩ := h
    exact ⟨sqlstate, message, hreplied.cons he⟩

theorem RanText.concat {e : SessionEvent} {t : List SessionEvent} {ran : Bool}
    (h : RanText frames sql t ran) (he : ¬ e.op.toClient) :
    RanText frames sql (t ++ [e]) ran := by
  cases ran with
  | true =>
    obtain ⟨conn, msgs, hmem, hreplied⟩ := h
    exact ⟨conn, msgs, List.mem_append_left _ hmem, hreplied.concat he⟩
  | false =>
    obtain ⟨sqlstate, message, hreplied⟩ := h
    exact ⟨sqlstate, message, hreplied.concat he⟩

variable (ctx : SessionCtx) {write : ResultSet → SessionProg EngineError Unit}

variable (frames sql) in
theorem refuse_ranText (sqlstate message : String) (s : Unit) :
    Returns M (refuse sqlstate message) (fun t ran _ => RanText frames sql t ran) s := by
  refine Returns.bind ((writeRaw_replied _ s).mono fun t _ _ ht => returns_ok ?_)
  rw [List.append_nil]
  exact ⟨sqlstate, message, ht⟩

theorem runOn_ranText (hwrite : ∀ rs, write rs = writeFrames (frames rs)) (conn : ConnId)
    (s : Unit) :
    Returns M (runOn ctx write sql conn) (fun t ran _ => RanText frames sql t ran) s := by
  refine returns_call fun r s' _ => ?_
  cases r with
  | error e =>
    refine returns_call fun _ s₁ _ => (refuse_ranText frames sql _ _ s₁).mono ?_
    exact fun t ran _ hran => (hran.cons (by nofun)).cons (by nofun)
  | ok msgs =>
    dsimp only
    rw [hwrite]
    refine Returns.bind ((writeFrames_replied _ s').mono fun t _ _ ht => ?_)
    refine returns_call fun _ _ _ => returns_ok ?_
    exact ⟨conn, msgs, List.mem_cons_self .., (ht.concat (by nofun)).cons (by nofun)⟩

theorem firewalled_ranText (hwrite : ∀ rs, write rs = writeFrames (frames rs)) (s : Unit) :
    Returns M (firewalled write ctx sql) (fun t ran _ => RanText frames sql t ran) s := by
  rw [firewalled_eq]
  refine returns_call fun verdict s₁ _ => ?_
  cases verdict with
  | deny reason =>
    refine returns_call fun _ s₂ _ => (refuse_ranText frames sql _ _ s₂).mono ?_
    exact fun t ran _ hran => (hran.cons (by nofun)).cons (by nofun)
  | allow =>
    refine returns_call fun conn s₂ _ => ?_
    cases conn with
    | error e =>
      refine (refuse_ranText frames sql _ _ s₂).mono ?_
      exact fun t ran _ hran => (hran.cons (by nofun)).cons (by nofun)
    | ok conn =>
      refine Returns.finally ((runOn_ranText ctx hwrite conn s₂).mono ?_)
      intro t ran s₃ hran _ _ _
      exact ((hran.concat (by nofun)).cons (by nofun)).cons (by nofun)

end

/-! ## The transitions -/

/-- What a Describe is answered with. -/
def metaFrames : Option (Option (List ℤ) × List (String × ℤ)) → List Frame
  | none => [noData]
  | some (oids, cols) => (oids.map parameterDescription).toList ++
      [if cols.isEmpty then noData else rowDescription cols]

/-- The tables after a Close. -/
def closed (st : PgState) : Option (UInt8 × String) → PgState
  | none => st
  | some (kind, name) =>
    if kind = 0x53 then { st with prepared := st.prepared.erase name }
    else { st with portals := st.portals.erase name }

def preparedOf (sql : String) (params : List UInt32) (cols : List (String × UInt32)) : Prepared :=
  ⟨sql, params.map fun oid => asI32 oid.toNat, cols.map fun (name, oid) => (name, asI32 oid.toNat)⟩

/-- The messages that the session knows. -/
def knownTags : List UInt8 := [0x51, 0x50, 0x42, 0x44, 0x45, 0x43, 0x48, 0x53, 0x58]

inductive PgStep (ctx : SessionCtx) (st : PgState) (t : List SessionEvent) :
    UInt8 × Bytes → Option PgState → Prop
  | skip {tag : UInt8} {body : Bytes} : st.skipUntilSync = true →
      tag ∈ ([0x50, 0x42, 0x44, 0x45] : List UInt8) → t = [] →
      PgStep ctx st t (tag, body) (some st)
  | refuse {tag : UInt8} {body : Bytes} {sqlstate message : String} :
      st.skipUntilSync = false → tag ∈ ([0x50, 0x42, 0x45] : List UInt8) →
      Replied [errorResponse sqlstate message] t →
      PgStep ctx st t (tag, body) (some { st with skipUntilSync := true })
  | parse {body : Bytes} {m : ParseMsg} {conn : ConnId} {params : List UInt32}
      {cols : List (String × UInt32)} : st.skipUntilSync = false →
      parseParse (ε := EngineError) body = .ok (some m) →
      ⟨.prepare conn m.query, .ok (params, cols)⟩ ∈ t → Replied [parseComplete] t →
      PgStep ctx st t (0x50, body)
        (some { st with prepared := st.prepared.insert m.stmt (preparedOf m.query params cols) })
  | bind {body : Bytes} {m : BindMsg} {prep : Prepared} {rendered : List String}
      {inlined : String} : st.skipUntilSync = false →
      parseBind (ε := EngineError) body = .ok (some m) → st.prepared[m.stmt]? = some prep →
      renderAll ctx.deps prep.paramOids m.paramFormats 0 m.params = .ok rendered →
      inlineParams (ε := EngineError) prep.sql rendered = .ok inlined →
      Replied [bindComplete] t →
      PgStep ctx st t (0x42, body)
        (some { st with portals := st.portals.insert m.portal ⟨m.stmt, inlined⟩ })
  | describe {body : Bytes} {target : Option (UInt8 × String)} : st.skipUntilSync = false →
      parseDescribeOrClose (ε := EngineError) body = .ok target →
      Replied (metaFrames (target.bind fun x => describe st x.1 x.2)) t →
      PgStep ctx st t (0x44, body) (some st)
  | execute {body : Bytes} {portal : Portal} : st.skipUntilSync = false →
      st.portals[queryText body]? = some portal → RanText rowsOnlyFrames portal.sql t true →
      PgStep ctx st t (0x45, body) (some st)
  | close {body : Bytes} {target : Option (UInt8 × String)} :
      parseDescribeOrClose (ε := EngineError) body = .ok target → Replied [closeComplete] t →
      PgStep ctx st t (0x43, body) (some (closed st target))
  | flush {body : Bytes} : t = [] → PgStep ctx st t (0x48, body) (some st)
  | sync {body : Bytes} : Replied [readyForQuery] t →
      PgStep ctx st t (0x53, body) (some { st with skipUntilSync := false })
  | terminate {body : Bytes} : t = [] → PgStep ctx st t (0x58, body) none
  | query {body : Bytes} {fs : List Frame} : (∀ f ∈ fs, UnreadyFrame f) →
      Replied (fs ++ [readyForQuery]) t → PgStep ctx st t (0x51, body) (some st)
  | unsupported {tag : UInt8} {body : Bytes} : tag ∉ knownTags →
      Replied [errorResponse sqlstateFeatureNotSupported "unsupported message", readyForQuery] t →
      PgStep ctx st t (tag, body) (some st)

section
variable {M : Sem sessionSig Unit} (ctx : SessionCtx) (st : PgState) (body : Bytes) (s : Unit)

variable {st} in
theorem failUntilSync_step (hskip : st.skipUntilSync = false) {tag : UInt8}
    (htag : tag ∈ ([0x50, 0x42, 0x45] : List UInt8)) (sqlstate message : String)
    {t₀ : List SessionEvent} (hquiet : Replied [] t₀) :
    Returns M (failUntilSync st sqlstate message)
      (fun t next _ => PgStep ctx st (t₀ ++ t) (tag, body) next) s := by
  refine Returns.bind ((writeRaw_replied _ s).mono fun t _ _ ht => returns_ok ?_)
  rw [List.append_nil]
  exact .refuse hskip htag (hquiet.append ht)

/-- The answer of the backend to a Parse. -/
def Described (sql : String) (t : List SessionEvent) :
    Except String (List ℤ × List (String × ℤ)) → Prop
  | .error _ => True
  | .ok (oids, cols) => ∃ conn params columns, ⟨.prepare conn sql, .ok (params, columns)⟩ ∈ t ∧
      preparedOf sql params columns = ⟨sql, oids, cols⟩

theorem backendDescribe_described (sql : String) : Returns M (backendDescribe sql)
    (fun t r _ => Replied [] t ∧ Described sql t r) s := by
  refine returns_call fun conn s₁ _ => ?_
  cases conn with
  | error e => exact returns_ok ⟨replied_nil.cons (by nofun), trivial⟩
  | ok conn =>
    refine Returns.finally (returns_call fun r s₂ _ => ?_)
    cases r with
    | error e =>
      refine returns_ok fun _ _ _ => ⟨?_, trivial⟩
      exact (replied_nil.cons (by nofun)).cons (by nofun) |>.cons (by nofun)
    | ok answer =>
      refine returns_ok fun _ _ _ => ⟨?_, conn, answer.1, answer.2, by simp, rfl⟩
      exact (replied_nil.cons (by nofun)).cons (by nofun) |>.cons (by nofun)

theorem onParse_step : Returns M (onParse ctx st body)
    (fun t next _ => PgStep ctx st t (0x50, body) next) s := by
  unfold onParse
  split_ifs with hskip
  · exact returns_ok (.skip hskip (by decide) rfl)
  · rw [Bool.not_eq_true] at hskip
    simp only [lift, bind_eq, Prog.pure_eq]
    cases hparse : (parseParse body : Outcome EngineError (Option ParseMsg)) with
    | panic => exact returns_panic
    | err e => exact returns_err
    | ok parsed =>
      cases parsed with
      | none => exact failUntilSync_step ctx body s hskip (by decide) _ _ replied_nil
      | some m =>
        refine returns_call fun verdict s₁ _ => ?_
        cases verdict with
        | deny reason =>
          refine returns_call fun r s₂ _ => ?_
          have hquiet : Replied [] [⟨.evaluate m.query, .deny reason⟩,
              ⟨.emit (ctx.event m.query .deny (some reason) none), r⟩] :=
            (replied_nil.cons (by simp [SessionOp.toClient])).cons
              (by simp [SessionOp.toClient])
          exact failUntilSync_step ctx body s₂ hskip (by decide) _ _ hquiet
        | allow =>
          simp only [halt_ok_bind]
          refine Returns.bind ((backendDescribe_described s₁ m.query).mono ?_)
          rintro t answer s₂ ⟨hreplied, hdescribed⟩
          have hquiet : Replied [] (⟨.evaluate m.query, .allow⟩ :: t) :=
            hreplied.cons (by simp [SessionOp.toClient])
          cases answer with
          | error e => exact failUntilSync_step ctx body s₂ hskip (by decide) _ _ hquiet
          | ok described =>
            obtain ⟨conn, params, columns, hmem, hprep⟩ := hdescribed
            refine Returns.bind ((writeRaw_replied _ s₂).mono fun t' _ _ ht' => returns_ok ?_)
            rw [← hprep, List.append_nil]
            have hprepare := List.mem_append_left t' (List.mem_cons_of_mem
              (⟨.evaluate m.query, .allow⟩ : SessionEvent) hmem)
            exact .parse hskip hparse hprepare (hquiet.append ht')

theorem onBind_step : Returns M (onBind ctx st body)
    (fun t next _ => PgStep ctx st t (0x42, body) next) s := by
  unfold onBind
  split_ifs with hskip
  · exact returns_ok (.skip hskip (by decide) rfl)
  · rw [Bool.not_eq_true] at hskip
    simp only [lift, bind_eq, Prog.pure_eq]
    cases hparse : (parseBind body : Outcome EngineError (Option BindMsg)) with
    | panic => exact returns_panic
    | err e => exact returns_err
    | ok parsed =>
      cases parsed with
      | none => exact failUntilSync_step ctx body s hskip (by decide) _ _ replied_nil
      | some m =>
        simp only [halt_ok_bind]
        cases hprep : st.prepared[m.stmt]? with
        | none => exact failUntilSync_step ctx body s hskip (by decide) _ _ replied_nil
        | some prep =>
          dsimp only
          cases hrender : renderAll ctx.deps prep.paramOids m.paramFormats 0 m.params with
          | panic => exact returns_panic
          | err e => exact failUntilSync_step ctx body s hskip (by decide) _ _ replied_nil
          | ok rendered =>
            dsimp only
            cases hinline : (inlineParams prep.sql rendered : Outcome EngineError String) with
            | panic => exact returns_panic
            | err e => exact returns_err
            | ok inlined =>
              simp only [halt_ok_bind]
              refine Returns.bind ((writeRaw_replied _ s).mono fun t _ _ ht => returns_ok ?_)
              rw [List.append_nil]
              exact .bind hskip hparse hprep hrender hinline ht

/-- A Describe writes the frames of its answer. -/
theorem onDescribe_eq : onDescribe st body =
    if st.skipUntilSync then .halt (.ok (some st))
    else (lift (parseDescribeOrClose body)).bind fun target =>
      (writeFrames (metaFrames (target.bind fun x => describe st x.1 x.2))).bind fun _ =>
        .halt (.ok (some st)) := by
  unfold onDescribe
  refine if_congr Iff.rfl rfl (congrArg (Prog.bind _) (funext fun target => ?_))
  cases target with
  | none => rw [Option.bind_none, metaFrames, writeFrames_single]; rfl
  | some target =>
    rw [Option.bind_some]
    dsimp only
    cases describe st target.1 target.2 with
    | none => rw [metaFrames, writeFrames_single]; rfl
    | some answer =>
      obtain ⟨oids, cols⟩ := answer
      rw [metaFrames, writeFrames_append, writeFrames_single]
      have hcols : (if cols.isEmpty then
            (writeRaw noData).bind fun _ => (.halt (.ok (some st)) : SessionProg EngineError _)
          else (writeRaw (rowDescription cols)).bind fun _ => .halt (.ok (some st))) =
          (writeRaw (if cols.isEmpty then noData else rowDescription cols)).bind fun _ =>
            .halt (.ok (some st)) := by
        split_ifs <;> rfl
      cases oids with
      | none => exact hcols
      | some oids =>
        have hoids := congrArg (fun p => (writeRaw (parameterDescription oids)).bind fun _ => p) hcols
        rw [Option.map_some, Option.toList_some, writeFrames_single, bind_assoc]
        exact hoids

theorem onDescribe_step : Returns M (onDescribe st body)
    (fun t next _ => PgStep ctx st t (0x44, body) next) s := by
  rw [onDescribe_eq]
  split_ifs with hskip
  · exact returns_ok (.skip hskip (by decide) rfl)
  · rw [Bool.not_eq_true] at hskip
    cases hparse : (parseDescribeOrClose body : Outcome EngineError (Option (UInt8 × String))) with
    | panic => exact returns_panic
    | err e => exact returns_err
    | ok target =>
      refine Returns.bind (returns_ok (Returns.bind ((writeFrames_replied _ s).mono ?_)))
      intro t _ _ ht
      refine returns_ok ?_
      rw [List.append_nil]
      exact .describe hskip hparse ht

theorem onExecute_step : Returns M (onExecute ctx st body)
    (fun t next _ => PgStep ctx st t (0x45, body) next) s := by
  rw [onExecute_eq]
  split_ifs with hskip
  · exact returns_ok (.skip hskip (by decide) rfl)
  · rw [Bool.not_eq_true] at hskip
    cases hportal : st.portals[queryText body]? with
    | none => exact failUntilSync_step ctx body s hskip (by decide) _ _ replied_nil
    | some portal =>
      refine Returns.bind ((firewalled_ranText ctx writeRowsOnly_eq s).mono ?_)
      intro t ran s' hran
      refine returns_ok ?_
      rw [List.append_nil]
      cases ran with
      | true => exact .execute hskip hportal hran
      | false =>
        obtain ⟨sqlstate, message, hreplied⟩ := hran
        exact .refuse hskip (by decide) hreplied

theorem onClose_step : Returns M (onClose st body)
    (fun t next _ => PgStep ctx st t (0x43, body) next) s := by
  unfold onClose
  simp only [lift, bind_eq, Prog.pure_eq]
  cases hparse : (parseDescribeOrClose body : Outcome EngineError (Option (UInt8 × String))) with
  | panic => exact returns_panic
  | err e => exact returns_err
  | ok target =>
    simp only [halt_ok_bind]
    refine Returns.bind ((writeRaw_replied _ s).mono fun t _ _ ht => returns_ok ?_)
    rw [List.append_nil]
    exact .close hparse ht

theorem onQuery_step : Returns M (onQuery ctx st body)
    (fun t next _ => PgStep ctx st t (0x51, body) next) s := by
  rw [onQuery_eq]
  have hready {fs : List Frame} (hfs : ∀ f ∈ fs, UnreadyFrame f) {t : List SessionEvent}
      (ht : Replied fs t) (s' : Unit) : Returns M ((writeRaw readyForQuery).bind fun _ =>
        .halt (.ok (some st))) (fun t' next _ => PgStep ctx st (t ++ t') (0x51, body) next) s' := by
    refine Returns.bind ((writeRaw_replied _ s').mono fun t' _ _ ht' => returns_ok ?_)
    rw [List.append_nil]
    exact .query hfs (ht.append ht')
  split_ifs with hempty
  · refine Returns.bind ((writeRaw_replied _ s).mono fun t _ s' ht => ?_)
    exact hready (List.forall_mem_singleton.mpr (unreadyFrame_msg (by decide))) ht s'
  · refine Returns.bind ((firewalled_ranText ctx writeResultSet_eq s).mono fun t ran s' hran => ?_)
    cases ran with
    | true =>
      obtain ⟨_, msgs, _, hreplied⟩ := hran
      exact hready (resultSetFrames_unready _) hreplied s'
    | false =>
      obtain ⟨_, _, hreplied⟩ := hran
      exact hready (List.forall_mem_singleton.mpr (unreadyFrame_msg (by decide))) hreplied s'

theorem onUnsupported_step {tag : UInt8} (htag : tag ∉ knownTags) : Returns M (onUnsupported st)
    (fun t next _ => PgStep ctx st t (tag, body) next) s := by
  refine Returns.bind ((writeRaw_replied _ s).mono fun t _ s' ht => ?_)
  refine Returns.bind ((writeRaw_replied _ s').mono fun t' _ _ ht' => returns_ok ?_)
  rw [List.append_nil]
  exact .unsupported htag (ht.append ht')

theorem pgHandle_step (tag : UInt8) : Returns M (pgHandle ctx st tag body)
    (fun t next _ => PgStep ctx st t (tag, body) next) s := by
  unfold pgHandle
  split_ifs with h₁ h₂ h₃ h₄ h₅ h₆ h₇ h₈ h₉
  · exact h₁ ▸ onQuery_step ctx st body s
  · exact h₂ ▸ onParse_step ctx st body s
  · exact h₃ ▸ onBind_step ctx st body s
  · exact h₄ ▸ onDescribe_step ctx st body s
  · exact h₅ ▸ onExecute_step ctx st body s
  · exact h₆ ▸ onClose_step ctx st body s
  · exact h₇ ▸ returns_ok (.flush rfl)
  · subst h₈
    refine Returns.bind ((writeRaw_replied _ s).mono fun t _ _ ht => returns_ok ?_)
    rw [List.append_nil]
    exact .sync ht
  · exact h₉ ▸ returns_ok (.terminate rfl)
  · apply onUnsupported_step
    simp [knownTags, *]

end

end MiddleWhere.Net
