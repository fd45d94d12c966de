import MiddleWhere.Net.MysqlSafe
import MiddleWhere.Net.PgStep

/-!
# Error recovery of the extended query protocol

After an ErrorResponse to a message of the extended query protocol the server reads and
discards messages until a Sync, which it answers with ReadyForQuery. The rule is stated
over what a session has written, and compared with the flag that the session keeps.
-/

namespace MiddleWhere.Net
open Prog Firewall

/-! ## The rule -/

def readies (t : List SessionEvent) : ℕ := (sentTags t).count (some 0x5A)

/-- Parse, Bind, Describe, Execute, Close and Flush. -/
def extendedTags : List UInt8 := [0x50, 0x42, 0x44, 0x45, 0x43, 0x48]

/-- One message of the history: a Sync ends the recovery, an ErrorResponse to an
extended-query message starts it. -/
def recovers (recovering : Bool) (turn : PgTurn) : Bool :=
  if turn.msg.1 = 0x53 then false
  else recovering || (extendedTags.contains turn.msg.1 && (sentTags turn.trace).contains (some 0x45))

def inRecovery (ts : List PgTurn) : Bool := ts.foldl recovers false

/-- The number of ReadyForQuery that a message is owed. -/
def readyDue (recovering : Bool) (tag : UInt8) : ℕ :=
  if tag = 0x53 ∨ tag = 0x51 ∧ recovering = false then 1 else 0

/-- What the protocol asks of a message, given the history before it. A message that a
failing client cut short may have had less of an answer. -/
structure Conforms (recovering : Bool) (turn : PgTurn)
    (out : Outcome EngineError (Option PgState)) : Prop where
  silent : recovering = true → turn.msg.1 ≠ 0x53 → written turn.trace = []
  frozen : recovering = true → turn.msg.1 ≠ 0x53 → ∀ st, out = .ok (some st) →
    st.prepared = turn.state.prepared ∧ st.portals = turn.state.portals
  ends : turn.msg.1 = 0x58 → written turn.trace = [] ∧ out = .ok none
  ready_le : readies turn.trace ≤ readyDue recovering turn.msg.1
  ready : ∀ next, out = .ok next → readies turn.trace = readyDue recovering turn.msg.1

/-- The messages that the session treats as the protocol does. -/
def Honoured (recovering : Bool) (tag : UInt8) : Prop :=
  tag ∈ knownTags ∧ (recovering = true → tag ≠ 0x51 ∧ tag ≠ 0x43)

/-! ## What is written, by type -/

theorem UnreadyFrame.frameTag_ne {f : Frame} (h : UnreadyFrame f) : frameTag f ≠ some 0x5A := by
  cases f with
  | ok bytes => exact h bytes rfl
  | err e => exact nofun
  | panic => exact nofun

theorem mem_of_mem_written {bytes : Bytes} {t : List SessionEvent} (h : bytes ∈ written t) :
    (⟨.write bytes, .ok ()⟩ : SessionEvent) ∈ t := by
  obtain ⟨⟨o, r⟩, he, hsome⟩ := List.mem_filterMap.mp h
  cases o with
  | write bytes' =>
    cases r with
    | ok u =>
      obtain rfl := Option.some.inj hsome
      exact he
    | error e => cases hsome
  | _ => cases hsome

theorem readies_of_unready {t : List SessionEvent} (h : ∀ e ∈ t, Unready e.op) :
    readies t = 0 := by
  apply List.count_eq_zero.mpr
  intro hmem
  obtain ⟨bytes, hbytes, hhead⟩ := List.mem_map.mp hmem
  exact h _ (mem_of_mem_written hbytes) hhead

theorem readies_append (t t' : List SessionEvent) :
    readies (t ++ t') = readies t + readies t' := by
  unfold readies sentTags
  rw [written_append, List.map_append, List.count_append]

theorem Replied.readies_eq_zero {fs : List Frame} {t : List SessionEvent} (h : Replied fs t)
    (hfs : ∀ f ∈ fs, UnreadyFrame f) : readies t = 0 := by
  apply List.count_eq_zero.mpr
  rw [h.sentTags_eq]
  intro hmem
  obtain ⟨f, hf, htag⟩ := List.mem_map.mp hmem
  exact (hfs f hf).frameTag_ne htag

theorem Replied.readies_eq_one {fs : List Frame} {t : List SessionEvent}
    (h : Replied (fs ++ [readyForQuery]) t) (hfs : ∀ f ∈ fs, UnreadyFrame f) :
    readies t = 1 := by
  have hnone : (fs.map frameTag).count (some 0x5A) = 0 := by
    apply List.count_eq_zero.mpr
    intro hmem
    obtain ⟨f, hf, htag⟩ := List.mem_map.mp hmem
    exact (hfs f hf).frameTag_ne htag
  have hready : frameTag readyForQuery = some 0x5A := by
    rw [readyForQuery_eq]
    rfl
  unfold readies
  rw [h.sentTags_eq, List.map_append, List.count_append, hnone, List.map_singleton, hready]
  rfl

/-! ## The flag is the history -/

theorem Replied.not_error {fs : List Frame} {t : List SessionEvent} (h : Replied fs t)
    (hfs : ∀ f ∈ fs, frameTag f ≠ some 0x45) : some 0x45 ∉ sentTags t := by
  rw [h.sentTags_eq]
  intro hmem
  obtain ⟨f, hf, htag⟩ := List.mem_map.mp hmem
  exact hfs f hf htag

theorem Replied.not_error_msg {tag : Char} {payload : Bytes} {t : List SessionEvent}
    (h : Replied [msg tag payload] t) (htag : tagByte tag ≠ 0x45) : some 0x45 ∉ sentTags t :=
  h.not_error (List.forall_mem_singleton.mpr (frameTag_msg_ne htag))

theorem metaFrames_not_error (x : Option (Option (List ℤ) × List (String × ℤ))) :
    ∀ f ∈ metaFrames x, frameTag f ≠ some 0x45 := by
  intro f hf
  rcases x with _ | ⟨oids, cols⟩
  · rw [List.mem_singleton.mp hf]
    exact frameTag_msg_ne (by decide)
  · rcases List.mem_append.mp hf with hoids | hcols
    · rw [Option.mem_toList, Option.map_eq_some_iff] at hoids
      obtain ⟨oids', -, rfl⟩ := hoids
      exact frameTag_msg_ne (by decide)
    · rw [List.mem_singleton.mp hcols]
      split_ifs
      · exact frameTag_msg_ne (by decide)
      · exact frameTag_msg_ne (by decide)

theorem rowsOnlyFrames_not_error (rs : ResultSet) :
    ∀ f ∈ rowsOnlyFrames rs, frameTag f ≠ some 0x45 := by
  intro f hf
  rcases List.mem_append.mp hf with hrow | htag
  · obtain ⟨row, -, rfl⟩ := List.mem_map.mp hrow
    exact frameTag_msg_ne (by decide)
  · rw [List.mem_singleton.mp htag]
    exact frameTag_msg_ne (by decide)

section
variable {b : Bool} {st : PgState} {tag : UInt8} {body : Bytes} {t : List SessionEvent}

theorem recovers_of_not_error (htag : tag ≠ 0x53) (h : some 0x45 ∉ sentTags t) :
    recovers b ⟨st, (tag, body), t⟩ = b := by
  have hcontains : (sentTags t).contains (some 0x45) = false := by
    rwa [← Bool.not_eq_true, List.contains_iff_mem]
  unfold recovers
  rw [if_neg htag, hcontains, Bool.and_false, Bool.or_false]

theorem recovers_of_error (htag : tag ∈ extendedTags) (h : some 0x45 ∈ sentTags t) :
    recovers b ⟨st, (tag, body), t⟩ = true := by
  have hsync : tag ≠ 0x53 := by
    rintro rfl
    exact absurd htag (by decide)
  unfold recovers
  rw [if_neg hsync, List.contains_iff_mem.mpr htag, List.contains_iff_mem.mpr h, Bool.and_self,
    Bool.or_true]

theorem recovers_of_not_extended (hsync : tag ≠ 0x53) (htag : tag ∉ extendedTags) :
    recovers b ⟨st, (tag, body), t⟩ = b := by
  have hcontains : extendedTags.contains tag = false := by
    rwa [← Bool.not_eq_true, List.contains_iff_mem]
  unfold recovers
  rw [if_neg hsync, hcontains, Bool.false_and, Bool.or_false]

end

/-- A step sets the flag as the rule sets the recovery. -/
theorem PgStep.recovers_eq {ctx : SessionCtx} {st st' : PgState} {t : List SessionEvent}
    {m : UInt8 × Bytes} (h : PgStep ctx st t m (some st')) :
    st'.skipUntilSync = recovers st.skipUntilSync ⟨st, m, t⟩ := by
  generalize hnext : some st' = next at h
  cases h with
  | @skip tag body hskip htag ht =>
    obtain rfl := Option.some.inj hnext
    subst ht
    have hsync : tag ≠ 0x53 := by
      rintro rfl
      exact absurd htag (by decide)
    exact (recovers_of_not_error hsync List.not_mem_nil).symm
  | @refuse tag body _ _ hskip htag hreplied =>
    obtain rfl := Option.some.inj hnext
    refine (recovers_of_error ?_ ?_).symm
    · fin_cases htag <;> decide
    · rw [hreplied.sentTags_msg]
      exact List.mem_singleton_self _
  | parse hskip hparse hprepare hreplied =>
    obtain rfl := Option.some.inj hnext
    exact (recovers_of_not_error (by decide) (hreplied.not_error_msg (by decide))).symm
  | bind hskip hparse hprep hrender hinline hreplied =>
    obtain rfl := Option.some.inj hnext
    exact (recovers_of_not_error (by decide) (hreplied.not_error_msg (by decide))).symm
  | describe hskip hparse hreplied =>
    obtain rfl := Option.some.inj hnext
    exact (recovers_of_not_error (by decide) (hreplied.not_error (metaFrames_not_error _))).symm
  | execute hskip hportal hran =>
    obtain rfl := Option.some.inj hnext
    obtain ⟨_, _, _, hreplied⟩ := hran
    exact (recovers_of_not_error (by decide)
      (hreplied.not_error (rowsOnlyFrames_not_error _))).symm
  | @close body target hparse hreplied =>
    obtain rfl := Option.some.inj hnext
    have hclosed : (closed st target).skipUntilSync = st.skipUntilSync := by
      unfold closed
      split
      · rfl
      · split_ifs <;> rfl
    rw [hclosed]
    exact (recovers_of_not_error (by decide) (hreplied.not_error_msg (by decide))).symm
  | flush ht =>
    obtain rfl := Option.some.inj hnext
    subst ht
    exact (recovers_of_not_error (by decide) List.not_mem_nil).symm
  | sync hreplied =>
    obtain rfl := Option.some.inj hnext
    rfl
  | terminate ht => cases hnext
  | query hfs hreplied =>
    obtain rfl := Option.some.inj hnext
    exact (recovers_of_not_extended (by decide) (by decide)).symm
  | @unsupported tag body htag hreplied =>
    obtain rfl := Option.some.inj hnext
    refine (recovers_of_not_extended ?_ ?_).symm
    · rintro rfl
      exact htag (by decide)
    · intro hmem
      apply htag
      fin_cases hmem <;> decide

/-- The flag of a session is the recovery that its history calls for. -/
theorem run_inRecovery {ctx : SessionCtx} {ts : List PgTurn} {st : PgState} {s s' : Unit}
    (h : (serve ctx).Run (pgSem ctx) {} s ts st s') : st.skipUntilSync = inRecovery ts := by
  have hstep (x : Bool) (b : PgState) (m : UInt8 × Bytes) (s : Unit) (t : List SessionEvent)
      (b' : PgState) (s' : Unit) (hx : b.skipUntilSync = x)
      (hexec : Exec (pgSem ctx) ((serve ctx).handle b m) s t (.ok (some b')) s') :
      b'.skipUntilSync = recovers x ⟨b, m, t⟩ := by
    rw [← hx]
    exact ((pgHandle_step ctx b m.2 s m.1).exec hexec).recovers_eq
  exact h.record hstep rfl

/-! ## Handlers that never send ReadyForQuery -/

section
variable (ctx : SessionCtx) (st : PgState) (body : Bytes)

theorem failUntilSync_unready (sqlstate message : String) :
    (failUntilSync st sqlstate message).Uses Unready :=
  uses_bind (writeRaw_unready (unreadyFrame_msg (by decide))) fun _ => trivial

theorem backendDescribe_unready (sql : String) : (backendDescribe sql).Uses Unready := by
  refine ⟨trivial, fun conn => ?_⟩
  cases conn with
  | error e => trivial
  | ok conn =>
    apply withConn_unready
    refine ⟨trivial, fun r => ?_⟩
    cases r with
    | error e => trivial
    | ok answer => trivial

theorem onParse_unready : (onParse ctx st body).Uses Unready := by
  unfold onParse
  split_ifs
  · trivial
  · refine uses_bind trivial fun parsed => ?_
    cases parsed with
    | none => exact failUntilSync_unready _ _ _
    | some m =>
      refine ⟨trivial, fun verdict => ?_⟩
      cases verdict with
      | deny reason => exact ⟨trivial, fun _ => failUntilSync_unready _ _ _⟩
      | allow =>
        simp only [halt_ok_bind]
        refine uses_bind (backendDescribe_unready _) fun answer => ?_
        cases answer with
        | error e => exact failUntilSync_unready _ _ _
        | ok answer =>
          exact uses_bind (writeRaw_unready (unreadyFrame_msg (by decide))) fun _ => trivial

theorem onBind_unready : (onBind ctx st body).Uses Unready := by
  unfold onBind
  split_ifs
  · trivial
  · refine uses_bind trivial fun parsed => ?_
    cases parsed with
    | none => exact failUntilSync_unready _ _ _
    | some m =>
      dsimp only
      cases st.prepared[m.stmt]? with
      | none => exact failUntilSync_unready _ _ _
      | some prep =>
        dsimp only
        cases renderAll ctx.deps prep.paramOids m.paramFormats 0 m.params with
        | panic => trivial
        | err e => exact failUntilSync_unready _ _ _
        | ok rendered =>
          refine uses_bind trivial fun inlined => ?_
          exact uses_bind (writeRaw_unready (unreadyFrame_msg (by decide))) fun _ => trivial

theorem metaFrames_unready (x : Option (Option (List ℤ) × List (String × ℤ))) :
    ∀ f ∈ metaFrames x, UnreadyFrame f := by
  intro f hf
  rcases x with _ | ⟨oids, cols⟩
  · rw [List.mem_singleton.mp hf]
    exact unreadyFrame_msg (by decide)
  · rcases List.mem_append.mp hf with hoids | hcols
    · rw [Option.mem_toList, Option.map_eq_some_iff] at hoids
      obtain ⟨oids', -, rfl⟩ := hoids
      exact unreadyFrame_msg (by decide)
    · rw [List.mem_singleton.mp hcols]
      split_ifs
      · exact unreadyFrame_msg (by decide)
      · exact unreadyFrame_msg (by decide)

theorem onDescribe_unready : (onDescribe st body).Uses Unready := by
  rw [onDescribe_eq]
  split_ifs
  · trivial
  · refine uses_bind trivial fun target => ?_
    exact uses_bind (writeFrames_unready (metaFrames_unready _)) fun _ => trivial

theorem onExecute_unready : (onExecute ctx st body).Uses Unready := by
  rw [onExecute_eq]
  split_ifs
  · trivial
  · cases st.portals[queryText body]? with
    | none => exact failUntilSync_unready _ _ _
    | some portal =>
      have hrows (rs : ResultSet) : (writeRowsOnly rs).Uses Unready := by
        rw [writeRowsOnly_eq]
        exact writeFrames_unready (rowsOnlyFrames_unready rs)
      exact uses_bind (firewalled_unready ctx hrows _) fun _ => trivial

theorem onClose_unready : (onClose st body).Uses Unready :=
  uses_bind trivial fun _ =>
    uses_bind (writeRaw_unready (unreadyFrame_msg (by decide))) fun _ => trivial

end

/-! ## Conformance of one message -/

section
variable {M : Sem sessionSig Unit} (ctx : SessionCtx) {st : PgState} {tag : UInt8} {body : Bytes}
  {t : List SessionEvent} {out : Outcome EngineError (Option PgState)} {s s' : Unit}

/-- In recovery an honoured message is passed over; only a Terminate ends the session. -/
theorem pgHandle_recovering (hskip : st.skipUntilSync = true) (htag : tag ∈ knownTags)
    (hnot : tag ≠ 0x51 ∧ tag ≠ 0x43) (hsync : tag ≠ 0x53) : pgHandle ctx st tag body =
      .halt (.ok (if tag = 0x58 then none else some st)) := by
  have hparse : onParse ctx st body = .halt (.ok (some st)) := if_pos hskip
  have hbind : onBind ctx st body = .halt (.ok (some st)) := if_pos hskip
  have hdescribe : onDescribe st body = .halt (.ok (some st)) := if_pos hskip
  have hexecute : onExecute ctx st body = .halt (.ok (some st)) := if_pos hskip
  unfold pgHandle
  rw [if_neg hnot.1, if_neg hnot.2, if_neg hsync, hparse, hbind, hdescribe, hexecute]
  fin_cases htag <;> simp_all

theorem readyThen_readies {f : Frame} {next : Option PgState} :
    wp M ((writeRaw f).bind fun _ => .halt (.ok next)) (fun t _ _ => readies t ≤ 1) s := by
  rw [wp_bind_halt]
  cases f with
  | ok bytes =>
    rw [writeRaw_ok]
    refine wp_call.mpr fun r _ _ t' _ _ ht' => ?_
    have hnil : t' = [] := by
      cases r <;> exact (exec_halt_iff.mp ht').1
    rw [hnil]
    unfold readies sentTags
    refine List.count_le_length.trans ?_
    rw [List.length_map]
    exact List.length_filterMap_le ..
  | err e => exact wp_halt.mpr (by decide)
  | panic => exact wp_halt.mpr (by decide)

theorem unreadyThen_readies {α : Type} {p : SessionProg EngineError α} {f : Frame}
    {next : Option PgState} (hp : p.Uses Unready) :
    wp M (p.bind fun _ => (writeRaw f).bind fun _ => .halt (.ok next))
      (fun t _ _ => readies t ≤ 1) s := by
  refine wp_bind.mpr fun t out s' ht => ?_
  have hnone : readies t = 0 := readies_of_unready (ht.stops.uses hp)
  have hle : readies t ≤ 1 := by omega
  cases out with
  | ok a =>
    refine wp_mono readyThen_readies fun t' _ _ ht' => ?_
    have happend := readies_append t t'
    omega
  | err e => exact hle
  | panic => exact hle

theorem pgHandle_readies_le (htag : tag ∈ knownTags) (h : tag = 0x51 → st.skipUntilSync = false)
    (ht : Exec M (pgHandle ctx st tag body) s t out s') :
    readies t ≤ readyDue st.skipUntilSync tag := by
  have hquiet (huses : (pgHandle ctx st tag body).Uses Unready) :
      readies t ≤ readyDue st.skipUntilSync tag := by
    rw [readies_of_unready (ht.stops.uses huses)]
    exact Nat.zero_le _
  fin_cases htag
  · have hdue : readyDue st.skipUntilSync 0x51 = 1 := if_pos (Or.inr ⟨rfl, h rfl⟩)
    have hquery : Exec M (onQuery ctx st body) s t out s' := ht
    rw [onQuery_eq] at hquery
    have hset (rs : ResultSet) : (writeResultSet rs).Uses Unready := by
      rw [writeResultSet_eq]
      exact writeFrames_unready (resultSetFrames_unready rs)
    rw [hdue]
    split_ifs at hquery
    · exact unreadyThen_readies (writeRaw_unready (unreadyFrame_msg (by decide))) t out s' hquery
    · exact unreadyThen_readies (firewalled_unready ctx hset _) t out s' hquery
  · exact hquiet (onParse_unready ctx st body)
  · exact hquiet (onBind_unready ctx st body)
  · exact hquiet (onDescribe_unready st body)
  · exact hquiet (onExecute_unready ctx st body)
  · exact hquiet (onClose_unready st body)
  · exact hquiet trivial
  · exact readyThen_readies t out s' ht
  · exact hquiet trivial

theorem readyDue_eq_zero {b : Bool} (hsync : tag ≠ 0x53) (hquery : tag ≠ 0x51) :
    readyDue b tag = 0 := by
  unfold readyDue
  rw [if_neg]
  rintro (h | h)
  · exact hsync h
  · exact hquery h.1

variable {ctx}

theorem PgStep.readies_eq {next : Option PgState} (h : PgStep ctx st t (tag, body) next)
    (htag : Honoured st.skipUntilSync tag) : readies t = readyDue st.skipUntilSync tag := by
  have hmsg {c : Char} {payload : Bytes} (hc : tagByte c ≠ 0x5A) (hreplied : Replied [msg c payload] t) :
      readies t = 0 :=
    hreplied.readies_eq_zero (List.forall_mem_singleton.mpr (unreadyFrame_msg hc))
  cases h with
  | skip hskip hmem ht =>
    rw [ht]
    fin_cases hmem <;> exact (readyDue_eq_zero (by decide) (by decide)).symm
  | refuse hskip hmem hreplied =>
    rw [hmsg (by decide) hreplied]
    fin_cases hmem <;> exact (readyDue_eq_zero (by decide) (by decide)).symm
  | parse hskip hparse hprepare hreplied =>
    rw [hmsg (by decide) hreplied, readyDue_eq_zero (by decide) (by decide)]
  | bind hskip hparse hprep hrender hinline hreplied =>
    rw [hmsg (by decide) hreplied, readyDue_eq_zero (by decide) (by decide)]
  | describe hskip hparse hreplied =>
    rw [hreplied.readies_eq_zero (metaFrames_unready _), readyDue_eq_zero (by decide) (by decide)]
  | execute hskip hportal hran =>
    obtain ⟨_, _, _, hreplied⟩ := hran
    rw [hreplied.readies_eq_zero (rowsOnlyFrames_unready _),
      readyDue_eq_zero (by decide) (by decide)]
  | close hparse hreplied =>
    rw [hmsg (by decide) hreplied, readyDue_eq_zero (by decide) (by decide)]
  | flush ht =>
    rw [ht, readyDue_eq_zero (by decide) (by decide)]
    rfl
  | sync hreplied => exact @Replied.readies_eq_one [] t hreplied (by simp)
  | terminate ht =>
    rw [ht, readyDue_eq_zero (by decide) (by decide)]
    rfl
  | query hfs hreplied =>
    have hskip : st.skipUntilSync = false := by
      rw [← Bool.not_eq_true]
      exact fun hskip => (htag.2 hskip).1 rfl
    have hdue : readyDue st.skipUntilSync 0x51 = 1 := if_pos (Or.inr ⟨rfl, hskip⟩)
    rw [hreplied.readies_eq_one hfs, hdue]
  | unsupported hmem hreplied => exact absurd htag.1 hmem

theorem PgStep.honoured {next : Option PgState} (h : PgStep ctx st t (tag, body) next)
    (hsilent : st.skipUntilSync = true → tag ≠ 0x53 → written t = [])
    (hready : readies t = readyDue st.skipUntilSync tag) : Honoured st.skipUntilSync tag := by
  have hsome {fs : List Frame} {f : Frame} (hwritten : written t = [])
      (hreplied : Replied (fs ++ [f]) t) : False := by
    unfold Replied at hreplied
    rw [hwritten] at hreplied
    exact absurd hreplied.symm (by simp)
  have hknown : tag ∈ knownTags := by
    by_contra hunknown
    cases h with
    | skip _ hmem _ | refuse _ hmem _ => fin_cases hmem <;> exact hunknown (by decide)
    | unsupported _ hreplied =>
      have hone : readies t = 1 := @Replied.readies_eq_one [_] t hreplied
        (List.forall_mem_singleton.mpr (unreadyFrame_msg (by decide)))
      have hzero : readyDue st.skipUntilSync tag = 0 := by
        apply readyDue_eq_zero
        · rintro rfl
          exact hunknown (by decide)
        · rintro rfl
          exact hunknown (by decide)
      omega
    | _ => exact hunknown (by decide)
  refine ⟨hknown, fun hskip => ⟨?_, ?_⟩⟩
  · rintro rfl
    have hwritten := hsilent hskip (by decide)
    cases h with
    | query hfs hreplied => exact hsome hwritten hreplied
    | skip _ hmem _ | refuse _ hmem _ => exact absurd hmem (by decide)
    | unsupported hmem _ => exact absurd hknown hmem
  · rintro rfl
    have hwritten := hsilent hskip (by decide)
    cases h with
    | close hparse hreplied => exact @hsome [] _ hwritten hreplied
    | skip _ hmem _ | refuse _ hmem _ => exact absurd hmem (by decide)
    | unsupported hmem _ => exact absurd hknown hmem

variable (ctx)

/-- The session does as the protocol asks with exactly the honoured messages. -/
theorem conforms_of_honoured (htag : Honoured st.skipUntilSync tag)
    (ht : Exec M (pgHandle ctx st tag body) s t out s') :
    Conforms st.skipUntilSync ⟨st, (tag, body), t⟩ out := by
  have hpassed (hskip : st.skipUntilSync = true) (hsync : tag ≠ 0x53) :
      t = [] ∧ out = .ok (if tag = 0x58 then none else some st) := by
    rw [pgHandle_recovering ctx hskip htag.1 (htag.2 hskip) hsync] at ht
    obtain ⟨hnil, hout, -⟩ := exec_halt_iff.mp ht
    exact ⟨hnil, hout⟩
  refine ⟨?_, ?_, ?_, ?_, ?_⟩
  · intro hskip hsync
    rw [(hpassed hskip hsync).1]
    rfl
  · intro hskip hsync st' hout
    rw [(hpassed hskip hsync).2] at hout
    split_ifs at hout
    · cases hout
    · obtain rfl := Option.some.inj (Outcome.ok.inj hout)
      exact ⟨rfl, rfl⟩
  · rintro rfl
    have hhalt : Exec M (.halt (.ok none)) s t out s' := ht
    obtain ⟨rfl, hout, -⟩ := exec_halt_iff.mp hhalt
    exact ⟨rfl, hout⟩
  · refine pgHandle_readies_le ctx htag.1 ?_ ht
    rintro rfl
    rw [← Bool.not_eq_true]
    exact fun hskip => (htag.2 hskip).1 rfl
  · rintro next rfl
    exact ((pgHandle_step ctx st body s tag).exec ht).readies_eq htag

theorem conforms_iff {next : Option PgState}
    (ht : Exec M (pgHandle ctx st tag body) s t (.ok next) s') :
    Conforms st.skipUntilSync ⟨st, (tag, body), t⟩ (.ok next) ↔ Honoured st.skipUntilSync tag := by
  constructor
  · intro h
    have hstep := (pgHandle_step ctx st body s tag).exec ht
    exact hstep.honoured h.silent (h.ready next rfl)
  · exact fun htag => conforms_of_honoured ctx htag ht

end

/-- In every run, a message conforms when it is one that the session honours in the recovery
that its history calls for, and any other message handled to its end does not. -/
theorem recovery_iff (ctx : SessionCtx) (ts : List PgTurn) (turn : PgTurn)
    (out : Outcome EngineError (Option PgState))
    (h : (serve ctx).HandledAfter (pgSem ctx) {} () ts turn out) :
    (Honoured (inRecovery ts) turn.msg.1 → Conforms (inRecovery ts) turn out) ∧
      ∀ next, out = .ok next → Conforms (inRecovery ts) turn out →
        Honoured (inRecovery ts) turn.msg.1 := by
  obtain ⟨s, s₁, s₂, t₀, hrun, -, hturn⟩ := h
  rw [← run_inRecovery hrun]
  refine ⟨fun htag => conforms_of_honoured ctx htag hturn, ?_⟩
  rintro next rfl
  exact (conforms_iff ctx hturn).mp

def syncTurn : PgTurn := ⟨{}, (0x53, []), [⟨.write readyFrame, .ok ()⟩]⟩

theorem syncTurn_handled : (serve sampleCtx).HandledAfter (pgSem sampleCtx) {} () [] syncTurn
    (.ok (some { skipUntilSync := false })) := by
  obtain ⟨t₀, hread⟩ := pgRead_exec (pgSem_recv sampleCtx) [0, 0, 0, 4] (0x53, []) rfl (by decide) (by decide)
  have hsync : (serve sampleCtx).handle {} (0x53, []) = (writeRaw (.ok readyFrame)).bind fun _ =>
      .halt (.ok (some { skipUntilSync := false })) := by
    rw [serve_handle, ← readyForQuery_eq]
    rfl
  refine ⟨(), (), (), t₀, .nil _ _, hread, ?_⟩
  unfold syncTurn
  rw [hsync]
  exact .step trivial (.halt _ _)

theorem recovery_iff_sync : Conforms false syncTurn (.ok (some { skipUntilSync := false })) :=
  (recovery_iff sampleCtx [] syncTurn _ syncTurn_handled).1 ⟨by decide, nofun⟩

/-! ## A portal closed in recovery -/

def executeMsg : UInt8 × Bytes := (0x45, [0x70, 0, 0, 0, 0, 0])

def closeMsg : UInt8 × Bytes := (0x43, [0x50, 0x70, 0])

/-- An Execute of a portal that does not exist: the session skips from there on. -/
theorem unknownPortal_handled : ∃ t, some 0x45 ∈ sentTags t ∧
    Exec (pgSem sampleCtx) ((serve sampleCtx).handle {} executeMsg) () t
      (.ok (some { skipUntilSync := true })) () := by
  have hframed : Framed (errorResponse sqlstateInternal "unknown portal") :=
    framed_errorResponse (by decide)
  obtain ⟨bytes, hbytes⟩ := hframed
  have hexec : (serve sampleCtx).handle {} executeMsg = (writeRaw (.ok bytes)).bind fun _ =>
      .halt (.ok (some { skipUntilSync := true })) := by
    have hexecute : (serve sampleCtx).handle {} executeMsg =
        onExecute sampleCtx {} executeMsg.2 := by
      rw [serve_handle]
      rfl
    rw [hexecute, onExecute_eq, ← hbytes]
    rfl
  refine ⟨[⟨.write bytes, .ok ()⟩], ?_, ?_⟩
  · have hhead : bytes.head? = some 0x45 := msg_head hbytes
    rw [← hhead]
    exact List.mem_singleton_self _
  · rw [hexec]
    exact .step trivial (.halt _ _)

theorem close_handled : ∃ t st, Exec (pgSem sampleCtx)
    ((serve sampleCtx).handle { skipUntilSync := true } closeMsg) () t (.ok (some st)) () := by
  obtain ⟨bytes, hbytes⟩ : Framed closeComplete := framed_msg_nil
  have hclose : (serve sampleCtx).handle { skipUntilSync := true } closeMsg =
      onClose { skipUntilSync := true } closeMsg.2 := by
    rw [serve_handle]
    rfl
  refine ⟨[⟨.write bytes, .ok ()⟩], closed { skipUntilSync := true } (some (0x50, "p")), ?_⟩
  rw [hclose, onClose, hbytes]
  exact .step trivial (.halt _ _)

theorem not_conforms_close : ∃ ts turn out,
    (serve sampleCtx).HandledAfter (pgSem sampleCtx) {} () ts turn out ∧
      ¬ Conforms (inRecovery ts) turn out := by
  obtain ⟨t, herror, hexecute⟩ := unknownPortal_handled
  obtain ⟨t', st, hclose⟩ := close_handled
  obtain ⟨t₀, hread⟩ := pgRead_exec (pgSem_recv sampleCtx) [0, 0, 0, 10] executeMsg rfl (by decide) (by decide)
  obtain ⟨t₁, hread'⟩ := pgRead_exec (pgSem_recv sampleCtx) [0, 0, 0, 7] closeMsg rfl (by decide) (by decide)
  refine ⟨[⟨{}, executeMsg, t⟩], ⟨{ skipUntilSync := true }, closeMsg, t'⟩, .ok (some st), ?_, ?_⟩
  · exact ⟨(), (), (), t₁, .turn hread hexecute (.nil _ _), hread', hclose⟩
  · have hrecovery : recovers false ⟨{}, (0x45, executeMsg.2), t⟩ = true :=
      recovers_of_error (by decide) herror
    have hexec : Exec (pgSem sampleCtx) (pgHandle sampleCtx { skipUntilSync := true } 0x43
        closeMsg.2) () t' (.ok (some st)) () := hclose
    intro hconforms
    have hhonoured : Honoured true 0x43 := (conforms_iff sampleCtx hexec).mp (hrecovery ▸ hconforms)
    exact (hhonoured.2 rfl).2 rfl

end MiddleWhere.Net
