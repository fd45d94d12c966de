import MiddleWhere.Net.MysqlFidelity
import MiddleWhere.Net.MysqlReading
import MiddleWhere.Net.PgAudit
import MiddleWhere.Net.Verbatim

/-!
# Statements forwarded to the byte

Which bytes a message submits as SQL, and which bytes the backend receives for it. The text
of a Parse is handed over once when it is prepared and again, with its parameters, at each
Execute of a portal that was bound from it.
-/

namespace MiddleWhere.Net
open Prog Firewall Str

/-! ## Submitted texts -/

/-- The text of a simple query: the body without the NUL that ends it. -/
def queryBytes (body : Bytes) : Bytes :=
  if body.getLast? = some 0 then body.dropLast else body

/-- The text of a Parse: its second string. -/
def parseBytes (body : Bytes) : Bytes :=
  ((body.dropWhile (· ≠ 0)).drop 1).takeWhile (· ≠ 0)

/-- The text is UTF-8, and nothing follows its NUL. -/
def Forwardable : UInt8 × Bytes → Prop
  | (tag, body) =>
    if tag = 0x51 then Valid (queryBytes body) ∧ 0 ∉ queryBytes body
    else if tag = 0x50 then Valid (parseBytes body)
    else True

theorem takeWhile_concat_nul (front : Bytes) :
    (front ++ [0]).takeWhile (· ≠ 0) = front.takeWhile (· ≠ 0) := by
  rw [List.takeWhile_append]
  split_ifs with hall
  · have hwhole : front.takeWhile (· ≠ 0) <+: front := List.takeWhile_prefix _
    rw [hwhole.eq_of_length hall]
    simp
  · rfl

theorem takeWhile_queryBytes (body : Bytes) :
    body.takeWhile (· ≠ 0) = (queryBytes body).takeWhile (· ≠ 0) := by
  unfold queryBytes
  split_ifs with hlast
  · obtain ⟨front, rfl⟩ := List.getLast?_eq_some_iff.mp hlast
    rw [List.dropLast_concat, takeWhile_concat_nul]
  · rfl

/-- What is read of a simple query is the text exactly when that is UTF-8 without NUL. -/
theorem asBytes_queryText_iff (body : Bytes) : asBytes (queryText body) = queryBytes body ↔
    Valid (queryBytes body) ∧ 0 ∉ queryBytes body := by
  unfold queryText
  rw [takeWhile_queryBytes]
  generalize queryBytes body = text
  constructor
  · intro h
    have hvalid : Valid text := ⟨_, h⟩
    refine ⟨hvalid, fun hmem => ?_⟩
    -- the part before the NUL is text, so it is all that is read
    obtain ⟨front, back, rfl, hfront⟩ := List.eq_append_cons_of_mem hmem
    have hall : ∀ b ∈ front, (decide (b ≠ 0)) = true := fun b hb =>
      decide_eq_true fun hzero => hfront (hzero ▸ hb)
    have hcut : (front ++ 0 :: back).takeWhile (· ≠ 0) = front := by
      rw [List.takeWhile_append_of_pos hall]
      simp
    rw [hcut, asBytes_lossy_iff.mpr (hvalid.split (by decide)).1] at h
    simp at h
  · rintro ⟨hvalid, hnul⟩
    have hall : ∀ b ∈ text, (decide (b ≠ 0)) = true := fun b hb =>
      decide_eq_true fun hzero => hnul (hzero ▸ hb)
    rw [List.takeWhile_eq_self_iff.mpr hall, asBytes_lossy_iff.mpr hvalid]

theorem parseParse_eq {ε : Type} (body : Bytes) : (parseParse body : Outcome ε (Option ParseMsg)) =
    .ok (some ⟨queryText body, fromUtf8Lossy (parseBytes body)⟩) := by
  have hsplit : body.takeWhile (· ≠ 0) ++ body.dropWhile (· ≠ 0) = body :=
    List.takeWhile_append_dropWhile
  generalize hfront : body.takeWhile (· ≠ 0) = front at hsplit
  generalize hback : body.dropWhile (· ≠ 0) = back at hsplit
  have hlen : front.length + back.length = body.length := by
    rw [← hsplit, List.length_append]
  unfold parseParse
  rw [readCstr_eq (Nat.zero_le _), Outcome.ok_bind]
  simp only [List.drop_zero, Nat.zero_add, hfront]
  -- the second string begins behind the NUL of the first, if there is one
  have hsecond : body.drop (if front.length < body.length then front.length + 1 else front.length) =
      back.drop 1 := by
    rw [← hsplit, List.length_append]
    split_ifs with hnul
    · rw [← List.drop_drop, List.drop_left]
    · have hnone : back = [] := List.length_eq_zero_iff.mp (by omega)
      rw [hnone]
      simp
  rw [readCstr_eq (by split_ifs <;> omega), Outcome.ok_bind, hsecond]
  simp only [parseBytes, queryText, hfront, hback]
  rfl

/-! ## What a message hands over -/

section
variable {ctx : SessionCtx} {P : String → Prop}

theorem firewalled_hands {write : ResultSet → SessionProg EngineError Unit}
    (hwrite : ∀ rs, (write rs).Uses SessionOp.toClient) {text : String} (htext : P text) :
    (firewalled write ctx text).Uses fun o => ∀ sql, handedOver o = some sql → P sql := by
  rw [firewalled_eq]
  have hrefuse (sqlstate message : String) :
      (refuse sqlstate message).Uses fun o => handedOver o = none :=
    uses_mono handedOver_toClient (refuse_uses _ _)
  refine uses_call.mpr ⟨by simp [handedOver], fun verdict => ?_⟩
  cases verdict with
  | deny reason => exact uses_heard (uses_call.mpr ⟨rfl, fun _ => hrefuse _ _⟩)
  | allow =>
    refine uses_call.mpr ⟨by simp [handedOver], fun answer => ?_⟩
    cases answer with
    | error e => exact uses_heard (hrefuse _ _)
    | ok conn =>
      refine uses_finally (by simp [handedOver]) (uses_call.mpr ⟨fun sql hsql => ?_, fun result => ?_⟩)
      · rwa [← Option.some.inj hsql]
      cases result with
      | error e => exact uses_heard (uses_call.mpr ⟨rfl, fun _ => hrefuse _ _⟩)
      | ok msgs =>
        refine uses_heard (uses_bind (uses_mono handedOver_toClient (hwrite _)) fun _ => ?_)
        exact uses_call.mpr ⟨rfl, fun _ => trivial⟩

theorem backendDescribe_hands {text : String} (htext : P text) :
    (backendDescribe text).Uses fun o => ∀ sql, handedOver o = some sql → P sql := by
  refine uses_call.mpr ⟨by simp [handedOver], fun answer => ?_⟩
  cases answer with
  | error e => trivial
  | ok conn =>
    refine uses_finally (by simp [handedOver]) (uses_call.mpr ⟨fun sql hsql => ?_, fun result => ?_⟩)
    · rwa [← Option.some.inj hsql]
    · cases result <;> trivial

theorem onQuery_hands (st : PgState) {body : Bytes} (htext : P (queryText body)) :
    (onQuery ctx st body).Uses fun o => ∀ sql, handedOver o = some sql → P sql := by
  rw [onQuery_eq]
  split_ifs with hempty
  · exact uses_heard (uses_bind (writeRaw_unheard _) fun _ => writeRaw_then_unheard _ _)
  · refine uses_bind (firewalled_hands writeResultSet_uses htext) fun _ => ?_
    exact uses_heard (writeRaw_then_unheard _ _)

theorem onParse_hands (st : PgState) {body : Bytes}
    (htext : P (fromUtf8Lossy (parseBytes body))) :
    (onParse ctx st body).Uses fun o => ∀ sql, handedOver o = some sql → P sql := by
  unfold onParse
  split_ifs with hskip
  · trivial
  rw [parseParse_eq]
  simp only [lift, bind_eq, halt_ok_bind, pure_eq]
  refine uses_call.mpr ⟨by simp [handedOver], fun verdict => ?_⟩
  cases verdict with
  | deny reason => exact uses_heard (uses_call.mpr ⟨rfl, fun _ => failUntilSync_unheard _ _ _⟩)
  | allow =>
    rw [halt_ok_bind]
    refine uses_bind (backendDescribe_hands htext) fun described => uses_heard ?_
    cases described with
    | ok d => exact writeRaw_then_unheard _ _
    | error e => exact failUntilSync_unheard _ _ _

theorem onExecute_hands {st : PgState} {body : Bytes}
    (htext : ∀ po : Portal, st.portals[queryText body]? = some po → P po.sql) :
    (onExecute ctx st body).Uses fun o => ∀ sql, handedOver o = some sql → P sql := by
  rw [onExecute_eq]
  split_ifs with hskip
  · trivial
  · cases hportal : st.portals[queryText body]? with
    | none => exact uses_heard (failUntilSync_unheard _ _ _)
    | some po =>
      refine uses_bind (firewalled_hands writeRowsOnly_uses (htext po hportal)) fun ran => ?_
      trivial

/-- A simple query hands over what was read of its body, a Parse what was read of its second
string, and an Execute the text of its portal. -/
inductive Submits (st : PgState) : UInt8 × Bytes → String → Prop
  | query (body : Bytes) : Submits st (0x51, body) (queryText body)
  | parse (body : Bytes) : Submits st (0x50, body) (fromUtf8Lossy (parseBytes body))
  | execute {body : Bytes} {po : Portal} : st.portals[queryText body]? = some po →
      Submits st (0x45, body) po.sql

theorem pgHandle_hands (st : PgState) (tag : UInt8) (body : Bytes) :
    (pgHandle ctx st tag body).Uses fun o =>
      ∀ sql, handedOver o = some sql → Submits st (tag, body) sql := by
  unfold pgHandle
  split_ifs with h₁ h₂ h₃ h₄ h₅ h₆ h₇ h₈ h₉
  · exact h₁ ▸ onQuery_hands st (.query body)
  · exact h₂ ▸ onParse_hands st (.parse body)
  · exact uses_heard (onBind_unheard ctx st body)
  · exact uses_heard (onDescribe_unheard st body)
  · exact h₅ ▸ onExecute_hands fun po hpo => .execute hpo
  · exact uses_heard (onClose_unheard st body)
  · trivial
  · exact uses_heard (writeRaw_then_unheard _ _)
  · trivial
  · exact uses_heard (onUnsupported_unheard st)

end

/-! ## The texts of a session -/

/-- The Parse that a message completed, with the text that it brought. -/
def parsedBy (turn : PgTurn) : Option (String × Bytes) :=
  if turn.msg.1 = 0x50 ∧ sentTags turn.trace = [some 0x31] then
    some (queryText turn.msg.2, parseBytes turn.msg.2)
  else none

/-- The text that a prepared statement was parsed from, and the one that a portal was bound
from with the parameters of its Bind. -/
structure Origins where
  statements : Table Bytes := ∅
  portals : Table (Bytes × List String) := ∅

/-- The portal that a message bound, with the text of its statement. -/
def Origins.bound (deps : SessionDeps) (o : Origins) (turn : PgTurn) :
    Option (String × Bytes × List String) := do
  let b ← boundBy turn
  let prep ← turn.state.prepared[b.stmt]?
  let text ← o.statements[b.stmt]?
  match renderAll deps prep.paramOids b.paramFormats 0 b.params with
  | .ok rendered => return (b.portal, text, rendered)
  | _ => none

def Origins.record (deps : SessionDeps) (o : Origins) (turn : PgTurn) : Origins where
  statements := match parsedBy turn with
    | some (name, text) => o.statements.insert name text
    | none => o.statements
  portals := match o.bound deps turn with
    | some (name, origin) => o.portals.insert name origin
    | none => o.portals

def originsOf (deps : SessionDeps) (ts : List PgTurn) : Origins := ts.foldl (Origins.record deps) {}

section
variable {ctx : SessionCtx} {st st' : PgState} {t : List SessionEvent} {m : UInt8 × Bytes}

/-- Only a completed Parse makes a prepared statement. -/
theorem PgStep.statements (h : PgStep ctx st t m (some st')) :
    (parsedBy ⟨st, m, t⟩ = none ∧ ∀ (name : String) (prep : Prepared),
      st'.prepared[name]? = some prep → st.prepared[name]? = some prep) ∨
    ∃ name prep, parsedBy ⟨st, m, t⟩ = some (name, parseBytes m.2) ∧ m.1 = 0x50 ∧
      prep.sql = fromUtf8Lossy (parseBytes m.2) ∧ (∃ e ∈ t, handedOver e.op = some prep.sql) ∧
      st' = { st with prepared := st.prepared.insert name prep } := by
  have hother (htag : m.1 ≠ 0x50) : parsedBy ⟨st, m, t⟩ = none := if_neg fun hparse => htag hparse.1
  have hunsent (hsent : sentTags t ≠ [some 0x31]) : parsedBy ⟨st, m, t⟩ = none :=
    if_neg fun hparse => hsent hparse.2
  generalize hnext : some st' = next at h
  cases h with
  | skip hskip htag ht =>
    obtain rfl := Option.some.inj hnext
    subst ht
    exact Or.inl ⟨hunsent (by decide), fun _ _ h => h⟩
  | refuse hskip htag hreplied =>
    obtain rfl := Option.some.inj hnext
    refine Or.inl ⟨hunsent ?_, fun _ _ h => h⟩
    rw [hreplied.sentTags_msg]
    decide
  | @parse body msg conn params cols hskip hparse hprepare hreplied =>
    obtain rfl := Option.some.inj hnext
    rw [parseParse_eq] at hparse
    obtain rfl := Option.some.inj (Outcome.ok.inj hparse)
    refine Or.inr ⟨queryText body, preparedOf _ params cols, ?_, rfl, rfl, ⟨_, hprepare, rfl⟩, rfl⟩
    exact if_pos ⟨rfl, hreplied.sentTags_msg⟩
  | @close body target hparse hreplied =>
    obtain rfl := Option.some.inj hnext
    refine Or.inl ⟨hother (by simp), fun name prep hprep => ?_⟩
    unfold closed at hprep
    split at hprep
    · exact hprep
    · split_ifs at hprep with hkind
      · rw [Std.ExtTreeMap.getElem?_erase] at hprep
        split_ifs at hprep
        exact hprep
      · exact hprep
  | terminate ht => cases hnext
  | unsupported htag hreplied =>
    obtain rfl := Option.some.inj hnext
    refine Or.inl ⟨hother ?_, fun _ _ h => h⟩
    rintro rfl
    exact htag (by decide)
  | _ =>
    obtain rfl := Option.some.inj hnext
    exact Or.inl ⟨hother (by simp), fun _ _ h => h⟩

/-- The session keeps the texts that it was sent, and each portal has its own with the
parameters in place. -/
structure Kept (o : Origins) (st : PgState) : Prop where
  statements : ∀ (name : String) (prep : Prepared), st.prepared[name]? = some prep →
    o.statements[name]? = some (asBytes prep.sql)
  portals : ∀ (name : String) (po : Portal), st.portals[name]? = some po →
    ∃ text rendered, o.portals[name]? = some (text, rendered) ∧
      Substituted rendered text (asBytes po.sql)

def HandsOver (t : List SessionEvent) : Prop := ∃ e ∈ t, ∃ sql, handedOver e.op = some sql

theorem Kept.step {o : Origins} (h : Kept o st) (hstep : PgStep ctx st t m (some st'))
    (hforward : HandsOver t → Forwardable m) : Kept (o.record ctx.deps ⟨st, m, t⟩) st' := by
  constructor
  · intro name prep hprep
    obtain ⟨hnone, hold⟩ | ⟨name', prep', hparsed, htag, hsql, ⟨e, he, hover⟩, rfl⟩ :=
      hstep.statements
    · rw [Origins.record, hnone]
      exact h.statements name prep (hold name prep hprep)
    · rw [Origins.record, hparsed]
      dsimp only
      rw [Std.ExtTreeMap.getElem?_insert] at hprep ⊢
      split_ifs at hprep ⊢ with hname
      · obtain rfl := Option.some.inj hprep
        have htext : Valid (parseBytes m.2) := by
          have hm := hforward ⟨e, he, _, hover⟩
          obtain ⟨tag, body⟩ := m
          obtain rfl : tag = 0x50 := htag
          exact hm
        rw [hsql, asBytes_lossy_iff.mpr htext]
      · exact h.statements name prep hprep
  · intro name po hpo
    obtain ⟨hnone, hold⟩ | ⟨b, prep, rendered, inlined, hbound, hprep, hrender, hinline, rfl⟩ :=
      hstep.portals
    · have hunbound : o.bound ctx.deps ⟨st, m, t⟩ = none := by
        unfold Origins.bound
        rw [hnone]
        rfl
      rw [Origins.record, hunbound]
      exact h.portals name po (hold name po hpo)
    · have hbound' : o.bound ctx.deps ⟨st, m, t⟩ =
          some (b.portal, asBytes prep.sql, rendered) := by
        simp [Origins.bound, hbound, hprep, h.statements b.stmt prep hprep, hrender]
      rw [Origins.record, hbound']
      dsimp only
      rw [Std.ExtTreeMap.getElem?_insert] at hpo ⊢
      split_ifs at hpo ⊢ with hname
      · obtain rfl := Option.some.inj hpo
        exact ⟨_, _, rfl, inlineParams_substituted hinline⟩
      · exact h.portals name po hpo

/-- After a run in which only forwardable texts were handed over. -/
theorem run_kept {ts : List PgTurn} {s s' : Unit} (h : (serve ctx).Run (pgSem ctx) {} s ts st s')
    (hforward : ∀ turn ∈ ts, HandsOver turn.trace → Forwardable turn.msg) :
    Kept (originsOf ctx.deps ts) st := by
  have hstep (ts : List PgTurn) (st : PgState) (m : UInt8 × Bytes) (s : Unit)
      (t : List SessionEvent) (st' : PgState) (s' : Unit)
      (hkept : (∀ turn ∈ ts, HandsOver turn.trace → Forwardable turn.msg) →
        Kept (originsOf ctx.deps ts) st)
      (hexec : Exec (pgSem ctx) ((serve ctx).handle st m) s t (.ok (some st')) s')
      (hall : ∀ turn ∈ ts ++ [⟨st, m, t⟩], HandsOver turn.trace → Forwardable turn.msg) :
      Kept (originsOf ctx.deps (ts ++ [⟨st, m, t⟩])) st' := by
    have hbefore := hkept fun turn hturn => hall turn (List.mem_append_left _ hturn)
    have hlast := hall ⟨st, m, t⟩ (by simp)
    rw [originsOf, List.foldl_append]
    exact hbefore.step ((pgHandle_step ctx st m.2 s m.1).exec hexec) hlast
  exact h.history hstep (fun _ => ⟨by simp, by simp⟩) hforward

/-! ## Unaltered texts -/

/-- What is handed over is what the client submitted, to the byte; for an Execute it is what
the portal was bound from, with the parameters of the Bind for their placeholders. -/
def Unaltered (o : Origins) (turn : PgTurn) : Prop :=
  ∀ e ∈ turn.trace, ∀ sql, handedOver e.op = some sql →
    if turn.msg.1 = 0x51 then asBytes sql = queryBytes turn.msg.2
    else if turn.msg.1 = 0x50 then asBytes sql = parseBytes turn.msg.2
    else ∃ text rendered, o.portals[queryText turn.msg.2]? = some (text, rendered) ∧
      Substituted rendered text (asBytes sql)

variable {turn : PgTurn} {out : Outcome EngineError (Option PgState)}

theorem handedOver_submits {pre : List PgTurn}
    (h : (serve ctx).HandledAfter (pgSem ctx) {} () pre turn out) {e : SessionEvent}
    (he : e ∈ turn.trace) {sql : String} (hsql : handedOver e.op = some sql) :
    Submits turn.state turn.msg sql := by
  obtain ⟨_, _, _, _, -, -, hturn⟩ := h
  exact hturn.stops.uses (pgHandle_hands turn.state turn.msg.1 turn.msg.2) e he sql hsql

/-- A text that was handed over unaltered is forwardable. -/
theorem Unaltered.forwardable {o : Origins} {pre : List PgTurn} (h : Unaltered o turn)
    (hafter : (serve ctx).HandledAfter (pgSem ctx) {} () pre turn out)
    (hover : HandsOver turn.trace) : Forwardable turn.msg := by
  obtain ⟨e, he, sql, hsql⟩ := hover
  have hsubmits := handedOver_submits hafter he hsql
  have hsame := h e he sql hsql
  obtain ⟨st, m, t⟩ := turn
  cases hsubmits with
  | query body => exact (asBytes_queryText_iff body).mp hsame
  | parse body => exact asBytes_lossy_iff.mp hsame
  | execute hpo => trivial

/-- A forwardable text is handed over unaltered, after texts that all were. -/
theorem Forwardable.unaltered {pre : List PgTurn}
    (hafter : (serve ctx).HandledAfter (pgSem ctx) {} () pre turn out)
    (hpre : ∀ turn ∈ pre, HandsOver turn.trace → Forwardable turn.msg)
    (h : HandsOver turn.trace → Forwardable turn.msg) :
    Unaltered (originsOf ctx.deps pre) turn := by
  intro e he sql hsql
  have hsubmits := handedOver_submits hafter he hsql
  have hforward := h ⟨e, he, sql, hsql⟩
  obtain ⟨_, _, _, _, hrun, -, -⟩ := hafter
  have hkept := run_kept hrun hpre
  obtain ⟨st, m, t⟩ := turn
  cases hsubmits with
  | query body => exact (asBytes_queryText_iff body).mpr hforward
  | parse body => exact asBytes_lossy_iff.mpr hforward
  | execute hpo => exact hkept.portals _ _ hpo

end

/-- A query of the MySQL session goes to the backend to the byte. -/
def ForwardedWhole (turn : Turn sessionSig Unit Bytes) : Prop :=
  ∀ e ∈ turn.trace, ∀ sql, handedOver e.op = some sql → turn.msg = 0x03 :: asBytes sql

theorem forwardedWhole_iff {ctx : SessionCtx} {turn : Turn sessionSig Unit Bytes}
    {out : Outcome RouterError (Option Unit)}
    (h : (serveSession ctx).Handled (mysqlSem ctx) () () turn out) :
    ForwardedWhole turn ↔ (HandsOver turn.trace → Valid (turn.msg.drop 1)) := by
  have hread {e : SessionEvent} (he : e ∈ turn.trace) {sql : String}
      (hsql : handedOver e.op = some sql) :
      ∃ body, turn.msg = 0x03 :: body ∧ sql = fromUtf8Lossy body := by
    have hquery := (handled_forwards h he hsql).1
    unfold comQuery at hquery
    split at hquery
    · rename_i body hmsg
      exact ⟨body, hmsg, (Option.some.inj hquery).symm⟩
    · cases hquery
  constructor
  · rintro hwhole ⟨e, he, sql, hsql⟩
    rw [hwhole e he sql hsql]
    exact ⟨sql, rfl⟩
  · intro hvalid e he sql hsql
    have htext := hvalid ⟨e, he, sql, hsql⟩
    obtain ⟨body, hmsg, rfl⟩ := hread he hsql
    rw [hmsg] at htext ⊢
    exact congrArg (0x03 :: ·) (asBytes_lossy_iff.mpr htext).symm

theorem parseMsg_handledAfter : ∃ turn out, turn.msg = parseMsg ∧
    (serve tableCtx).HandledAfter (pgSem tableCtx) {} () [] turn out := by
  obtain ⟨t, hparse⟩ := parseMsg_handled
  obtain ⟨_, hread⟩ := pgRead_exec (pgSem_recv tableCtx) [0, 0, 0, 16] parseMsg rfl (by decide)
    (by decide)
  have hturn : Exec (pgSem tableCtx) ((serve tableCtx).handle {} parseMsg) () t
      (.ok (some parsedState)) () := hparse.mono fun _ _ _ _ h => h.1
  exact ⟨⟨{}, parseMsg, t⟩, _, rfl, (), (), (), _, .nil _ _, hread, hturn⟩

/-- `UPDATE t SET a = '\xFF'`, with the byte itself between the quotes. -/
def blobBody : Bytes := updateBody.dropLast ++ [0x27, 0xFF, 0x27]

def blobCtx : SessionCtx :=
  { updateCtx with
    deps := { sampleDeps with sqlparser := parserOf "UPDATE t SET a = '\uFFFD'" updateTree } }

theorem blob_allowed : mysqlVerdict blobCtx (fromUtf8Lossy blobBody) = .allow := by
  decide

theorem blobTurn_handled : (serveSession blobCtx).Handled (mysqlSem blobCtx) () ()
    (okTurn blobCtx blobBody) (.ok (some ())) := by
  have hread : Exec (mysqlSem blobCtx) readCommand ()
      [⟨.recv 4, .ok [21, 0, 0, 0]⟩, ⟨.recv 21, .ok (0x03 :: blobBody)⟩]
      (.ok (some (0x03 :: blobBody))) () :=
    .step (fun bytes h => by cases h; rfl) (.step (fun bytes h => by cases h; rfl) (.halt _ _))
  exact okTurn_handled blob_allowed hread

end MiddleWhere.Net
