import MiddleWhere.Daemon.Protocol
import MiddleWhere.Effects.Monitor

/-!
# One control connection

The state machine of a connection to the control channel. It reads a version preamble,
resolves who the peer is, reads one request, has it dispatched and writes one response.
Every read may fail or time out, and a path that answers early first reads away the
request that the peer may have sent already.
-/

namespace MiddleWhere.Daemon
open Prog
open Net (fromBe)

structure PeerIdentity where
  uid : Option UInt32
  gid : Option UInt32
  user : String
deriving DecidableEq

inductive AuthDecision
  | allow
  | deny (reason : String)
deriving DecidableEq

def adminEvent (peer : PeerIdentity) (action target : String) (decision : AuditDecision)
    (error : Option String) : AdminEvent :=
  .new action target peer.uid peer.gid peer.user decision error

inductive ControlOp
  | recv (len : ℕ)
  | resolve
  | emit (event : AdminEvent)
  | dispatch (peer : PeerIdentity) (req : Request)
  | write (bytes : Bytes)
  | flush

/-- A read answers an error at the end of the stream, on a broken one, and when its time is up. -/
abbrev ControlOp.Res : ControlOp → Type
  | .recv _ => Except String Bytes
  | .resolve => AuthDecision × PeerIdentity
  | .emit _ => Unit
  | .dispatch _ _ => Response
  | .write _ | .flush => Except String Unit

abbrev controlSig : Sig := ⟨ControlOp, ControlOp.Res⟩

abbrev ControlProg := Prog controlSig String
abbrev ControlEvent := Event controlSig

def control (o : ControlOp) : ControlProg o.Res := perform (S := controlSig) o

/-! ## The program -/

section
variable (codec : Codec)

/-- The length is checked before the body is read. -/
def readRequest : ControlProg Request := do
  let lenBuf ← ofExcept (← control (.recv 4))
  let len := fromBe lenBuf
  if maxFrame < len then fail ("control " ++ frameTooLong len)
  else
    let body ← ofExcept (← control (.recv len))
    ofExcept (readFrame codec (lenBuf ++ body))

def drainPendingRequest : ControlProg Unit := do
  let _ ← (readRequest codec).attempt
  return ()

def writeResponse (resp : Response) : ControlProg Unit := do
  let buf ← ofExcept (writeFrame codec resp)
  ofExcept (← control (.write buf))
  ofExcept (← control .flush)

/-- `let _ = write_response(..).await` -/
def reply (resp : Response) : ControlProg Unit := do
  let _ ← (writeResponse codec resp).attempt
  return ()

def handleConn : ControlProg Unit := do
  match ← (readRequest codec).attempt with
  | .error _ => return ()
  | .ok (.hello version) =>
    if version = protocolVersion then
      let (decision, peer) ← control .resolve
      match decision with
      | .deny reason =>
        control (.emit (adminEvent peer "authz" "" .deny (some reason)))
        drainPendingRequest codec
        reply codec (.denied reason)
      | .allow =>
        match ← (readRequest codec).attempt with
        | .error _ => return ()
        | .ok req =>
          let resp ← control (.dispatch peer req)
          reply codec resp
    else
      drainPendingRequest codec
      reply codec (.error "protocol version mismatch; upgrade the client")
  | .ok _ =>
    drainPendingRequest codec
    reply codec (.error "expected a Hello preamble first")

/-! ## What a trace shows -/

/-- The reads of one whole frame that carries `req`. -/
def Frame (t : List ControlEvent) (req : Request) : Prop :=
  ∃ lenBuf body, t = [⟨.recv 4, .ok lenBuf⟩, ⟨.recv (fromBe lenBuf), .ok body⟩] ∧
    readFrame codec (lenBuf ++ body) = .ok req

def Greeted (t : List ControlEvent) : Prop := Frame codec t (.hello protocolVersion)

/-- A preamble, the resolver's permission for `peer`, and the frame of `req`. -/
def Authorized (t : List ControlEvent) (peer : PeerIdentity) (req : Request) : Prop :=
  ∃ hello request, Greeted codec hello ∧ Frame codec request req ∧
    t = hello ++ ⟨.resolve, (.allow, peer)⟩ :: request

end

def denial (reason : String) (peer : PeerIdentity) : ControlEvent :=
  ⟨.resolve, (.deny reason, peer)⟩

def isResolve : ControlEvent → Bool
  | ⟨.resolve, _⟩ => true
  | _ => false

def isDispatch : ControlEvent → Bool
  | ⟨.dispatch _ _, _⟩ => true
  | _ => false

def isWrite : ControlEvent → Bool
  | ⟨.write _, _⟩ => true
  | _ => false

def isRecv : ControlEvent → Bool
  | ⟨.recv _, _⟩ => true
  | _ => false

def audited (t : List ControlEvent) : List AdminEvent :=
  t.filterMap fun
    | ⟨.emit event, _⟩ => some event
    | _ => none

/-- What the resolver's refusals are to be audited as. -/
def denials (t : List ControlEvent) : List AdminEvent :=
  t.filterMap fun
    | ⟨.resolve, (.deny reason, peer)⟩ => some (adminEvent peer "authz" "" .deny (some reason))
    | _ => none

/-! ## The rule of the connection -/

/-- The last event is a refusal that is not audited yet. -/
def Pending (t : List ControlEvent) : Prop := ∃ reason peer, t.getLast? = some (denial reason peer)

/-- What an event must satisfy, given all events before it. -/
def Rule (codec : Codec) (pre : List ControlEvent) : ControlEvent → Prop
  | ⟨.resolve, _⟩ => Greeted codec pre
  | ⟨.dispatch peer req, _⟩ => Authorized codec pre peer req
  | ⟨.emit event, _⟩ => ∃ hello reason peer, Greeted codec hello ∧
      pre = hello ++ [denial reason peer] ∧
      event = adminEvent peer "authz" "" .deny (some reason)
  | ⟨.write _, _⟩ => pre.countP isWrite = 0 ∧ ¬ Pending pre
  | ⟨.recv _, _⟩ | ⟨.flush, _⟩ => ¬ Pending pre

variable {codec : Codec} {M : Sem controlSig Unit}

theorem not_pending_of_recv {x frame : List ControlEvent} (hx : ¬ Pending x)
    (hframe : ∀ e ∈ frame, isRecv e = true) : ¬ Pending (x ++ frame) := by
  rintro ⟨reason, peer, hlast⟩
  rcases List.eq_nil_or_concat frame with rfl | ⟨front, e, rfl⟩
  · rw [List.append_nil] at hlast
    exact hx ⟨reason, peer, hlast⟩
  · have he : isRecv e = true := hframe e (by simp)
    have hevent : e = denial reason peer := by simpa using hlast
    rw [hevent] at he
    cases he

/-- Reading a frame appends reads to the history, and they are the frame if it comes whole. -/
theorem readRequest_guards {x : List ControlEvent} (hx : ¬ Pending x) :
    (Monitor.history (Rule codec)).Guards M (readRequest codec) x () fun x' out _ =>
      ∃ frame, x' = x ++ frame ∧ (∀ e ∈ frame, isRecv e = true) ∧
        out ≠ .panic ∧ ∀ req, out = .ok req → Frame codec frame req := by
  intro lenBuf _ _
  have hfirst : ∀ e ∈ [(⟨.recv 4, lenBuf⟩ : ControlEvent)], isRecv e = true := by simp [isRecv]
  refine ⟨hx, ?_⟩
  cases lenBuf with
  | error e => exact ⟨_, rfl, hfirst, nofun, nofun⟩
  | ok lenBuf =>
    by_cases hlen : maxFrame < fromBe lenBuf
    · simp only [Prog.halt_ok_bind, Prog.ofExcept_ok, Prog.bind_eq, if_pos hlen]
      exact ⟨_, rfl, hfirst, nofun, nofun⟩
    · simp only [Prog.halt_ok_bind, Prog.ofExcept_ok, Prog.bind_eq, if_neg hlen]
      intro body _ _
      have hpending := not_pending_of_recv hx hfirst
      refine ⟨hpending, ?_⟩
      have hboth : ∀ e ∈ [(⟨.recv 4, .ok lenBuf⟩ : ControlEvent), ⟨.recv (fromBe lenBuf), body⟩],
          isRecv e = true := by simp [isRecv]
      cases body with
      | error e => exact ⟨_, by simp, hboth, nofun, nofun⟩
      | ok body =>
        simp only [Prog.halt_ok_bind, Prog.ofExcept_ok]
        cases hread : readFrame codec (lenBuf ++ body) with
        | error e => exact ⟨_, by simp, hboth, nofun, nofun⟩
        | ok req =>
          refine ⟨_, by simp, hboth, nofun, ?_⟩
          intro req' hreq
          cases hreq
          exact ⟨lenBuf, body, rfl, hread⟩

theorem drain_guards {x : List ControlEvent} (hx : ¬ Pending x) :
    (Monitor.history (Rule codec)).Guards M (drainPendingRequest codec) x () fun x' out _ =>
      out = .ok () ∧ ∃ frame, x' = x ++ frame ∧ ∀ e ∈ frame, isRecv e = true := by
  apply Monitor.guards_bind.mpr
  apply Monitor.guards_attempt.mpr
  apply (readRequest_guards hx).mono
  intro x' out _ hread
  obtain ⟨frame, hframe, hrecv, hout, -⟩ := hread
  cases out with
  | ok req => exact ⟨rfl, frame, hframe, hrecv⟩
  | err e => exact ⟨rfl, frame, hframe, hrecv⟩
  | panic => exact absurd rfl hout

theorem not_pending_snoc {x : List ControlEvent} {e : ControlEvent} (he : isResolve e = false) :
    ¬ Pending (x ++ [e]) := by
  rintro ⟨reason, peer, hlast⟩
  have hevent : e = denial reason peer := by simpa using hlast
  rw [hevent] at he
  cases he

theorem reply_guards {x : List ControlEvent} (hx : ¬ Pending x) (hw : x.countP isWrite = 0)
    (resp : Response) : (Monitor.history (Rule codec)).Guards M (reply codec resp) x ()
      fun x' _ _ => ¬ Pending x' := by
  apply Monitor.guards_bind.mpr
  apply Monitor.guards_attempt.mpr
  unfold writeResponse
  cases hbuf : writeFrame codec resp with
  | error e => exact hx
  | ok buf =>
    intro wrote _ _
    have hwrote : ¬ Pending (x ++ [(⟨.write buf, wrote⟩ : ControlEvent)]) := not_pending_snoc rfl
    refine ⟨⟨hw, hx⟩, ?_⟩
    cases wrote with
    | error e => exact hwrote
    | ok _ =>
      intro flushed _ _
      have hflushed : ¬ Pending (x ++ [⟨.write buf, .ok ()⟩] ++
          [(⟨.flush, flushed⟩ : ControlEvent)]) := not_pending_snoc rfl
      refine ⟨hwrote, ?_⟩
      cases flushed with
      | error e => exact hflushed
      | ok _ => exact hflushed

theorem countP_write_of_recv {frame : List ControlEvent} (h : ∀ e ∈ frame, isRecv e = true) :
    frame.countP isWrite = 0 := by
  apply List.countP_eq_zero.mpr
  intro e he hw
  have hrecv := h e he
  obtain ⟨o, r⟩ := e
  cases o with
  | recv len => cases hw
  | _ => cases hrecv

/-- A path that answers without dispatching. -/
theorem drain_reply_guards {x : List ControlEvent} (hx : ¬ Pending x)
    (hw : x.countP isWrite = 0) (resp : Response) :
    (Monitor.history (Rule codec)).Guards M
      ((drainPendingRequest codec).bind fun _ => reply codec resp) x () fun x' _ _ =>
        ¬ Pending x' := by
  apply Monitor.guards_bind.mpr
  apply (drain_guards hx).mono
  intro x' out _ hdrain
  obtain ⟨rfl, frame, rfl, hrecv⟩ := hdrain
  have hcount := countP_write_of_recv hrecv
  apply reply_guards (not_pending_of_recv hx hrecv)
  rw [List.countP_append, hw, hcount]

theorem recv_of_frame {t : List ControlEvent} {req : Request} (h : Frame codec t req) :
    ∀ e ∈ t, isRecv e = true := by
  obtain ⟨lenBuf, body, rfl, -⟩ := h
  simp [isRecv]

theorem handleConn_guards :
    (Monitor.history (Rule codec)).Guards M (handleConn codec) [] () fun x _ _ => ¬ Pending x := by
  have hstart : ¬ Pending [] := by rintro ⟨reason, peer, hlast⟩; cases hlast
  unfold handleConn
  apply Monitor.guards_bind.mpr
  apply Monitor.guards_attempt.mpr
  apply (readRequest_guards hstart).mono
  intro hello out _ hread
  obtain ⟨_, rfl, hrecv, hout, hframe⟩ := hread
  have hx : ¬ Pending hello := not_pending_of_recv hstart hrecv
  have hw := countP_write_of_recv hrecv
  cases out with
  | panic => exact absurd rfl hout
  | err e => exact hx
  | ok first =>
    have hfirst := hframe first rfl
    cases first with
    | hello version =>
      by_cases hversion : version = protocolVersion
      · subst hversion
        simp only [Outcome.attempt, if_pos, control, perform, Prog.bind_eq, Prog.call_bind,
          Prog.halt_ok_bind]
        rintro ⟨decision, peer⟩ _ _
        refine ⟨hfirst, ?_⟩
        cases decision with
        | deny reason =>
          intro _ _ _
          refine ⟨⟨hello, reason, peer, hfirst, rfl, rfl⟩, ?_⟩
          apply drain_reply_guards (not_pending_snoc rfl)
          simp [hw, isWrite]
        | allow =>
          have hallowed : ¬ Pending (hello ++ [⟨.resolve, (.allow, peer)⟩]) := by
            rintro ⟨reason, peer', hlast⟩
            simp [denial] at hlast
          apply Monitor.guards_bind.mpr
          apply Monitor.guards_attempt.mpr
          apply (readRequest_guards hallowed).mono
          intro x out _ hread
          obtain ⟨request, rfl, hrecv', hout', hframe'⟩ := hread
          have hx' := not_pending_of_recv hallowed hrecv'
          cases out with
          | panic => exact absurd rfl hout'
          | err e => exact hx'
          | ok req =>
            intro resp _ _
            refine ⟨⟨hello, request, hfirst, hframe' req rfl, by simp⟩, ?_⟩
            apply reply_guards (not_pending_snoc rfl)
            simp [hw, countP_write_of_recv hrecv', isWrite]
      · simp only [Outcome.attempt, if_neg hversion]
        exact drain_reply_guards hx hw _
    | _ => exact drain_reply_guards hx hw _

/-! ## Mediation -/

/-- What holds of everything that a connection has called so far. -/
structure Mediated (codec : Codec) (t : List ControlEvent) : Prop where
  dispatched : ∀ pre peer req r post, t = pre ++ ⟨.dispatch peer req, r⟩ :: post →
    Authorized codec pre peer req
  resolved : ∀ pre r post, t = pre ++ ⟨.resolve, r⟩ :: post → Greeted codec pre
  resolves : t.countP isResolve ≤ 1
  dispatches : t.countP isDispatch ≤ 1
  writes : t.countP isWrite ≤ 1
  denied : ∀ reason peer, denial reason peer ∈ t → t.countP isDispatch = 0
  audits : audited t = denials t ∨
    ∃ pre reason peer, t = pre ++ [denial reason peer] ∧ audited t = []

/-- Nothing but reads comes before the resolver. -/
theorem countP_of_frame {t : List ControlEvent} {req : Request} {p : ControlEvent → Bool}
    (h : Frame codec t req) (hp : ∀ e, isRecv e = true → p e = false) : t.countP p = 0 := by
  apply List.countP_eq_zero.mpr
  intro e he hpe
  rw [hp e (recv_of_frame h e he)] at hpe
  cases hpe

theorem isResolve_of_recv (e : ControlEvent) (h : isRecv e = true) : isResolve e = false := by
  obtain ⟨o, r⟩ := e
  cases o with
  | recv len => rfl
  | _ => cases h

theorem isDispatch_of_recv (e : ControlEvent) (h : isRecv e = true) : isDispatch e = false := by
  obtain ⟨o, r⟩ := e
  cases o with
  | recv len => rfl
  | _ => cases h

theorem countP_of_authorized {t : List ControlEvent} {peer : PeerIdentity} {req : Request}
    (h : Authorized codec t peer req) : t.countP isDispatch = 0 ∧ t.countP isResolve = 1 := by
  obtain ⟨hello, request, hhello, hrequest, rfl⟩ := h
  have hd := countP_of_frame hhello isDispatch_of_recv
  have hd' := countP_of_frame hrequest isDispatch_of_recv
  have hr := countP_of_frame hhello isResolve_of_recv
  have hr' := countP_of_frame hrequest isResolve_of_recv
  constructor
  · simp [hd, hd', isDispatch]
  · rw [List.countP_append, List.countP_cons_of_pos rfl, hr, hr']

theorem denial_not_mem_of_authorized {t : List ControlEvent} {peer peer' : PeerIdentity}
    {req : Request} {reason : String} (h : Authorized codec t peer req) :
    denial reason peer' ∉ t := by
  obtain ⟨hello, request, hhello, hrequest, rfl⟩ := h
  intro hmem
  rcases List.mem_append.mp hmem with hmem | hmem
  · cases recv_of_frame hhello _ hmem
  · rcases List.mem_cons.mp hmem with heq | hmem
    · cases heq
    · cases recv_of_frame hrequest _ hmem

/-- A refusal after a dispatch would be a second answer of the resolver. -/
theorem not_denied_of_authorized {pre post : List ControlEvent} {peer peer' : PeerIdentity}
    {req : Request} {r : Response} {reason : String} (h : Authorized codec pre peer req)
    (hone : (pre ++ ⟨.dispatch peer req, r⟩ :: post).countP isResolve ≤ 1) :
    denial reason peer' ∉ pre ++ (⟨.dispatch peer req, r⟩ :: post : List ControlEvent) := by
  have hpre := (countP_of_authorized h).2
  rw [List.countP_append, hpre] at hone
  intro hmem
  rcases List.mem_append.mp hmem with hmem | hmem
  · exact denial_not_mem_of_authorized h hmem
  · have hpos : 0 < (⟨.dispatch peer req, r⟩ :: post : List ControlEvent).countP isResolve :=
      List.countP_pos_iff.mpr ⟨_, hmem, rfl⟩
    omega

theorem audited_of_frame {t : List ControlEvent} {req : Request} (h : Frame codec t req) :
    audited t = [] ∧ denials t = [] := by
  obtain ⟨lenBuf, body, rfl, -⟩ := h
  exact ⟨rfl, rfl⟩

theorem audited_append (t t' : List ControlEvent) : audited (t ++ t') = audited t ++ audited t' :=
  List.filterMap_append

theorem denials_append (t t' : List ControlEvent) : denials (t ++ t') = denials t ++ denials t' :=
  List.filterMap_append

/-- A refusal is audited by the next event, and nothing else is audited. -/
theorem audits_step {pre : List ControlEvent} {e : ControlEvent} (hrule : Rule codec pre e)
    (hpre : audited pre = denials pre ∨
      ∃ front reason peer, pre = front ++ [denial reason peer] ∧ audited pre = []) :
    audited (pre ++ [e]) = denials (pre ++ [e]) ∨
      ∃ front reason peer, pre ++ [e] = front ++ [denial reason peer] ∧ audited (pre ++ [e]) = [] := by
  have hquiet : ¬ Pending pre → audited pre = denials pre := by
    intro hpending
    rcases hpre with hpre | ⟨front, reason, peer, rfl, -⟩
    · exact hpre
    · exact absurd ⟨reason, peer, by simp⟩ hpending
  rw [audited_append, denials_append]
  obtain ⟨o, r⟩ := e
  cases o with
  | recv len => exact Or.inl (congrArg (· ++ []) (hquiet hrule))
  | flush => exact Or.inl (congrArg (· ++ []) (hquiet hrule))
  | write bytes => exact Or.inl (congrArg (· ++ []) (hquiet hrule.2))
  | dispatch peer req =>
    rcases hpre with hpre | ⟨front, reason, peer', rfl, -⟩
    · exact Or.inl (congrArg (· ++ []) hpre)
    · have hmem : denial reason peer' ∈ front ++ [denial reason peer'] := by simp
      exact absurd hmem (denial_not_mem_of_authorized hrule)
  | emit event =>
    obtain ⟨hello, reason, peer, hhello, rfl, rfl⟩ := hrule
    obtain ⟨haudit, hdenial⟩ := audited_of_frame hhello
    refine Or.inl ?_
    rw [audited_append, denials_append, haudit, hdenial]
    rfl
  | resolve =>
    obtain ⟨haudit, hdenial⟩ := audited_of_frame hrule
    rw [haudit, hdenial]
    obtain ⟨decision, peer⟩ := r
    cases decision with
    | allow => exact Or.inl rfl
    | deny reason => exact Or.inr ⟨pre, reason, peer, rfl, rfl⟩

theorem mediated_of_accepts {t : List ControlEvent}
    (h : (Monitor.history (Rule codec)).Accepts [] t) : Mediated codec t := by
  have hresolves : t.countP isResolve ≤ 1 := by
    apply h.countP_le_one
    rintro pre ⟨o, r⟩ hrule hp
    cases o with
    | resolve => exact countP_of_frame hrule isResolve_of_recv
    | _ => cases hp
  have hdispatches : t.countP isDispatch ≤ 1 := by
    apply h.countP_le_one
    rintro pre ⟨o, r⟩ hrule hp
    cases o with
    | dispatch peer req => exact (countP_of_authorized hrule).1
    | _ => cases hp
  have hwrites : t.countP isWrite ≤ 1 := by
    apply h.countP_le_one
    rintro pre ⟨o, r⟩ hrule hp
    cases o with
    | write bytes => exact hrule.1
    | _ => cases hp
  have hdispatched : ∀ pre peer req r post, t = pre ++ ⟨.dispatch peer req, r⟩ :: post →
      Authorized codec pre peer req := by
    rintro pre peer req r post rfl
    exact Monitor.rule_of_accepts h
  refine ⟨hdispatched, ?_, hresolves, hdispatches, hwrites, ?_, ?_⟩
  · rintro pre r post rfl
    exact Monitor.rule_of_accepts h
  · intro reason peer hmem
    apply List.countP_eq_zero.mpr
    rintro ⟨o, r⟩ he hp
    cases o with
    | dispatch peer' req =>
      obtain ⟨pre, post, rfl⟩ := List.append_of_mem he
      exact not_denied_of_authorized (hdispatched _ _ _ _ _ rfl) hresolves hmem
    | _ => cases hp
  · apply h.invariant (Or.inl rfl)
    intro pre e hpre hrule
    exact audits_step hrule hpre

/-- Whatever a peer sends and whenever it stops, a request is dispatched only after the right
preamble and the resolver's permission, once, and a refusal is audited once. -/
theorem control_channel_mediation (codec : Codec) :
    always (Sem.free controlSig) (handleConn codec) (fun t _ => Mediated codec t) () ∧
      wp (Sem.free controlSig) (handleConn codec) (fun t _ _ => audited t = denials t) () := by
  constructor
  · intro t _ hstops
    exact mediated_of_accepts (handleConn_guards.accepts hstops)
  · intro t _ _ hexec
    have hguards : (Monitor.history (Rule codec)).Guards (Sem.free controlSig) (handleConn codec) []
        () fun x _ _ => ¬ Pending x := handleConn_guards
    have hended := hguards.ends hexec
    rw [Monitor.history_after, List.nil_append] at hended
    rcases (mediated_of_accepts (hguards.accepts hexec.stops)).audits with heq | ⟨pre, reason, peer, rfl, -⟩
    · exact heq
    · exact absurd ⟨reason, peer, by simp⟩ hended

end MiddleWhere.Daemon
