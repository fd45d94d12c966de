import MiddleWhere.Daemon.FrameCodec
import MiddleWhere.Effects.Duplex

/-!
# The client of the control channel

One request per connection: a greeting, the request, one response. Whatever the daemon and the
wire do, what the client says is the front of two frames, and a response that it returns is the
first frame that it was sent.
-/

namespace MiddleWhere.Ctl.Client
open Prog Duplex
open Daemon (Request Response maxFrame frameTooLong protocolVersion splitFrame
  splitFrame_eq_some_iff splitFrame_frame)
open Net (fromBe be fromBe_be be_length)

inductive ClientOp
  | recv (len : ℕ)
  | write (bytes : Bytes)
  | flush

abbrev ClientOp.Res : ClientOp → Type
  | .recv _ => Except String Bytes
  | .write _ | .flush => Except String Unit

abbrev clientSig : Sig := ⟨ClientOp, ClientOp.Res⟩

abbrev ClientProg := Prog clientSig String

def client (o : ClientOp) : ClientProg o.Res := perform (S := clientSig) o

/-- The encoding of messages, seen from the client. -/
structure Codec where
  encode : Request → Except String Bytes
  decode : Bytes → Except String Response

/-- `.context(context)?` -/
def orContext {α : Type} (context : String) (r : Except String α) : ClientProg α :=
  ofExcept (r.mapError fun e => context ++ ": " ++ e)

def withContext {α : Type} (context : String) (p : ClientProg α) : ClientProg α :=
  p.mapErr fun e => context ++ ": " ++ e

section
variable (codec : Codec)

def writeFrame (req : Request) : ClientProg Unit := do
  let body ← orContext "cbor-encode frame" (codec.encode req)
  if maxFrame < body.length then
    fail ("frame body " ++ toString body.length ++ " exceeds MAX_FRAME " ++ toString maxFrame)
  else
    orContext "write frame length" (← client (.write (be 4 body.length)))
    orContext "write frame body" (← client (.write body))
    orContext "flush frame" (← client .flush)

def readFrame : ClientProg Response := do
  let lenBuf ← orContext "read frame length" (← client (.recv 4))
  let len := fromBe lenBuf
  if maxFrame < len then fail (frameTooLong len)
  else
    let body ← orContext "read frame body" (← client (.recv len))
    orContext "cbor-decode frame" (codec.decode body)

/-- The exchange of a client that was built for `version`. -/
def exchange (version : UInt16) (req : Request) : ClientProg Response := do
  withContext "send handshake" (writeFrame codec (.hello version))
  withContext "send request" (writeFrame codec req)
  withContext "read response" (readFrame codec)

end

inductive CallError
  | unreachable (endpoint : String)
  | failed (e : String)

def adminGroup : String := "middlewhere-admins"

/-- The response that the caller gets to see. -/
def finish (exchanged : Except String Response) : Except CallError Response :=
  match exchanged with
  | .ok (.denied m) =>
    .error (.failed ("permission denied: " ++ m ++ " (are you in the " ++ adminGroup ++ " group?)"))
  | .ok (.error m) => .error (.failed m)
  | .ok resp => .ok resp
  | .error e => .error (.failed e)

theorem finish_ok {exchanged : Except String Response} {value : Response}
    (h : finish exchanged = .ok value) : exchanged = .ok value ∧
      (∀ m, value ≠ .denied m) ∧ ∀ m, value ≠ .error m := by
  cases exchanged with
  | error e => cases h
  | ok resp =>
    cases resp with
    | denied m => cases h
    | error m => cases h
    | _ =>
      cases h
      exact ⟨rfl, fun _ => Response.noConfusion, fun _ => Response.noConfusion⟩

/-! ## What it says -/

def clientPort : Port clientSig UInt8
  | .recv n => .recv n .ok fun r => ∃ e, r = .error e
  | .write bytes => .send bytes (.ok ()) fun r => ∃ e, r = .error e
  | .flush => .send [] (.ok ()) fun r => ∃ e, r = .error e

theorem lively_client : Lively clientPort where
  fails o n got fails h := by
    cases o with
    | recv len =>
      cases h
      exact ⟨_, "", rfl⟩
    | write bytes => cases h
    | flush => cases h
  inner o may h := by cases o <;> cases h

section
variable (codec : Codec)

/-- The frame of a request, if it has one. -/
def framed (req : Request) : Bytes :=
  match codec.encode req with
  | .ok body => if maxFrame < body.length then [] else be 4 body.length ++ body
  | .error _ => []

/-- All that a client says. -/
def wire (version : UInt16) (req : Request) : Bytes :=
  if framed codec (.hello version) = [] then []
  else framed codec (.hello version) ++ framed codec req

end

variable {codec : Codec} {faulty : Prop} {input : Bytes} {s s' : ℕ × Bytes}

theorem framed_ne_nil {req : Request} (h : framed codec req ≠ []) :
    ∃ body, codec.encode req = .ok body ∧ body.length ≤ maxFrame := by
  cases hbody : codec.encode req with
  | error e => exact absurd (by simp [framed, hbody]) h
  | ok body =>
    refine ⟨body, rfl, ?_⟩
    by_contra hlong
    exact h (by simp [framed, hbody, not_le.mp hlong])

theorem framed_of_encode {req : Request} {body : Bytes} (h : codec.encode req = .ok body)
    (hmax : body.length ≤ maxFrame) : framed codec req = be 4 body.length ++ body := by
  unfold framed
  rw [h]
  exact if_neg (by omega)

/-- The answers of a write. -/
theorem alone_write {bytes : Bytes} {r : Except String Unit}
    (h : alone clientPort faulty input s (.write bytes) r s') :
    (r = .ok () ∧ s' = (s.1, s.2 ++ bytes)) ∨
      ((∃ e, r = .error e) ∧ ∃ front, front <+: bytes ∧ s'.2 = s.2 ++ front) := by
  obtain hdone | ⟨-, hfails, -, hfront⟩ := h
  · exact Or.inl hdone
  · exact Or.inr ⟨hfails, hfront⟩

theorem alone_flush {r : Except String Unit} (h : alone clientPort faulty input s .flush r s') :
    s'.2 = s.2 ∧ (r = .ok () → s' = s) := by
  obtain ⟨rfl, rfl⟩ | ⟨-, ⟨e, rfl⟩, -, front, hfront, hs⟩ := h
  · exact ⟨by simp, fun _ => by simp⟩
  · rw [List.prefix_nil.mp hfront, List.append_nil] at hs
    exact ⟨hs, nofun⟩

theorem reaches_write {α : Type} {bytes : Bytes} {context : String} {k : Unit → ClientProg α}
    (h : Reaches (alone clientPort faulty input) ((client (.write bytes)).bind fun r =>
      (orContext context r).bind k) s s') :
    (∃ front, front <+: bytes ∧ s'.2 = s.2 ++ front) ∨
      Reaches (alone clientPort faulty input) (k ()) (s.1, s.2 ++ bytes) s' := by
  obtain rfl | ⟨r, s₁, hM, hk⟩ := reaches_call.mp h
  · exact Or.inl ⟨[], List.nil_prefix, (List.append_nil _).symm⟩
  · obtain ⟨rfl, rfl⟩ | ⟨⟨e, rfl⟩, front, hfront, hs⟩ := alone_write hM
    · exact Or.inr hk
    · exact Or.inl ⟨front, hfront, by rw [reaches_halt.mp hk, hs]⟩

theorem ends_write {α : Type} {bytes : Bytes} {context : String} {k : Unit → ClientProg α} {a : α}
    (h : Ends (alone clientPort faulty input) ((client (.write bytes)).bind fun r =>
      (orContext context r).bind k) s a s') :
    Ends (alone clientPort faulty input) (k ()) (s.1, s.2 ++ bytes) a s' := by
  obtain ⟨r, s₁, hM, hk⟩ := ends_call.mp h
  obtain ⟨rfl, rfl⟩ | ⟨⟨e, rfl⟩, -⟩ := alone_write hM
  · exact hk
  · exact absurd hk ends_halt_err

theorem reaches_writeFrame {req : Request}
    (h : Reaches (alone clientPort faulty input) (writeFrame codec req) s s') :
    ∃ front, front <+: framed codec req ∧ s'.2 = s.2 ++ front := by
  have hnone (hs : s' = s) : ∃ front, front <+: framed codec req ∧ s'.2 = s.2 ++ front :=
    ⟨[], List.nil_prefix, by rw [hs, List.append_nil]⟩
  unfold writeFrame at h
  cases hbody : codec.encode req with
  | error e =>
    rw [hbody] at h
    exact hnone (reaches_halt.mp h)
  | ok body =>
    rw [hbody] at h
    simp only [orContext, Except.mapError, ofExcept_ok, bind_eq, halt_ok_bind] at h
    by_cases hmax : maxFrame < body.length
    · rw [if_pos hmax] at h
      exact hnone (reaches_halt.mp h)
    · rw [if_neg hmax] at h
      rw [framed_of_encode hbody (by omega)]
      obtain ⟨front, hfront, hs⟩ | h := reaches_write h
      · exact ⟨front, hfront.trans (List.prefix_append _ _), hs⟩
      · obtain ⟨front, hfront, hs⟩ | h := reaches_write h
        · refine ⟨be 4 body.length ++ front, (List.prefix_append_right_inj _).mpr hfront, ?_⟩
          rw [hs, List.append_assoc]
        · refine ⟨_, List.prefix_refl _, ?_⟩
          rw [← List.append_assoc]
          obtain rfl | ⟨r, s₁, hM, hk⟩ := reaches_call.mp h
          · rfl
          · have hs := (alone_flush hM).1
            cases r with
            | ok _ => rw [reaches_halt.mp hk, hs]
            | error e => rw [reaches_halt.mp hk, hs]

theorem ends_writeFrame {req : Request} {u : Unit}
    (h : Ends (alone clientPort faulty input) (writeFrame codec req) s u s') :
    framed codec req ≠ [] ∧ s' = (s.1, s.2 ++ framed codec req) := by
  unfold writeFrame at h
  cases hbody : codec.encode req with
  | error e =>
    rw [hbody] at h
    exact absurd h ends_halt_err
  | ok body =>
    rw [hbody] at h
    simp only [orContext, Except.mapError, ofExcept_ok, bind_eq, halt_ok_bind] at h
    by_cases hmax : maxFrame < body.length
    · rw [if_pos hmax] at h
      exact absurd h ends_halt_err
    · rw [if_neg hmax] at h
      obtain ⟨r, s₁, hM, hk⟩ := ends_call.mp (ends_write (ends_write h))
      cases r with
      | error e => exact absurd hk ends_halt_err
      | ok _ =>
        rw [(ends_halt_ok.mp hk).2, (alone_flush hM).2 rfl, framed_of_encode hbody (by omega),
          ← List.append_assoc]
        refine ⟨fun hnone => ?_, rfl⟩
        have hfour : (be 4 body.length).length = 4 := be_length ..
        rw [(List.append_eq_nil_iff.mp hnone).1] at hfour
        cases hfour

theorem readFrame_reads :
    (readFrame codec).Uses fun o => ∃ n got fails, clientPort o = .recv n got fails := by
  have hrecv (n : ℕ) : (client (.recv n)).Uses fun o => ∃ n got fails, clientPort o = .recv n got fails :=
    ⟨⟨n, _, _, rfl⟩, fun _ => uses_halt _⟩
  refine uses_bind (hrecv 4) fun r => uses_bind (uses_ofExcept _) fun lenBuf => ?_
  dsimp only
  split_ifs with hmax
  · exact uses_halt _
  · exact uses_bind (hrecv _) fun r => uses_bind (uses_ofExcept _) fun body => uses_ofExcept _

/-- What the client says is the front of its two frames. -/
theorem exchange_says {version : UInt16} {req : Request}
    (h : Reaches (alone clientPort faulty input) (exchange codec version req) (0, []) s') :
    s'.2 <+: wire codec version req := by
  unfold exchange withContext at h
  obtain hhello | ⟨_, s₁, hhello, h⟩ := reaches_bind.mp h
  · obtain ⟨front, hfront, hs⟩ := reaches_writeFrame (reaches_mapErr.mp hhello)
    rw [hs, List.nil_append]
    unfold wire
    split_ifs with hnone
    · exact hnone ▸ hfront
    · exact hfront.trans (List.prefix_append _ _)
  · obtain ⟨hsome, rfl⟩ := ends_writeFrame (ends_mapErr.mp hhello)
    unfold wire
    rw [if_neg hsome]
    obtain hreq | ⟨_, s₂, hreq, h⟩ := reaches_bind.mp h
    · obtain ⟨front, hfront, hs⟩ := reaches_writeFrame (reaches_mapErr.mp hreq)
      rw [hs, List.nil_append]
      exact (List.prefix_append_right_inj _).mpr hfront
    · obtain ⟨-, rfl⟩ := ends_writeFrame (ends_mapErr.mp hreq)
      rw [said_of_reads (reaches_mapErr.mp h) readFrame_reads]
      exact List.prefix_refl _

/-! ## What it hears -/

theorem ends_read {α : Type} {n : ℕ} {context : String} {k : Bytes → ClientProg α} {a : α}
    (h : Ends (alone clientPort faulty input) ((client (.recv n)).bind fun r =>
      (orContext context r).bind k) s a s') :
    s.1 + n ≤ input.length ∧
      Ends (alone clientPort faulty input) (k ((input.drop s.1).take n)) (s.1 + n, s.2) a s' := by
  obtain ⟨r, s₁, hM, hk⟩ := ends_call.mp h
  obtain ⟨hthere, rfl, rfl⟩ | ⟨-, ⟨e, rfl⟩, -⟩ := hM
  · exact ⟨hthere, hk⟩
  · exact absurd hk ends_halt_err

/-- A response that is returned is the first frame there was. -/
theorem exchange_hears {version : UInt16} {req : Request} {resp : Response}
    (h : Ends (alone clientPort faulty input) (exchange codec version req) (0, []) resp s') :
    ∃ body rest, splitFrame input = some (body, rest) ∧ codec.decode body = .ok resp := by
  unfold exchange withContext at h
  obtain ⟨_, s₁, hhello, h⟩ := ends_bind.mp h
  obtain ⟨-, rfl⟩ := ends_writeFrame (ends_mapErr.mp hhello)
  obtain ⟨_, s₂, hreq, h⟩ := ends_bind.mp h
  obtain ⟨-, rfl⟩ := ends_writeFrame (ends_mapErr.mp hreq)
  obtain ⟨hfour, h⟩ := ends_read (ends_mapErr.mp h)
  dsimp only at hfour h
  rw [Nat.zero_add, List.drop_zero] at h
  by_cases hmax : maxFrame < fromBe (input.take 4)
  · rw [if_pos hmax] at h
    exact absurd h ends_halt_err
  · rw [if_neg hmax] at h
    obtain ⟨hthere, h⟩ := ends_read h
    dsimp only at hthere h
    have hlen : fromBe (input.take 4) ≤ (input.drop 4).length := by
      rw [List.length_drop]
      omega
    refine ⟨_, _, splitFrame_eq_some_iff.mpr ⟨⟨by omega, by omega, hlen⟩, rfl, rfl⟩, ?_⟩
    have hdecoded := (ends_ofExcept.mp h).1
    cases hdecode : codec.decode ((input.drop 4).take (fromBe (input.take 4))) with
    | error e =>
      rw [hdecode] at hdecoded
      cases hdecoded
    | ok resp' =>
      rw [hdecode] at hdecoded
      exact hdecoded

/-! ## Without faults -/

section
variable {α : Type} {P : Bytes → Prop} {k : Unit → ClientProg α} {f : String → String} {out : Bytes}

theorem asks_writeFrame {req : Request} {body : Bytes} (hbody : codec.encode req = .ok body)
    (hmax : body.length ≤ maxFrame) (hk : Asks clientPort P (k ()) out) :
    Asks clientPort P (((writeFrame codec req).mapErr f).bind k) (framed codec req ++ out) := by
  rw [framed_of_encode hbody hmax, List.append_assoc]
  unfold writeFrame
  rw [hbody]
  simp only [orContext, Except.mapError, ofExcept_ok, bind_eq, halt_ok_bind, if_neg (not_lt.mpr hmax)]
  refine ⟨_, rfl, ?_⟩
  refine ⟨_, rfl, ?_⟩
  exact ⟨_, rfl, hk⟩

/-- Where a whole frame is there to be read, nothing fails. -/
theorem wp_writeFrame {Q : Outcome String α → Prop} {req : Request} {body : Bytes}
    (hbody : codec.encode req = .ok body) (hmax : body.length ≤ maxFrame)
    (hk : ∀ s, s.1 = 0 → wp (alone clientPort False input) (k ()) (fun _ o _ => Q o) s)
    (hs : s.1 = 0) :
    wp (alone clientPort False input) (((writeFrame codec req).mapErr f).bind k)
      (fun _ o _ => Q o) s := by
  have hwrite {bytes : Bytes} {r : Except String Unit} {s s' : ℕ × Bytes}
      (h : alone clientPort False input s (.write bytes) r s') : r = .ok () ∧ s'.1 = s.1 := by
    obtain ⟨rfl, rfl⟩ | ⟨hfaulty, -⟩ := h
    · exact ⟨rfl, rfl⟩
    · exact hfaulty.elim
  have hflush {r : Except String Unit} {s s' : ℕ × Bytes}
      (h : alone clientPort False input s .flush r s') : r = .ok () ∧ s'.1 = s.1 := by
    obtain ⟨rfl, rfl⟩ | ⟨hfaulty, -⟩ := h
    · exact ⟨rfl, rfl⟩
    · exact hfaulty.elim
  unfold writeFrame
  rw [hbody]
  simp only [orContext, Except.mapError, ofExcept_ok, bind_eq, halt_ok_bind, if_neg (not_lt.mpr hmax)]
  refine wp_call.mpr fun r s₁ hM => ?_
  obtain ⟨rfl, hs₁⟩ := hwrite hM
  refine wp_call.mpr fun r s₂ hM => ?_
  obtain ⟨rfl, hs₂⟩ := hwrite hM
  refine wp_call.mpr fun r s₃ hM => ?_
  obtain ⟨rfl, hs₃⟩ := hflush hM
  exact hk s₃ (by omega)

end

/-- A client takes any frame, and nothing. -/
theorem asks_readFrame {P : Bytes → Prop} {f : String → String}
    (hP : ∀ reply, P reply → reply = [] ∨ ∃ body, body.length ≤ maxFrame ∧
      reply = be 4 body.length ++ body) :
    Asks clientPort P ((readFrame codec).mapErr f) [] := by
  have hhalt {P : Bytes → Prop} {o : Outcome String Response} (hnone : ∀ reply, P reply → reply = []) :
      Asks clientPort P (.halt o : ClientProg Response) [] := ⟨rfl, hnone⟩
  have hdecoded {P : Bytes → Prop} (r : Except String Response) (hnone : ∀ reply, P reply → reply = []) :
      Asks clientPort P ((orContext "cbor-decode frame" r).mapErr f) [] := by
    cases r <;> exact hhalt hnone
  refine ⟨rfl, fun x hx => ?_, fun r hr => ?_⟩
  · have hheader {rest : Bytes} (h : P (x ++ rest)) :
        ∃ body, body.length ≤ maxFrame ∧ x = be 4 body.length ∧ rest = body := by
      obtain hnone | ⟨body, hmax, heq⟩ := hP _ h
      · rw [(List.append_eq_nil_iff.mp hnone).1] at hx
        cases hx
      · have hfour : (be 4 body.length).length = 4 := be_length ..
        obtain ⟨hleft, hright⟩ := List.append_inj heq (hx.trans hfour.symm)
        exact ⟨body, hmax, hleft, hright⟩
    have hlen {body : Bytes} (hmax : body.length ≤ maxFrame) :
        fromBe (be 4 body.length) = body.length := fromBe_be (by unfold maxFrame at hmax; omega)
    simp only [orContext, Except.mapError, ofExcept_ok, bind_eq, halt_ok_bind]
    by_cases hmax : maxFrame < fromBe x
    · rw [if_pos hmax]
      refine hhalt fun rest hrest => ?_
      obtain ⟨body, hbody, rfl, rfl⟩ := hheader hrest
      rw [hlen hbody] at hmax
      omega
    · rw [if_neg hmax]
      refine ⟨rfl, fun y hy => ?_, fun r hr => ?_⟩
      · have hnone (rest : Bytes) (h : P (x ++ (y ++ rest))) : rest = [] := by
          obtain ⟨body, hbody, rfl, hrest⟩ := hheader h
          rw [hlen hbody, ← hrest, List.length_append] at hy
          exact List.length_eq_zero_iff.mp (by omega)
        exact hdecoded (codec.decode y) hnone
      · obtain ⟨e, rfl⟩ := hr
        exact hhalt fun _ h => h
  · obtain ⟨e, rfl⟩ := hr
    exact hhalt fun _ h => h

/-- A client of two frames that fit says both and then takes its answer. -/
theorem asks_exchange {version : UInt16} {req : Request} {P : Bytes → Prop}
    (hhello : framed codec (.hello version) ≠ []) (hframe : framed codec req ≠ [])
    (hP : ∀ reply, P reply → reply = [] ∨ ∃ body, body.length ≤ maxFrame ∧
      reply = be 4 body.length ++ body) :
    Asks clientPort P (exchange codec version req)
      (framed codec (.hello version) ++ framed codec req) := by
  obtain ⟨hello, hhello, hhelloMax⟩ := framed_ne_nil hhello
  obtain ⟨body, hbody, hmax⟩ := framed_ne_nil hframe
  have hread : Asks clientPort P (withContext "read response" (readFrame codec)) [] :=
    asks_readFrame hP
  refine asks_writeFrame hhello hhelloMax ?_
  have h := asks_writeFrame (k := fun _ => withContext "read response" (readFrame codec))
    (f := fun e => "send request" ++ ": " ++ e) hbody hmax hread
  rwa [List.append_nil] at h

/-- Where a frame is there, it is what the exchange returns. -/
theorem wp_exchange {version : UInt16} {req : Request} {frame rest : Bytes} {resp : Response}
    (hhello : framed codec (.hello version) ≠ []) (hframe : framed codec req ≠ [])
    (hsplit : splitFrame input = some (frame, rest)) (hresp : codec.decode frame = .ok resp) :
    wp (alone clientPort False input) (exchange codec version req)
      (fun _ out _ => out = .ok resp) (0, []) := by
  obtain ⟨hello, hhello, hhelloMax⟩ := framed_ne_nil hhello
  obtain ⟨body, hbody, hmax⟩ := framed_ne_nil hframe
  have hread {n : ℕ} {r : Except String Bytes} {s s' : ℕ × Bytes} (hthere : s.1 + n ≤ input.length)
      (h : alone clientPort False input s (.recv n) r s') :
      r = .ok ((input.drop s.1).take n) ∧ s'.1 = s.1 + n := by
    obtain ⟨-, rfl, rfl⟩ | ⟨hfaulty | hshort, -⟩ := h
    · exact ⟨rfl, rfl⟩
    · exact hfaulty.elim
    · omega
  obtain ⟨⟨hfour, hfits, hlen⟩, hfront, -⟩ := splitFrame_eq_some_iff.mp hsplit
  rw [List.length_drop] at hlen
  refine wp_writeFrame hhello hhelloMax (fun s hs => ?_) rfl
  refine wp_writeFrame hbody hmax (fun s hs => ?_) hs
  refine wp_call.mpr fun r s₁ hM => ?_
  obtain ⟨rfl, hs₁⟩ := hread (by omega) hM
  rw [hs, Nat.zero_add] at hs₁
  rw [hs, List.drop_zero]
  simp only [orContext, Except.mapError, ofExcept_ok, bind_eq, halt_ok_bind, if_neg (not_lt.mpr hfits)]
  refine wp_call.mpr fun r s₂ hM => ?_
  obtain ⟨rfl, -⟩ := hread (by omega) hM
  rw [hs₁, hfront]
  change wp _ ((orContext "cbor-decode frame" (codec.decode frame)).mapErr _) _ _
  rw [hresp]
  exact wp_halt.mpr rfl

end MiddleWhere.Ctl.Client
