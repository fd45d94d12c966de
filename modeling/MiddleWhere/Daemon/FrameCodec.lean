import MiddleWhere.Daemon.Control
import MiddleWhere.Effects.Transform
import MiddleWhere.Net.Peer

/-!
# Frames of the control channel

The client and the daemon each have a reader of frames: one reads from a blocking stream, the
other awaits an asynchronous one and hands a copy of what it read to the first. Both split the
same frame off the stream, and a frame is written to a buffer whole or not at all.
-/

namespace MiddleWhere.Daemon
open Prog Transform
open Net (fromBe be fromBe_be be_length)

variable {T : Type}

/-! ## The writer and the blocking reader -/

/-- A buffer takes everything. -/
def writeAll (bytes : Bytes) : Transform Bytes String Unit := do
  let written ← get
  set (written ++ bytes)

def writeFrameTo (encode : T → Except String Bytes) (msg : T) : Transform Bytes String Unit := do
  let body ← Transform.ofExcept (encode msg)
  if maxFrame < body.length then
    throw ("frame body " ++ toString body.length ++ " exceeds MAX_FRAME " ++ toString maxFrame)
  else
    writeAll (be 4 body.length)
    writeAll body

/-- `read_exact` on a stream; one that ends too early is read to its end. -/
def readStream (n : ℕ) : Transform Bytes String Bytes := do
  let stream ← get
  if n ≤ stream.length then
    set (stream.drop n)
    return stream.take n
  else
    set ([] : Bytes)
    throw "failed to fill whole buffer"

def readFrameFrom (decode : Bytes → Except String T) : Transform Bytes String T := do
  let lenBuf ← readStream 4
  let len := fromBe lenBuf
  if maxFrame < len then throw (frameTooLong len)
  else
    let body ← readStream len
    Transform.ofExcept (decode body)

theorem exec_writeAll (bytes w : Bytes) : (writeAll bytes).exec w = (.ok (), w ++ bytes) := rfl

theorem exec_writeFrameTo {encode : T → Except String Bytes} {msg : T} {body : Bytes}
    (hbody : encode msg = .ok body) (hmax : body.length ≤ maxFrame) (w : Bytes) :
    (writeFrameTo encode msg).exec w = (.ok (), w ++ (be 4 body.length ++ body)) := by
  unfold writeFrameTo
  rw [hbody, exec_bind, exec_ofExcept]
  dsimp only
  rw [if_neg (by omega), exec_bind, exec_writeAll]
  dsimp only
  rw [exec_writeAll, List.append_assoc]

theorem exec_readStream {n : ℕ} {stream : Bytes} (h : n ≤ stream.length) :
    (readStream n).exec stream = (.ok (stream.take n), stream.drop n) := by
  unfold readStream
  rw [exec_bind, exec_get]
  dsimp only
  rw [if_pos h]
  rfl

theorem exec_readStream_short {n : ℕ} {stream : Bytes} (h : stream.length < n) :
    (readStream n).exec stream = (.error "failed to fill whole buffer", []) := by
  unfold readStream
  rw [exec_bind, exec_get]
  dsimp only
  rw [if_neg (by omega)]
  rfl

/-! ## What both readers split off -/

/-- The body of the first frame and what follows it, if the frame is whole and not too long. -/
def splitFrame (stream : Bytes) : Option (Bytes × Bytes) :=
  let len := fromBe (stream.take 4)
  if 4 + len ≤ stream.length ∧ 4 ≤ stream.length ∧ len ≤ maxFrame then
    some ((stream.drop 4).take len, stream.drop (4 + len))
  else none

theorem splitFrame_frame {body : Bytes} (hmax : body.length ≤ maxFrame) (rest : Bytes) :
    splitFrame (be 4 body.length ++ body ++ rest) = some (body, rest) := by
  have hfour : (be 4 body.length).length = 4 := be_length ..
  have hlt : body.length < 2 ^ (8 * 4) := by
    unfold maxFrame at hmax
    omega
  have htake : (be 4 body.length ++ body ++ rest).take 4 = be 4 body.length := by
    rw [List.append_assoc]
    exact List.take_left' hfour
  have hdrop : (be 4 body.length ++ body ++ rest).drop 4 = body ++ rest := by
    rw [List.append_assoc]
    exact List.drop_left' hfour
  unfold splitFrame
  rw [htake, fromBe_be hlt]
  dsimp only
  rw [if_pos (by simp only [List.length_append]; omega), hdrop, List.take_left, ← List.drop_drop,
    hdrop, List.drop_left]

theorem splitFrame_eq_some_iff {stream body rest : Bytes} :
    splitFrame stream = some (body, rest) ↔
      (4 ≤ stream.length ∧ fromBe (stream.take 4) ≤ maxFrame ∧
        fromBe (stream.take 4) ≤ (stream.drop 4).length) ∧
      (stream.drop 4).take (fromBe (stream.take 4)) = body ∧
      (stream.drop 4).drop (fromBe (stream.take 4)) = rest := by
  unfold splitFrame
  dsimp only
  rw [List.length_drop, List.drop_drop]
  split_ifs with h
  · have hwhole : 4 ≤ stream.length ∧ fromBe (stream.take 4) ≤ maxFrame ∧
        fromBe (stream.take 4) ≤ stream.length - 4 := by omega
    rw [Option.some.injEq, Prod.mk.injEq, and_iff_right hwhole]
  · constructor
    · exact nofun
    · rintro ⟨hwhole, -⟩
      omega

theorem exec_readFrameFrom (decode : Bytes → Except String T) {stream body rest : Bytes}
    (h : splitFrame stream = some (body, rest)) :
    (readFrameFrom decode).exec stream = (decode body, rest) := by
  obtain ⟨⟨hfour, hmax, hlen⟩, rfl, rfl⟩ := splitFrame_eq_some_iff.mp h
  unfold readFrameFrom
  rw [exec_bind, exec_readStream hfour]
  dsimp only
  rw [if_neg (by omega), exec_bind, exec_readStream hlen]
  exact exec_ofExcept _ _

theorem exec_readFrameFrom_refused (decode : Bytes → Except String T) {stream : Bytes}
    (h : splitFrame stream = none) :
    ∃ e rest, (readFrameFrom decode).exec stream = (.error e, rest) := by
  unfold readFrameFrom
  by_cases hfour : 4 ≤ stream.length
  · rw [exec_bind, exec_readStream hfour]
    dsimp only
    by_cases hmax : maxFrame < fromBe (stream.take 4)
    · rw [if_pos hmax]
      exact ⟨_, _, rfl⟩
    · have hlen : (stream.drop 4).length < fromBe (stream.take 4) := by
        by_contra hlong
        rw [splitFrame_eq_some_iff.mpr ⟨⟨hfour, by omega, by omega⟩, rfl, rfl⟩] at h
        cases h
      rw [if_neg hmax, exec_bind, exec_readStream_short hlen]
      exact ⟨_, _, rfl⟩
  · rw [exec_bind, exec_readStream_short (by omega)]
    exact ⟨_, _, rfl⟩

/-! ## The asynchronous reader -/

/-- A connection whose peer has sent `stream` and closed; the other calls are not made. -/
def streamAnswer : Answerer controlSig Bytes
  | s, .recv n =>
    if n ≤ s.length then (.ok (s.take n), s.drop n) else (.error "early eof", [])
  | s, .resolve => ((.deny "", ⟨none, none, ""⟩), s)
  | s, .emit _ => ((), s)
  | s, .dispatch _ _ => (.ok, s)
  | s, .write _ => (.ok (), s)
  | s, .flush => (.ok (), s)

/-- The copy that is handed on has a whole frame. -/
theorem readFrame_copy (codec : Codec) {lenBuf body : Bytes} (hfour : lenBuf.length = 4)
    (hlen : body.length = fromBe lenBuf) (hmax : fromBe lenBuf ≤ maxFrame) :
    readFrame codec (lenBuf ++ body) = codec.decode body := by
  have hhead : readExact 4 (lenBuf ++ body) = .ok (lenBuf, body) := by
    unfold readExact
    rw [if_pos (by simp [hfour]), List.take_left' hfour, List.drop_left' hfour]
  have hbody : readExact (fromBe lenBuf) body = .ok (body, []) := by
    unfold readExact
    rw [if_pos hlen.ge, ← hlen, List.take_length, List.drop_length]
  unfold readFrame
  rw [hhead]
  simp only [Bind.bind, Except.bind]
  rw [if_neg (by omega), hbody]

theorem eval_recv {n : ℕ} {stream : Bytes} (h : n ≤ stream.length) :
    (control (.recv n)).eval streamAnswer stream =
      (.ok (.ok (stream.take n)), stream.drop n) := by
  have hanswer : streamAnswer stream (.recv n) = (.ok (stream.take n), stream.drop n) := if_pos h
  unfold control perform
  rw [eval_call, hanswer]
  rfl

theorem eval_recv_short {n : ℕ} {stream : Bytes} (h : stream.length < n) :
    (control (.recv n)).eval streamAnswer stream = (.ok (.error "early eof"), []) := by
  have hanswer : streamAnswer stream (.recv n) = (.error "early eof", []) := if_neg (by omega)
  unfold control perform
  rw [eval_call, hanswer]
  rfl

theorem eval_readRequest (codec : Codec) {stream body rest : Bytes}
    (h : splitFrame stream = some (body, rest)) :
    (readRequest codec).eval streamAnswer stream =
      (Prog.ofExcept (codec.decode body) : ControlProg Request).eval streamAnswer rest := by
  obtain ⟨⟨hfour, hmax, hlen⟩, rfl, rfl⟩ := splitFrame_eq_some_iff.mp h
  have hcopy := readFrame_copy codec (List.length_take_of_le hfour)
    (List.length_take_of_le hlen) hmax
  unfold readRequest
  simp only [bind_eq]
  rw [eval_bind_ok (eval_recv hfour), ofExcept_ok, halt_ok_bind, if_neg (by omega),
    eval_bind_ok (eval_recv hlen), ofExcept_ok, halt_ok_bind, hcopy]

theorem eval_readRequest_refused (codec : Codec) {stream : Bytes}
    (h : splitFrame stream = none) :
    ∃ e rest, (readRequest codec).eval streamAnswer stream = (.err e, rest) := by
  unfold readRequest
  simp only [bind_eq]
  by_cases hfour : 4 ≤ stream.length
  · rw [eval_bind_ok (eval_recv hfour), ofExcept_ok, halt_ok_bind]
    by_cases hmax : maxFrame < fromBe (stream.take 4)
    · rw [if_pos hmax]
      exact ⟨_, _, rfl⟩
    · have hlen : (stream.drop 4).length < fromBe (stream.take 4) := by
        by_contra hlong
        rw [splitFrame_eq_some_iff.mpr ⟨⟨hfour, by omega, by omega⟩, rfl, rfl⟩] at h
        cases h
      rw [if_neg hmax, eval_bind_ok (eval_recv_short hlen)]
      exact ⟨_, _, rfl⟩
  · rw [eval_bind_ok (eval_recv_short (by omega))]
    exact ⟨_, _, rfl⟩

/-! ## Lists of frames -/

/-- What is encoded is decoded to the message that it was. -/
def Inverts (encode : T → Except String Bytes) (decode : Bytes → Except String T) : Prop :=
  ∀ msg body, encode msg = .ok body → decode body = .ok msg

def writeFrames (encode : T → Except String Bytes) : List T → Transform Bytes String Unit
  | [] => pure ()
  | msg :: msgs => do
    writeFrameTo encode msg
    writeFrames encode msgs

def readFrames (decode : Bytes → Except String T) : ℕ → Transform Bytes String (List T)
  | 0 => pure []
  | n + 1 => do
    let msg ← readFrameFrom decode
    let msgs ← readFrames decode n
    return msg :: msgs

def readRequests (codec : Codec) : ℕ → ControlProg (List Request)
  | 0 => return []
  | n + 1 => do
    let req ← readRequest codec
    let reqs ← readRequests codec n
    return req :: reqs

/-- A frame is written whole or not at all. -/
theorem exec_writeFrameTo_cases (encode : T → Except String Bytes) (msg : T) (w : Bytes) :
    (∃ body, encode msg = .ok body ∧ body.length ≤ maxFrame ∧
      (writeFrameTo encode msg).exec w = (.ok (), w ++ (be 4 body.length ++ body))) ∨
    (¬ (∃ body, encode msg = .ok body ∧ body.length ≤ maxFrame) ∧
      ∃ e, (writeFrameTo encode msg).exec w = (.error e, w)) := by
  cases hbody : encode msg with
  | error e =>
    refine Or.inr ⟨by simp, e, ?_⟩
    unfold writeFrameTo
    rw [hbody]
    rfl
  | ok body =>
    by_cases hmax : body.length ≤ maxFrame
    · exact Or.inl ⟨body, rfl, hmax, exec_writeFrameTo hbody hmax w⟩
    · refine Or.inr ⟨by simpa using hmax, ?_⟩
      unfold writeFrameTo
      rw [hbody, exec_bind, exec_ofExcept]
      dsimp only
      rw [if_pos (by omega)]
      exact ⟨_, rfl⟩

/-- The messages with their bodies, each of which fits into a frame. -/
def Bodies (encode : T → Except String Bytes) (msgs : List T) (bodies : List Bytes) : Prop :=
  List.Forall₂ (fun msg body => encode msg = .ok body ∧ body.length ≤ maxFrame) msgs bodies

def frames (bodies : List Bytes) : Bytes := bodies.flatMap fun body => be 4 body.length ++ body

theorem frames_cons (body : Bytes) (bodies : List Bytes) :
    frames (body :: bodies) = be 4 body.length ++ body ++ frames bodies := rfl

theorem writeFrames_bodies {encode : T → Except String Bytes} {msgs : List T} {w w' : Bytes}
    (h : (writeFrames encode msgs).exec w = (.ok (), w')) :
    ∃ bodies, Bodies encode msgs bodies ∧ w' = w ++ frames bodies := by
  induction msgs generalizing w with
  | nil =>
    rw [writeFrames, exec_pure] at h
    exact ⟨[], .nil, by rw [← (Prod.mk.inj h).2]; exact (List.append_nil w).symm⟩
  | cons msg msgs ih =>
    rw [writeFrames, exec_bind] at h
    obtain ⟨body, hbody, hmax, hexec⟩ | ⟨-, e, hexec⟩ := exec_writeFrameTo_cases encode msg w
    · rw [hexec] at h
      obtain ⟨bodies, hbodies, rfl⟩ := ih h
      refine ⟨body :: bodies, .cons ⟨hbody, hmax⟩ hbodies, ?_⟩
      rw [frames_cons, List.append_assoc]
    · rw [hexec] at h
      cases h

theorem exec_readFrames {encode : T → Except String Bytes} {decode : Bytes → Except String T}
    (hcodec : Inverts encode decode) {msgs : List T} {bodies : List Bytes}
    (h : Bodies encode msgs bodies) (rest : Bytes) :
    (readFrames decode msgs.length).exec (frames bodies ++ rest) = (.ok msgs, rest) := by
  induction h with
  | nil => rfl
  | @cons msg body msgs bodies hmsg _ ih =>
    have hsplit := splitFrame_frame hmsg.2 (frames bodies ++ rest)
    have hdecode := hcodec msg body hmsg.1
    rw [← List.append_assoc] at hsplit
    rw [List.length_cons, readFrames, exec_bind, frames_cons,
      exec_readFrameFrom decode hsplit, hdecode]
    dsimp only
    rw [exec_bind, ih]
    rfl

theorem eval_readRequests {codec : Codec} {encode : Request → Except String Bytes}
    (hcodec : Inverts encode codec.decode) {reqs : List Request} {bodies : List Bytes}
    (h : Bodies encode reqs bodies) (rest : Bytes) :
    (readRequests codec reqs.length).eval streamAnswer (frames bodies ++ rest) =
      (.ok reqs, rest) := by
  induction h with
  | nil => rfl
  | @cons req body reqs bodies hreq _ ih =>
    have hsplit := splitFrame_frame hreq.2 (frames bodies ++ rest)
    have hdecode := hcodec req body hreq.1
    rw [← List.append_assoc] at hsplit
    have hread := eval_readRequest codec hsplit
    rw [hdecode] at hread
    simp only [List.length_cons, readRequests, bind_eq]
    rw [frames_cons, eval_bind_ok hread, eval_bind_ok ih]
    rfl

/-! ## Agreement -/

/-- The reader of a whole buffer, which the daemon's reader calls, is the blocking one. -/
theorem readFrame_eq (codec : Codec) (framed : Bytes) :
    readFrame codec framed = ((readFrameFrom codec.decode).exec framed).1 := by
  unfold readFrame readFrameFrom readExact
  by_cases hfour : 4 ≤ framed.length
  · rw [exec_bind, exec_readStream hfour, if_pos hfour]
    simp only [Bind.bind, Except.bind]
    by_cases hmax : maxFrame < fromBe (framed.take 4)
    · rw [if_pos hmax, if_pos hmax]
      rfl
    · rw [if_neg hmax, if_neg hmax]
      change _ = ((readStream (fromBe (framed.take 4)) >>= fun body =>
        Transform.ofExcept (codec.decode body)).exec (framed.drop 4)).1
      by_cases hlen : fromBe (framed.take 4) ≤ (framed.drop 4).length
      · rw [if_pos hlen, exec_bind, exec_readStream hlen]
        exact (congrArg Prod.fst (exec_ofExcept _ _)).symm
      · rw [if_neg hlen, exec_bind, exec_readStream_short (not_le.mp hlen)]
  · rw [exec_bind, exec_readStream_short (by omega), if_neg hfour]
    rfl

/-- A response is written to a buffer first. -/
theorem writeFrame_eq (codec : Codec) (resp : Response) (w : Bytes) :
    (writeFrameTo codec.encode resp).exec w = match writeFrame codec resp with
      | .ok frame => (.ok (), w ++ frame)
      | .error e => (.error e, w) := by
  unfold writeFrame
  cases hbody : codec.encode resp with
  | error e =>
    unfold writeFrameTo
    rw [hbody]
    rfl
  | ok body =>
    by_cases hmax : maxFrame < body.length
    · unfold writeFrameTo
      rw [hbody, exec_bind, exec_ofExcept]
      simp only [Bind.bind, Except.bind, if_pos hmax]
      rfl
    · rw [exec_writeFrameTo hbody (by omega)]
      simp only [Bind.bind, Except.bind, if_neg hmax]
      rfl

/-- Both readers accept the same streams with the same request and leave the same rest. -/
theorem readers_agree (codec : Codec) (stream : Bytes) :
    (∃ req rest, (readFrameFrom codec.decode).exec stream = (.ok req, rest) ∧
      (readRequest codec).eval streamAnswer stream = (.ok req, rest)) ∨
    ((∃ e rest, (readFrameFrom codec.decode).exec stream = (.error e, rest)) ∧
      ∃ e rest, (readRequest codec).eval streamAnswer stream = (.err e, rest)) := by
  cases hsplit : splitFrame stream with
  | none =>
    exact Or.inr ⟨exec_readFrameFrom_refused codec.decode hsplit,
      eval_readRequest_refused codec hsplit⟩
  | some frame =>
    obtain ⟨body, rest⟩ := frame
    have hsync := exec_readFrameFrom codec.decode hsplit
    have hasync := eval_readRequest codec hsplit
    cases hdecode : codec.decode body with
    | ok req =>
      rw [hdecode] at hsync hasync
      exact Or.inl ⟨req, rest, hsync, hasync⟩
    | error e =>
      rw [hdecode] at hsync hasync
      exact Or.inr ⟨⟨e, rest, hsync⟩, e, rest, hasync⟩

theorem controlFrames_agree (codec : Codec) (encode : T → Except String Bytes)
    (decode : Bytes → Except String T) (encodeRequest : Request → Except String Bytes) :
    (∀ msg w,
      ((∃ w', (writeFrameTo encode msg).exec w = (.ok (), w')) ↔
        ∃ body, encode msg = .ok body ∧ body.length ≤ maxFrame) ∧
      (∀ body, encode msg = .ok body → body.length ≤ maxFrame →
        (writeFrameTo encode msg).exec w = (.ok (), w ++ (be 4 body.length ++ body)))) ∧
    (∀ stream,
      (∃ req rest, (readFrameFrom codec.decode).exec stream = (.ok req, rest) ∧
        (readRequest codec).eval streamAnswer stream = (.ok req, rest)) ∨
      ((∃ e rest, (readFrameFrom codec.decode).exec stream = (.error e, rest)) ∧
        ∃ e rest, (readRequest codec).eval streamAnswer stream = (.err e, rest))) ∧
    (Inverts encode decode → ∀ msgs stream rest,
      (writeFrames encode msgs).exec [] = (.ok (), stream) →
        (readFrames decode msgs.length).exec (stream ++ rest) = (.ok msgs, rest)) ∧
    (Inverts encodeRequest codec.decode → ∀ reqs stream rest,
      (writeFrames encodeRequest reqs).exec [] = (.ok (), stream) →
        (readRequests codec reqs.length).eval streamAnswer (stream ++ rest) =
          (.ok reqs, rest)) := by
  refine ⟨?_, readers_agree codec, ?_, ?_⟩
  · intro msg w
    refine ⟨⟨?_, ?_⟩, fun body hbody hmax => exec_writeFrameTo hbody hmax w⟩
    · rintro ⟨w', hw⟩
      obtain ⟨body, hbody, hmax, -⟩ | ⟨-, e, he⟩ := exec_writeFrameTo_cases encode msg w
      · exact ⟨body, hbody, hmax⟩
      · rw [he] at hw
        cases hw
    · rintro ⟨body, hbody, hmax⟩
      exact ⟨_, exec_writeFrameTo hbody hmax w⟩
  · intro hcodec msgs stream rest h
    obtain ⟨bodies, hbodies, rfl⟩ := writeFrames_bodies h
    exact exec_readFrames hcodec hbodies rest
  · intro hcodec reqs stream rest h
    obtain ⟨bodies, hbodies, rfl⟩ := writeFrames_bodies h
    exact eval_readRequests hcodec hbodies rest

/-! A hello of version 1 in CBOR: a map from the name of the variant to its fields. -/

def helloBytes : Bytes :=
  [0xa1, 0x65, 0x48, 0x65, 0x6c, 0x6c, 0x6f, 0xa1, 0x67, 0x76, 0x65, 0x72, 0x73, 0x69, 0x6f,
    0x6e, 0x01]

def encodeHello : Request → Except String Bytes
  | .hello version => if version = 1 then .ok helloBytes else .error "not in the sample"
  | _ => .error "not in the sample"

def helloCodec : Codec where
  decode body := if body = helloBytes then .ok (.hello 1) else .error "not in the sample"
  encode _ := .error "not in the sample"

theorem inverts_hello : Inverts encodeHello helloCodec.decode := by
  intro req body h
  cases req with
  | hello version =>
    simp only [encodeHello] at h
    split_ifs at h with hversion
    rw [← Except.ok.inj h, hversion]
    rfl
  | _ => cases h

theorem controlFrames_agree_hello :
    (readRequests helloCodec 2).eval streamAnswer
      (be 4 17 ++ helloBytes ++ (be 4 17 ++ helloBytes) ++ [0x00]) =
        (.ok [.hello 1, .hello 1], [0x00]) :=
  (controlFrames_agree helloCodec encodeHello helloCodec.decode encodeHello).2.2.2 inverts_hello
    [.hello 1, .hello 1] _ [0x00] rfl

end MiddleWhere.Daemon
