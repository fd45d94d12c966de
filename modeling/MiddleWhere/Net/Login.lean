import MiddleWhere.Net.MysqlSafe
import MiddleWhere.Net.Peer

/-!
# Logins

What each engine's handshake answers to a client that names a user and presents a secret:
the user has to be the environment, and the secret has to match the stored verifier. A
MySQL client may answer at once or be switched to the right method first; a PostgreSQL
client may ask for encryption before it starts.
-/

namespace MiddleWhere.Net
open Prog

def SessionDeps.hashes (deps : SessionDeps) : Token.Hashes := ⟨deps.sha1, deps.sha256⟩

/-- The handshake returned a session. -/
def accepted {ε α : Type} : Outcome ε α → Bool
  | .ok _ => true
  | _ => false

variable {client : Client} {random : Bytes} {s : Wire}

theorem accepted_bind_fail {ε α β : Type} {p : SessionProg ε α} {e : ε} :
    accepted ((p.bind fun _ => (fail e : SessionProg ε β)).eval (wireAnswer client random) s).1 =
      false := by
  rw [eval_bind]
  rcases p.eval (wireAnswer client random) s with ⟨out, s'⟩
  cases out <;> rfl

/-! ## MySQL -/

def greetingPacket (threadId : UInt32) (scramble : Bytes) : Bytes :=
  packet 0 (buildInitialHandshake threadId scramble)

/-- The client's first packet parses and names `user`. It carries the answer that `secret`
gives to the scramble, or it makes the proxy switch the client, which then sends it. -/
def NativeLogin (hashes : Token.Hashes) (threadId : UInt32) (scramble : Bytes) (user : String)
    (secret : Bytes) (client : Client) : Prop :=
  ∃ payload parsed, payload.length < maxPayload ∧
    parseHandshakeResponse payload = .ok parsed ∧ Str.fromUtf8Lossy parsed.username = user ∧
    packet 1 payload <+: client (greetingPacket threadId scramble) ∧
    let answer := Token.nativeResponse hashes secret scramble
    if needsSwitch parsed then
      packet 1 payload ++ packet 3 answer <+:
        client (greetingPacket threadId scramble ++ packet 2 (buildAuthSwitchRequest scramble))
    else parsed.authResponse = answer

theorem greeting_fits {threadId : UInt32} {scramble : Bytes} (h : scramble.length = 20) :
    (buildInitialHandshake threadId scramble).length < maxPayload := by
  have hversion : serverVersion.length = 15 := by decide
  have hplugin : authPluginName.length = 21 := by decide
  simp only [buildInitialHandshake, serverStatusAutocommit, List.length_append, List.length_cons,
    List.length_nil, List.length_take, List.length_drop, List.length_replicate, le_length, hversion,
    hplugin, h, maxPayload]
  omega

theorem authSwitch_fits {scramble : Bytes} (h : scramble.length = 20) :
    (buildAuthSwitchRequest scramble).length < maxPayload := by
  have hplugin : authPluginName.length = 21 := by decide
  simp only [buildAuthSwitchRequest, List.length_append, List.length_cons, List.length_nil, hplugin,
    h, maxPayload]
  omega

theorem nativeResponse_length {hashes : Token.Hashes} (secret scramble : Bytes)
    (h : ∀ x, (hashes.sha1 x).length = 20) :
    (Token.nativeResponse hashes secret scramble).length = 20 := by
  simp [Token.nativeResponse, h]

theorem eval_handshakePacket {seq : SequenceCounter} {payload : Bytes}
    (hfit : payload.length < maxPayload) (h : s.Ready client (packet seq payload)) :
    (readHandshakePacket seq).eval (wireAnswer client random) s =
      (.ok (payload, seq + 1), { s with taken := s.taken + (packet seq payload).length }) := by
  unfold readHandshakePacket
  simp only [bind_eq]
  have hread : ((readPacket seq).attempt : SessionProg HandshakeError _).eval
      (wireAnswer client random) s = (.ok (.ok (payload, seq + 1)),
        { s with taken := s.taken + (packet seq payload).length }) := by
    rw [eval_attempt, eval_readPacket hfit h]
    rfl
  rw [eval_bind_ok hread]
  rfl

theorem eval_writeHandshake {seq : SequenceCounter} {payload : Bytes}
    (hfit : payload.length < maxPayload) :
    ((writePacket seq payload).mapErr HandshakeError.framing).eval (wireAnswer client random) s =
      (.ok (seq + 1), { s with received := s.received ++ packet seq payload }) := by
  rw [eval_mapErr, eval_writePacket hfit]
  rfl

/-- Whichever way the client answers, what is verified is the answer of its secret. -/
theorem eval_nativeResponse (random : Bytes) {parsed : ParsedHandshakeResponse} {scramble answer front : Bytes}
    (hscramble : scramble.length = 20) (hanswer : answer.length = 20)
    (htaken : s.taken = front.length)
    (hsends : if needsSwitch parsed then
        front ++ packet 3 answer <+: client (s.received ++ packet 2 (buildAuthSwitchRequest scramble))
      else parsed.authResponse = answer) :
    ∃ seq s', (nativeResponse 2 scramble parsed).eval (wireAnswer client random) s =
      (.ok (answer, seq), s') := by
  unfold nativeResponse
  by_cases hswitch : needsSwitch parsed = true
  · rw [if_pos hswitch] at hsends ⊢
    let s₁ : Wire := { s with received := s.received ++ packet 2 (buildAuthSwitchRequest scramble) }
    have hready : s₁.Ready client (packet 3 answer) := by
      obtain ⟨rest, hrest⟩ := hsends
      refine ⟨rest, ?_⟩
      simp only [s₁, htaken]
      rw [← hrest, List.append_assoc, List.drop_left]
    have hfit : answer.length < maxPayload := by
      rw [hanswer]
      decide
    simp only [bind_eq]
    rw [eval_bind_ok (eval_writeHandshake (authSwitch_fits hscramble))]
    exact ⟨_, _, eval_handshakePacket hfit hready⟩
  · rw [if_neg hswitch] at hsends ⊢
    rw [hsends]
    exact ⟨_, _, rfl⟩

/-- The handshake up to the client's response. -/
def greet (threadId : UInt32) : SessionProg HandshakeError (Bytes × Bytes × SequenceCounter) := do
  let random ← ask (.fillBytes 20)
  let scramble := random.map printable
  let seq ← (writePacket 0 (buildInitialHandshake threadId scramble)).mapErr .framing
  let (response, seq) ← readHandshakePacket seq
  return (scramble, response, seq)

/-- The handshake from the client's response on. -/
def verifyResponse (deps : SessionDeps) (expectedEnvName : String) (auth : ClientAuth)
    (scramble response : Bytes) (seq : SequenceCounter) :
    SessionProg HandshakeError AcceptedSession := do
  match parseHandshakeResponse response with
  | .panic => lift .panic
  | .err e =>
    bestEffort (writePacket seq (errPacket 1043 "08S01" "bad handshake"))
    fail e
  | .ok parsed =>
    let usernameSeen := Str.fromUtf8Lossy parsed.username
    let (response, seq) ← nativeResponse seq scramble parsed
    let userOk := usernameSeen == expectedEnvName
    let tokenOk := nativeAuth deps.sha1 scramble response auth
    if userOk && tokenOk then
      let _ ← (writePacket seq okPacket).mapErr .framing
      return ⟨expectedEnvName, usernameSeen, parsed.database.map Str.fromUtf8Lossy⟩
    else
      bestEffort (writePacket seq (errPacket 1045 "28000" "access denied"))
      fail .authFailed

theorem handshake_eq (deps : SessionDeps) (expectedEnvName : String) (auth : ClientAuth)
    (threadId : UInt32) : handshake deps expectedEnvName auth threadId =
      (greet threadId).bind fun (scramble, response, seq) =>
        verifyResponse deps expectedEnvName auth scramble response seq := by
  unfold handshake greet
  simp only [bind_eq, pure_eq, bind_assoc, halt_ok_bind]
  rfl

theorem eval_greet {threadId : UInt32} {payload : Bytes} (hrandom : random.length = 20)
    (hfit : payload.length < maxPayload)
    (hsends : packet 1 payload <+: client (greetingPacket threadId (random.map printable))) :
    (greet threadId).eval (wireAnswer client random) {} =
      (.ok (random.map printable, payload, 2),
        ⟨greetingPacket threadId (random.map printable), (packet 1 payload).length⟩) := by
  have hscramble : (random.map printable).length = 20 := by rw [List.length_map, hrandom]
  let s₁ : Wire := ⟨greetingPacket threadId (random.map printable), 0⟩
  have hask : (ask (.fillBytes 20) : SessionProg HandshakeError _).eval (wireAnswer client random) {} =
      (.ok random, {}) := by
    simp [ask, perform, wireAnswer, ← hrandom]
  have hgreet : ((writePacket 0 (buildInitialHandshake threadId (random.map printable))).mapErr
      HandshakeError.framing).eval (wireAnswer client random) {} = (.ok 1, s₁) :=
    eval_writeHandshake (greeting_fits hscramble)
  have hready : s₁.Ready client (packet 1 payload) := hsends
  unfold greet
  simp only [bind_eq]
  rw [eval_bind_ok hask, eval_bind_ok hgreet, eval_bind_ok (eval_handshakePacket hfit hready)]
  simp [s₁]

theorem handshake_accepted {deps : SessionDeps} {name user : String} {auth : ClientAuth}
    {threadId : UInt32} {secret : Bytes} (hrandom : random.length = 20)
    (hsha1 : ∀ x, (deps.sha1 x).length = 20)
    (hlogin : NativeLogin deps.hashes threadId (random.map printable) user secret client) :
    accepted ((handshake deps name auth threadId).eval (wireAnswer client random) {}).1 =
      (user == name && nativeAuth deps.sha1 (random.map printable)
        (Token.nativeResponse deps.hashes secret (random.map printable)) auth) := by
  obtain ⟨payload, parsed, hfit, hparse, huser, hfirst, hsecond⟩ := hlogin
  have hscramble : (random.map printable).length = 20 := by rw [List.length_map, hrandom]
  have hanswer : (Token.nativeResponse deps.hashes secret (random.map printable)).length = 20 :=
    nativeResponse_length secret (random.map printable) hsha1
  let s₂ : Wire := ⟨greetingPacket threadId (random.map printable), (packet 1 payload).length⟩
  have htaken : s₂.taken = (packet 1 payload).length := rfl
  obtain ⟨seq, s₃, hnative⟩ := eval_nativeResponse random hscramble hanswer htaken hsecond
  rw [handshake_eq, eval_bind_ok (eval_greet hrandom hfit hfirst)]
  unfold verifyResponse
  simp only [hparse, bind_eq]
  rw [eval_bind_ok hnative, huser]
  by_cases hok : (user == name && nativeAuth deps.sha1 (random.map printable)
      (Token.nativeResponse deps.hashes secret (random.map printable)) auth) = true
  · have hfits : okPacket.length < maxPayload := by decide
    rw [if_pos hok, eval_bind_ok (eval_writeHandshake hfits), hok]
    rfl
  · rw [if_neg hok, accepted_bind_fail]
    exact (Bool.not_eq_true _ ▸ hok).symm

/-! ## PostgreSQL -/

def refusals (n : ℕ) : Bytes := (List.replicate n (Str.asBytes "N")).flatten

theorem refusals_succ (n : ℕ) : refusals n ++ Str.asBytes "N" = refusals (n + 1) := by
  unfold refusals
  rw [List.replicate_succ', List.flatten_append, List.flatten_singleton]

/-- The startup phase of a client: packets that ask for encryption, then the one that
starts. After each refusal of encryption it has sent one packet more. -/
structure StartsAs (client : Client) (requests : List Bytes) (start : Bytes)
    (params : List (String × String)) : Prop where
  short : ∀ body ∈ requests ++ [start], body.length ≤ 9996
  encryption : ∀ body ∈ requests, parseStartup body = .ok .encryptionRequest
  started : parseStartup start = .ok (.params params)
  sends : ∀ i, i ≤ requests.length →
    ((requests ++ [start]).take (i + 1)).flatMap startupPacket <+: client (refusals i)

/-- The client names `user` in its startup parameters and answers the request for a password
with a message whose text, up to its NUL, is the secret. -/
def CleartextLogin (n : ℕ) (user : String) (secret : Bytes) (client : Client) : Prop :=
  ∃ requests start params body, requests.length < n ∧ StartsAs client requests start params ∧
    (paramNamed "user" params).getD "" = user ∧ (body.length : ℤ) + 4 ≤ maxMessage ∧
    presentedPassword body = secret ∧
    ∀ question, authCleartextRequest = .ok question →
      (requests ++ [start]).flatMap startupPacket ++ typedMessage (UInt8.ofNat 'p'.toNat) body <+:
        client (refusals requests.length ++ question)

/-- Where the socket is after the startup packets `front`. -/
def startedWire (front : List Bytes) : Wire :=
  ⟨refusals front.length, (front.flatMap startupPacket).length⟩

theorem StartsAs.ready {requests front tail : List Bytes} {start next : Bytes}
    {params : List (String × String)} (h : StartsAs client requests start params)
    (hsplit : requests ++ [start] = front ++ next :: tail) (hfront : front.length ≤ requests.length) :
    (startedWire front).Ready client (startupPacket next) := by
  have htake : (requests ++ [start]).take (front.length + 1) = front ++ [next] := by
    rw [hsplit, List.take_length_add_append]
    simp
  obtain ⟨rest, hrest⟩ := htake ▸ h.sends front.length hfront
  refine ⟨rest, ?_⟩
  simp only [startedWire]
  rw [← hrest, List.flatMap_append, List.flatMap_singleton, List.append_assoc, List.drop_left]

theorem eval_startupPacket (random : Bytes) {requests front tail : List Bytes} {start next : Bytes}
    {startup : Startup} {params : List (String × String)}
    (h : StartsAs client requests start params)
    (hsplit : requests ++ [start] = front ++ next :: tail) (hfront : front.length ≤ requests.length)
    (hparse : parseStartup next = .ok startup) :
    (readStartup.mapErr PgProtoError.toEngine).eval (wireAnswer client random) (startedWire front) =
      (.ok startup, ⟨refusals front.length, ((front ++ [next]).flatMap startupPacket).length⟩) := by
  have hshort : next.length ≤ 9996 := h.short next (by simp [hsplit])
  rw [eval_mapErr, eval_readStartup hshort hparse (h.ready hsplit hfront)]
  simp [startedWire, Outcome.mapErr]

theorem eval_startupLoop {n : ℕ} {requests rest front : List Bytes} {start : Bytes}
    {params : List (String × String)} (h : StartsAs client requests start params)
    (hsplit : requests = front ++ rest) (hn : rest.length < n) :
    (startupLoop n).eval (wireAnswer client random) (startedWire front) =
      (.ok (some params),
        ⟨refusals requests.length, ((requests ++ [start]).flatMap startupPacket).length⟩) := by
  induction rest generalizing n front with
  | nil =>
    obtain ⟨n, rfl⟩ : ∃ k, n = k + 1 := ⟨n - 1, by simp at hn; omega⟩
    obtain rfl : requests = front := by simpa using hsplit
    have hread := eval_startupPacket random h rfl le_rfl h.started
    simp only [startupLoop, bind_eq]
    rw [eval_bind_ok hread]
    rfl
  | cons body rest ih =>
    obtain ⟨n, rfl⟩ : ∃ k, n = k + 1 := ⟨n - 1, by simp at hn; omega⟩
    have hall : requests ++ [start] = front ++ body :: (rest ++ [start]) := by simp [hsplit]
    have hfront : front.length ≤ requests.length := by simp [hsplit]
    have hread := eval_startupPacket random h hall hfront
      (h.encryption body (by simp [hsplit]))
    have hsplit' : requests = (front ++ [body]) ++ rest := by simp [hsplit]
    have hnext := ih hsplit' (show rest.length < n by simpa using hn)
    simp only [startupLoop, bind_eq]
    rw [eval_bind_ok hread, eval_bind_ok (eval_writeRaw rfl), ← hnext]
    simp [startedWire, refusals_succ]

theorem framed_concat {frames : List (Outcome PgProtoError Bytes)} (h : ∀ f ∈ frames, Framed f) :
    Framed (concat frames) := by
  induction frames with
  | nil => exact ⟨[], rfl⟩
  | cons f frames ih =>
    obtain ⟨bytes, rfl⟩ := h f List.mem_cons_self
    obtain ⟨rest, hrest⟩ := ih fun f' hf' => h f' (List.mem_cons_of_mem _ hf')
    exact ⟨bytes ++ rest, by simp [concat, hrest]⟩

theorem framed_greeting (pid secret : ℤ) : Framed (greeting pid secret) := by
  apply framed_concat
  intro f hf
  rcases List.mem_append.mp hf with hf | hf
  · rcases List.mem_append.mp hf with hf | hf
    · obtain rfl := List.mem_singleton.mp hf
      exact framed_msg (by decide)
    · obtain ⟨kv, hkv, rfl⟩ := List.mem_map.mp hf
      have hshort : ∀ kv ∈ greetingParams, (cstr kv.1 ++ cstr kv.2).length + 4 < 2 ^ 31 := by decide
      exact framed_msg (hshort kv hkv)
  · simp only [List.mem_cons, List.not_mem_nil, or_false] at hf
    rcases hf with rfl | rfl
    · exact framed_msg (by simp [be_length])
    · exact framed_msg (by decide)

theorem authenticate_accepted {hashes : Token.Hashes} {name : String} {auth : ClientAuth} {pid : ℤ}
    {params : List (String × String)} {body : Bytes} (hmax : (body.length : ℤ) + 4 ≤ maxMessage)
    (hsends : ∀ question, authCleartextRequest = .ok question →
      Wire.Ready client { s with received := s.received ++ question }
        (typedMessage (UInt8.ofNat 'p'.toNat) body)) :
    accepted ((authenticate hashes name auth pid params).eval (wireAnswer client random) s).1 =
      ((paramNamed "user" params).getD "" == name &&
        cleartextAuth hashes (presentedPassword body) auth) := by
  obtain ⟨question, hquestion⟩ : Framed authCleartextRequest := framed_msg (by decide)
  have hmessage : (readMessage.mapErr PgProtoError.toEngine).eval (wireAnswer client random)
      { s with received := s.received ++ question } =
        (.ok (UInt8.ofNat 'p'.toNat, body), ⟨s.received ++ question,
          s.taken + (typedMessage (UInt8.ofNat 'p'.toNat) body).length⟩) := by
    rw [eval_mapErr, eval_readMessage hmax (hsends question hquestion)]
    rfl
  unfold authenticate
  simp only [bind_eq]
  rw [eval_bind_ok (eval_writeRaw hquestion), eval_bind_ok hmessage]
  simp only [ne_eq, not_true_eq_false, if_false]
  by_cases hok : ((paramNamed "user" params).getD "" == name &&
      cleartextAuth hashes (presentedPassword body) auth) = true
  · rw [if_pos hok, hok]
    obtain ⟨bytes, hbytes⟩ := framed_greeting pid (asI32 (fromBe (random.take 4)))
    have hask : (ask (.fillBytes 4) : SessionProg EngineError _).eval (wireAnswer client random)
        ⟨s.received ++ question, s.taken + (typedMessage (UInt8.ofNat 'p'.toNat) body).length⟩ =
          (.ok (random.take 4), _) := rfl
    rw [eval_bind_ok hask, eval_bind_ok (eval_writeRaw hbytes)]
    rfl
  · rw [if_neg hok, accepted_bind_fail]
    exact (Bool.not_eq_true _ ▸ hok).symm

/-- The handshake returned a session, and not that the client never started. -/
def acceptedSession {ε α : Type} : Outcome ε (Option α) → Bool
  | .ok (some _) => true
  | _ => false

theorem acceptedSession_bind {ε α : Type} (p : SessionProg ε α) :
    acceptedSession ((p.bind fun a => .halt (.ok (some a))).eval (wireAnswer client random) s).1 =
      accepted (p.eval (wireAnswer client random) s).1 := by
  rw [eval_bind]
  rcases p.eval (wireAnswer client random) s with ⟨out, s'⟩
  cases out <;> rfl

theorem pgHandshake_accepted {hashes : Token.Hashes} {n : ℕ} {name user : String} {auth : ClientAuth}
    {pid : ℤ} {secret : Bytes} (hlogin : CleartextLogin n user secret client) :
    acceptedSession ((pgHandshake hashes n name auth pid).eval (wireAnswer client random) {}).1 =
      (user == name && cleartextAuth hashes secret auth) := by
  obtain ⟨requests, start, params, body, hn, hstarts, huser, hmax, hsecret, hsends⟩ := hlogin
  let s₁ : Wire :=
    ⟨refusals requests.length, ((requests ++ [start]).flatMap startupPacket).length⟩
  have hloop : (startupLoop n).eval (wireAnswer client random) {} = (.ok (some params), s₁) :=
    eval_startupLoop hstarts (List.nil_append _).symm hn
  have hready : ∀ question, authCleartextRequest = .ok question →
      Wire.Ready client { s₁ with received := s₁.received ++ question }
        (typedMessage (UInt8.ofNat 'p'.toNat) body) := by
    intro question hquestion
    obtain ⟨rest, hrest⟩ := hsends question hquestion
    refine ⟨rest, ?_⟩
    dsimp only [s₁]
    rw [← hrest, List.append_assoc, List.drop_left]
  unfold pgHandshake
  simp only [bind_eq]
  rw [eval_bind_ok hloop]
  simp only [pure_eq]
  rw [acceptedSession_bind, authenticate_accepted hmax hready, huser, hsecret]

end MiddleWhere.Net
