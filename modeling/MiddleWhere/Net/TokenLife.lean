import MiddleWhere.Core.MutateValid
import MiddleWhere.Data.Sha
import MiddleWhere.Net.Login

/-!
# The life of a token

Tokens are minted by `add_env` and `grant_env` and die with the next grant or with their
environment. The log of a run keeps every token that was returned, newest first. What an
environment stores is always the verifier of its newest token, so that a client logs in
with that token and with no other.
-/

namespace MiddleWhere.Net
open Prog Transform Mutate

/-! ## Hashes without collisions -/

/-- What the check of an answer hashes: SHA1(token), if the answer is the token's. -/
def recovered (hashes : Token.Hashes) (scramble answer stored : Bytes) : Bytes :=
  List.zipWith (· ^^^ ·) answer (hashes.sha1 (scramble ++ stored))

/-- Among `secrets`, no two have the same SHA-256 hash or the same answer to the scramble,
and nothing that a check of one against another hashes collides with the hash of a secret. -/
structure NoCollision (hashes : Token.Hashes) (scramble : Bytes) (secrets : List Bytes) : Prop where
  sha1_length : ∀ x, (hashes.sha1 x).length = 20
  sha256 : ∀ s ∈ secrets, ∀ t ∈ secrets, hashes.sha256 s = hashes.sha256 t → s = t
  answer : ∀ s ∈ secrets, ∀ t ∈ secrets,
    Token.nativeResponse hashes s scramble = Token.nativeResponse hashes t scramble → s = t
  sha1 : ∀ s ∈ secrets, ∀ t ∈ secrets,
    let hashed := recovered hashes scramble (Token.nativeResponse hashes s scramble)
      (Token.doubleSha1 hashes t)
    hashes.sha1 hashed = hashes.sha1 (hashes.sha1 t) → hashed = hashes.sha1 t

theorem zipWith_xor_cancel {xs ys : Bytes} (h : xs.length = ys.length) :
    List.zipWith (· ^^^ ·) (List.zipWith (· ^^^ ·) xs ys) ys = xs := by
  induction xs generalizing ys with
  | nil => rfl
  | cons x xs ih =>
    cases ys with
    | nil => simp at h
    | cons y ys => simp [ih (by simpa using h)]

section
variable {hashes : Token.Hashes} {scramble secret token : Bytes} {secrets : List Bytes}

/-- The answer of the token itself is verified. -/
theorem nativeAuth_own (h : ∀ x, (hashes.sha1 x).length = 20) :
    nativeAuth hashes.sha1 scramble (Token.nativeResponse hashes token scramble)
      (.nativePassword (Token.doubleSha1 hashes token)) = true := by
  have hlen := nativeResponse_length token scramble h
  have hmask : (hashes.sha1 token).length =
      (hashes.sha1 (scramble ++ Token.doubleSha1 hashes token)).length := by
    rw [h, h]
  simp only [nativeAuth, verifyNativeResponse]
  rw [if_neg (by simp [hlen]), beq_iff_eq]
  unfold Token.nativeResponse
  rw [zipWith_xor_cancel hmask]
  rfl

theorem nativeAuth_iff (h : NoCollision hashes scramble secrets) (hsecret : secret ∈ secrets)
    (htoken : token ∈ secrets) :
    nativeAuth hashes.sha1 scramble (Token.nativeResponse hashes secret scramble)
      (.nativePassword (Token.doubleSha1 hashes token)) = true ↔ secret = token := by
  have hlen := nativeResponse_length secret scramble h.sha1_length
  constructor
  · intro hverified
    simp only [nativeAuth, verifyNativeResponse] at hverified
    rw [if_neg (by simp [hlen]), beq_iff_eq] at hverified
    have hhash := h.sha1 secret hsecret token htoken hverified
    have hmask : (Token.nativeResponse hashes secret scramble).length =
        (hashes.sha1 (scramble ++ Token.doubleSha1 hashes token)).length := by
      rw [hlen, h.sha1_length]
    have hanswer : Token.nativeResponse hashes secret scramble =
        Token.nativeResponse hashes token scramble := by
      rw [← zipWith_xor_cancel hmask]
      exact congrArg (List.zipWith (· ^^^ ·) · _) hhash
    exact h.answer secret hsecret token htoken hanswer
  · rintro rfl
    exact nativeAuth_own h.sha1_length

theorem cleartextAuth_iff (h : NoCollision hashes scramble secrets) (hsecret : secret ∈ secrets)
    (htoken : token ∈ secrets) :
    cleartextAuth hashes secret (.pgCleartext (hashes.sha256 token)) = true ↔ secret = token := by
  unfold cleartextAuth Token.verifyPgCleartext
  rw [beq_iff_eq]
  constructor
  · exact h.sha256 secret hsecret token htoken
  · rintro rfl
    rfl

end

/-! ## Runs -/

inductive TokenOp
  | addEnv (raw : Bytes) (args : EnvAddArgs)
  | grantEnv (raw : Bytes) (name : String)
  | rmEnv (name : String)

/-- The environments and the tokens that were returned for them, newest first. -/
abbrev TokenLog := List (String × String)

def TokenOp.step (deps : MutateDeps) : TokenOp → Config × TokenLog → Config × TokenLog
  | .addEnv raw args, (cfg, log) => match (Mutate.addEnv deps raw args).exec cfg with
    | (.ok out, cfg') => (cfg', (args.name, out.token) :: log)
    | (.error _, cfg') => (cfg', log)
  | .grantEnv raw name, (cfg, log) => match (Mutate.grantEnv deps raw name).exec cfg with
    | (.ok out, cfg') => (cfg', (name, out.token) :: log)
    | (.error _, cfg') => (cfg', log)
  | .rmEnv name, (cfg, log) => (((Mutate.rmEnv deps name).exec cfg).2, log)

def runTokens (deps : MutateDeps) (ops : List TokenOp) (start : Config × TokenLog) :
    Config × TokenLog :=
  ops.foldl (fun s op => op.step deps s) start

/-- Every environment stores the verifier of the newest token in the log. -/
def Minted (hashes : Token.Hashes) (s : Config × TokenLog) : Prop :=
  ∀ (name : String) (env : Env), s.1.envs[name]? = some env → env.engine ≠ .msSql ∧
    ∃ token, s.2.lookup name = some token ∧
      env.clientAuth = Token.clientAuthFor hashes env.engine token

variable {hashes : Token.Hashes} {deps : MutateDeps} {cfg : Config} {log : TokenLog}

theorem TokenLog.mem_of_lookup {name token : String} (h : log.lookup name = some token) :
    (name, token) ∈ log := by
  obtain ⟨front, back, hlog, -⟩ := List.lookup_eq_some_iff.mp h
  simp [hlog]

theorem Minted.insert {name token : String} {env : Env} (h : Minted hashes (cfg, log))
    (hengine : env.engine ≠ .msSql)
    (hauth : env.clientAuth = Token.clientAuthFor hashes env.engine token) :
    Minted hashes ({ cfg with envs := cfg.envs.insert name env }, (name, token) :: log) := by
  intro n e he
  rcases Tables.getElem?_insert_eq_some.mp he with ⟨rfl, rfl⟩ | ⟨hne, he⟩
  · exact ⟨hengine, token, by simp, hauth⟩
  · obtain ⟨hsql, token', hlookup, hauth'⟩ := h n e he
    refine ⟨hsql, token', ?_, hauth'⟩
    have hbeq : (n == name) = false := by simpa using hne.symm
    simpa [List.lookup_cons, hbeq] using hlookup

theorem Minted.erase {name : String} (h : Minted hashes (cfg, log)) :
    Minted hashes ({ cfg with envs := cfg.envs.erase name }, log) :=
  fun n e he => h n e (Tables.getElem?_erase_eq_some.mp he).2

theorem Minted.step {s : Config × TokenLog} (h : Minted deps.hashes s) (op : TokenOp) :
    Minted deps.hashes (op.step deps s) := by
  obtain ⟨cfg, log⟩ := s
  cases op with
  | addEnv raw args =>
    have hspec : (Mutate.addEnv deps raw args).Atomic cfg fun out cfg' =>
        Minted deps.hashes (cfg', (args.name, out.token) :: log) := by
      apply addEnv_spec
      intro p hengine _ _ _ _
      exact h.insert hengine rfl
    rcases ensures_iff.mp hspec with ⟨e, cfg', hrun, rfl⟩ | ⟨out, cfg', hrun, hminted⟩
    · simpa [TokenOp.step, hrun] using h
    · simpa [TokenOp.step, hrun] using hminted
  | grantEnv raw name =>
    have hspec : (Mutate.grantEnv deps raw name).Atomic cfg fun out cfg' =>
        Minted deps.hashes (cfg', (name, out.token) :: log) := by
      apply grantEnv_spec
      intro env hname
      exact h.insert (h name env hname).1 rfl
    rcases ensures_iff.mp hspec with ⟨e, cfg', hrun, rfl⟩ | ⟨out, cfg', hrun, hminted⟩
    · simpa [TokenOp.step, hrun] using h
    · simpa [TokenOp.step, hrun] using hminted
  | rmEnv name =>
    have hspec : (Mutate.rmEnv deps name).Atomic cfg fun _ cfg' =>
        cfg' = { cfg with envs := cfg.envs.erase name } := rmEnv_spec
    rcases ensures_iff.mp hspec with ⟨e, cfg', hrun, rfl⟩ | ⟨out, cfg', hrun, rfl⟩
    · simpa [TokenOp.step, hrun] using h
    · simpa [TokenOp.step, hrun] using h.erase

theorem Minted.run {s : Config × TokenLog} (h : Minted deps.hashes s) (ops : List TokenOp) :
    Minted deps.hashes (runTokens deps ops s) := by
  induction ops generalizing s with
  | nil => exact h
  | cons op ops ih => exact ih (h.step op)

/-! ## Logins in a run -/

/-- What the two ends of a connection draw, the client, and how many packets its startup
phase may take. -/
structure Connection where
  client : Client
  random : Bytes
  threadId : UInt32
  pid : ℤ
  startup : ℕ

def Connection.scramble (conn : Connection) : Bytes := conn.random.map printable

/-- Whether the engine path of the environment `name` accepts the client. There is none for
an environment that does not exist, and none for the engine that the daemon does not serve. -/
def login (deps : SessionDeps) (cfg : Config) (name : String) (conn : Connection) : Bool :=
  match cfg.envs[name]? with
  | none => false
  | some env => match env.engine with
    | .mySql => accepted ((handshake deps name env.clientAuth conn.threadId).eval
        (wireAnswer conn.client conn.random) {}).1
    | .postgres => acceptedSession ((pgHandshake deps.hashes conn.startup name env.clientAuth
        conn.pid).eval (wireAnswer conn.client conn.random) {}).1
    | .msSql => false

/-- The client names `user` and presents `secret` in the way of `engine`. -/
def Connection.Presents (hashes : Token.Hashes) (conn : Connection) (user : String)
    (secret : Bytes) : EngineKind → Prop
  | .mySql => conn.random.length = 20 ∧
      NativeLogin hashes conn.threadId conn.scramble user secret conn.client
  | .postgres => CleartextLogin conn.startup user secret conn.client
  | .msSql => True

theorem login_iff {sessions : SessionDeps} (hdeps : deps.hashes = sessions.hashes)
    {s : Config × TokenLog} {name : String} {conn : Connection} {secret : Bytes}
    (hminted : Minted deps.hashes s)
    (hpresents : ∀ env, s.1.envs[name]? = some env →
      conn.Presents sessions.hashes name secret env.engine)
    (hhash : NoCollision sessions.hashes conn.scramble
      (secret :: s.2.map fun e => Str.asBytes e.2)) :
    login sessions s.1 name conn = true ↔ name ∈ s.1.envs ∧
      ∃ token, s.2.lookup name = some token ∧ secret = Str.asBytes token := by
  unfold login
  cases henv : s.1.envs[name]? with
  | none =>
    have hnot : name ∉ s.1.envs := by
      rw [Std.ExtTreeMap.mem_iff_isSome_getElem?, henv]
      simp
    simp [hnot]
  | some env =>
    have hmem : name ∈ s.1.envs := Tables.mem_of_getElem? henv
    obtain ⟨hsql, token, hlookup, hauth⟩ := hminted name env henv
    have hlog : Str.asBytes token ∈ secret :: s.2.map fun e => Str.asBytes e.2 := by
      have hin : (name, token) ∈ s.2 := TokenLog.mem_of_lookup hlookup
      exact List.mem_cons_of_mem _ (List.mem_map_of_mem hin)
    have hpresent := hpresents env henv
    have hgoal : (name ∈ s.1.envs ∧ ∃ token, s.2.lookup name = some token ∧
        secret = Str.asBytes token) ↔ secret = Str.asBytes token := by
      simp [hmem, hlookup]
    rw [hgoal]
    dsimp only
    rw [hauth, hdeps]
    cases hengine : env.engine with
    | mySql =>
      rw [hengine] at hpresent
      obtain ⟨hrandom, hlogin⟩ := hpresent
      have hiff : nativeAuth sessions.sha1 (conn.random.map printable)
          (Token.nativeResponse sessions.hashes secret (conn.random.map printable))
          (.nativePassword (Token.doubleSha1 sessions.hashes (Str.asBytes token))) = true ↔
            secret = Str.asBytes token := nativeAuth_iff hhash List.mem_cons_self hlog
      simp only [Token.clientAuthFor]
      rw [handshake_accepted hrandom hhash.sha1_length hlogin]
      simpa using hiff
    | postgres =>
      rw [hengine] at hpresent
      have hiff := cleartextAuth_iff hhash List.mem_cons_self hlog
      simp only [Token.clientAuthFor]
      rw [pgHandshake_accepted hpresent]
      simpa using hiff
    | msSql => exact absurd hengine hsql

/-- In every state that a run of `add_env`, `grant_env` and `rm_env` reaches, a client logs
in to an environment if and only if the environment is there and the client presents the
token that was last returned for it; every other token in the log is rejected. -/
theorem token_life {sessions : SessionDeps} (hdeps : deps.hashes = sessions.hashes)
    {start : Config × TokenLog} (hstart : Minted deps.hashes start) (ops : List TokenOp)
    {name : String} {conn : Connection} {secret : Bytes}
    (hpresents : ∀ env, (runTokens deps ops start).1.envs[name]? = some env →
      conn.Presents sessions.hashes name secret env.engine)
    (hhash : NoCollision sessions.hashes conn.scramble
      (secret :: (runTokens deps ops start).2.map fun e => Str.asBytes e.2))
    (hdistinct : ((runTokens deps ops start).2.map fun e => Str.asBytes e.2).Nodup) :
    (login sessions (runTokens deps ops start).1 name conn = true ↔
      name ∈ (runTokens deps ops start).1.envs ∧
        ∃ token, (runTokens deps ops start).2.lookup name = some token ∧
          secret = Str.asBytes token) ∧
    ∀ e ∈ (runTokens deps ops start).2, secret = Str.asBytes e.2 →
      ¬ (e.1 = name ∧ name ∈ (runTokens deps ops start).1.envs ∧
        (runTokens deps ops start).2.lookup name = some e.2) →
      login sessions (runTokens deps ops start).1 name conn = false := by
  have hiff := login_iff hdeps (hstart.run ops) hpresents hhash
  refine ⟨hiff, ?_⟩
  intro e he hsecret hother
  rw [← Bool.not_eq_true, hiff]
  rintro ⟨hmem, token, hlookup, htoken⟩
  have hin : (name, token) ∈ (runTokens deps ops start).2 := TokenLog.mem_of_lookup hlookup
  have hsame := List.inj_on_of_nodup_map hdistinct he hin (hsecret.symm.trans htoken)
  subst hsame
  exact hother ⟨rfl, hmem, hlookup⟩

/-! ## A token that was replaced -/

def sampleSessions : SessionDeps where
  sqlparser :=
    { parseMySql := fun _ => .error "", parsePostgres := fun _ => .error "",
      objectNameToString := fun _ => "" }
  sha256 := Sha.sha256
  sha1 := Sha.sha1
  widenF32 bits := bits.toUInt64
  showF64 _ := ""
  formatFloat _ := ""

def sampleMutate : MutateDeps where
  hashes := sampleSessions.hashes
  debug s := "\"" ++ s ++ "\""

def sampleStart : Config × TokenLog :=
  ({ credentials := (∅ : Table Credential).insert "c" ⟨"u", "pw"⟩ }, [])

def sampleArgs : EnvAddArgs where
  name := "prod"
  backendHost := "db"
  backendPort := 3306
  defaultDatabase := none
  bastion := none
  credential := "c"
  policy := .readOnly
  listenPort := none
  maxPool := none
  engine := .mySql

def sampleOps : List TokenOp :=
  [.addEnv (List.replicate 32 0) sampleArgs, .grantEnv (List.replicate 32 1) "prod"]

/-- The token that `add_env` returned. -/
def replacedToken : Bytes := List.replicate 43 0x41

def replacedAnswer : Bytes :=
  [48, 171, 81, 36, 16, 48, 61, 238, 252, 228, 22, 155, 191, 106, 224, 34, 209, 247, 230, 67]

def sampleResponse : Bytes :=
  [0x00, 0x82, 0x08, 0x00] ++ List.replicate 28 0 ++ Str.asBytes "prod" ++ [0, 20] ++
    replacedAnswer ++ authPluginName ++ [0]

def sampleConnection : Connection where
  client _ := packet 1 sampleResponse
  random := (List.range 20).map UInt8.ofNat
  threadId := 7
  pid := 7
  startup := 1

def sampleParsed : ParsedHandshakeResponse :=
  ⟨0x00088200, Str.asBytes "prod", replacedAnswer, none, some authPluginName⟩

theorem replacedAnswer_eq : Token.nativeResponse sampleSessions.hashes replacedToken
    sampleConnection.scramble = replacedAnswer := by decide +kernel

theorem sampleStart_minted : Minted sampleMutate.hashes sampleStart := by
  intro name env henv
  simp [sampleStart] at henv

theorem sample_log : (runTokens sampleMutate sampleOps sampleStart).2 =
    [("prod", "AQEBAQEBAQEBAQEBAQEBAQEBAQEBAQEBAQEBAQEBAQE"),
      ("prod", "AAAAAAAAAAAAAAAAAAAAAAAAAAAAAAAAAAAAAAAAAAA")] := by decide +kernel

theorem sampleConnection_presents : sampleConnection.Presents sampleSessions.hashes "prod"
    replacedToken .mySql := by
  have hparse : parseHandshakeResponse sampleResponse = .ok sampleParsed := by rfl
  have hswitch : needsSwitch sampleParsed = false := by decide
  refine ⟨by decide, sampleResponse, sampleParsed, by decide, hparse, by decide, ?_, ?_⟩
  · exact List.prefix_refl _
  · rw [hswitch]
    exact replacedAnswer_eq.symm

theorem sample_noCollision : NoCollision sampleSessions.hashes sampleConnection.scramble
    (replacedToken :: (runTokens sampleMutate sampleOps sampleStart).2.map
      fun e => Str.asBytes e.2) where
  sha1_length := Sha.sha1_length
  sha256 := by rw [sample_log]; decide +kernel
  answer := by rw [sample_log]; decide +kernel
  sha1 := by rw [sample_log]; decide +kernel

theorem token_life_sample :
    (login sampleSessions (runTokens sampleMutate sampleOps sampleStart).1 "prod" sampleConnection =
      true ↔ "prod" ∈ (runTokens sampleMutate sampleOps sampleStart).1.envs ∧
        ∃ token, (runTokens sampleMutate sampleOps sampleStart).2.lookup "prod" = some token ∧
          replacedToken = Str.asBytes token) ∧
    ∀ e ∈ (runTokens sampleMutate sampleOps sampleStart).2, replacedToken = Str.asBytes e.2 →
      ¬ (e.1 = "prod" ∧ "prod" ∈ (runTokens sampleMutate sampleOps sampleStart).1.envs ∧
        (runTokens sampleMutate sampleOps sampleStart).2.lookup "prod" = some e.2) →
      login sampleSessions (runTokens sampleMutate sampleOps sampleStart).1 "prod"
        sampleConnection = false := by
  have hengine : ∀ env, (runTokens sampleMutate sampleOps sampleStart).1.envs["prod"]? = some env →
      env.engine = .mySql := by
    intro env henv
    have hsome : ((runTokens sampleMutate sampleOps sampleStart).1.envs["prod"]?.map Env.engine) =
        some .mySql := by decide +kernel
    simpa [henv] using hsome
  apply token_life rfl sampleStart_minted sampleOps
  · intro env henv
    rw [hengine env henv]
    exact sampleConnection_presents
  · exact sample_noCollision
  · rw [sample_log]
    decide

end MiddleWhere.Net
