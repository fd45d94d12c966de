import MiddleWhere.Daemon.Control
import MiddleWhere.Daemon.Live

/-!
# Request handlers

One handler for each request of the control channel. A handler of a mutation persists the
change first and then reflects it onto the live table; every way out of a handler goes
through one audit event, but for the few that the code leaves silent.
-/

namespace MiddleWhere.Daemon
open Prog

/-! ## Ways out -/

section
variable (peer : PeerIdentity) (action target : String)

def emit (decision : AuditDecision) (error : Option String) : DaemonProg Unit :=
  ask (.emit (adminEvent peer action target decision error))

def allowed (resp : Response) : DaemonProg Response := do
  emit peer action target .allow none
  return resp

def failMsg (msg : String) : DaemonProg Response := do
  emit peer action target .error (some msg)
  return .error msg

def notYetLive : String := "persisted but not yet live"

def tokenButNotLive (out : Mutate.NewEnvOutput) (e : String) : DaemonProg Response := do
  let note := action ++ " on " ++ target ++ " " ++ notYetLive ++
    " (restart the service to bind it): " ++ e
  emit peer action target .error (some note)
  return .token { NewEnvOutputDto.ofOutput out with
    note := some (notYetLive ++ " — restart the service to bind this env") }

def persistedButApplyFailed (env e : String) : DaemonProg Response :=
  failMsg peer action target ("config persisted but env " ++ env ++ " could not be applied live " ++
    "(restart the service to finish applying): " ++ e)

def stoppedAfterFailedRepin (bastion : String) (stopped : List String) : DaemonProg Response :=
  failMsg peer "set_fingerprint" bastion ("new fingerprint saved for bastion " ++ bastion ++
    ", but " ++ toString stopped.length ++ " env(s) could not " ++
    "reconnect under it and were STOPPED rather than left on the old, " ++
    "now-untrusted tunnel: " ++ "; ".intercalate stopped ++
    ". Verify the bastion's real host key, then " ++
    "re-add or restart to bring them back.")

end

section
variable (deps : DaemonDeps) (peer : PeerIdentity)

def failState (action target : String) (e : Store.StateError) : DaemonProg Response :=
  failMsg peer action target (deps.showState e)

/-! ## Mutations -/

def simpleMutation (action target : String) (change : Mutate.Change) : DaemonProg Response := do
  match ← ask (.persist change) with
  | .ok _ => allowed peer action target .ok
  | .error e => failState deps peer action target e

def addBastionReq (dto : BastionInputDto) : DaemonProg Response :=
  simpleMutation deps peer "add_bastion" dto.name
    (.addBastion ⟨dto.name, dto.host, dto.port, dto.sshUser, dto.auth, dto.fingerprint⟩)

/-- The eviction comes after the lock is released. -/
def rmBastionReq (name : String) : DaemonProg Response := do
  let resp ← simpleMutation deps peer "rm_bastion" name (.rmBastion name)
  match resp with
  | .ok =>
    let _ ← ask (.evict name)
    return resp
  | _ => return resp

/-- The loop of `set_fingerprint_req`: it stops what it cannot rebuild and goes on. -/
def repinEnvs (cfg : Config) : List String → DaemonProg (List String)
  | [] => return []
  | envName :: rest => do
    match cfg.envs[envName]? with
    | none => repinEnvs cfg rest
    | some env =>
      if ← ask (.hasEnv envName) then
        match ← (applyRebuildBackend deps cfg env envName).attempt with
        | .ok _ => repinEnvs cfg rest
        | .error e =>
          applyRmEnv envName
          let stopped ← repinEnvs cfg rest
          return (envName ++ ": " ++ e) :: stopped
      else repinEnvs cfg rest

def setFingerprintReq (bastion : String) (fingerprint : HostKeyFingerprint) :
    DaemonProg Response := do
  match ← ask (.persist (.setFingerprint bastion fingerprint)) with
  | .error e => failState deps peer "set_fingerprint" bastion e
  | .ok _ =>
    let _ ← ask (.evict bastion)
    match ← ask .loadConfig with
    | .error e => failState deps peer "set_fingerprint" bastion e
    | .ok cfg =>
      let affected := Mutate.usersOf cfg fun e => e.bastion == some bastion
      let stopped ← repinEnvs deps cfg affected
      if !stopped.isEmpty then stoppedAfterFailedRepin peer bastion stopped
      else allowed peer "set_fingerprint" bastion .ok

/-- The loop of `rotate_cred_req`; the first failure is returned, with its environment. -/
def rebuildEnvs (cfg : Config) : List String → DaemonProg (Option (String × String))
  | [] => return none
  | envName :: rest => do
    match cfg.envs[envName]? with
    | none => rebuildEnvs cfg rest
    | some env =>
      match ← (applyRebuildBackend deps cfg env envName).attempt with
      | .ok _ => rebuildEnvs cfg rest
      | .error e => return some (envName, e)

def rotateCredReq (name password : String) : DaemonProg Response := do
  match ← ask (.persist (.rotateCred name password)) with
  | .error e => failState deps peer "rotate_cred" name e
  | .ok _ =>
    match ← ask .loadConfig with
    | .error e => failState deps peer "rotate_cred" name e
    | .ok cfg =>
      let affected := Mutate.usersOf cfg fun e => e.credential == name
      match ← rebuildEnvs deps cfg affected with
      | some (envName, e) => persistedButApplyFailed peer "rotate_cred" name envName e
      | none => allowed peer "rotate_cred" name .ok

def EnvInputDto.args (dto : EnvInputDto) : Mutate.EnvAddArgs where
  name := dto.name
  backendHost := dto.backendHost
  backendPort := dto.backendPort.getD dto.engine.defaultPort
  defaultDatabase := dto.database
  bastion := dto.bastion
  credential := dto.credential
  policy := dto.policy
  listenPort := dto.listenPort
  maxPool := dto.maxPool
  engine := dto.engine

/-- The token's random bytes are drawn first; the transform takes them as an argument. -/
def addEnvReq (dto : EnvInputDto) : DaemonProg Response := do
  let raw ← ask (.randomBytes Token.tokenRandBytes)
  match ← ask (.persist (.addEnv raw dto.args)) with
  | .error e => failState deps peer "add_env" dto.name e
  | .ok out =>
    match ← ask .loadConfig with
    | .error e => failState deps peer "add_env" dto.name e
    | .ok cfg =>
      match cfg.envs[dto.name]? with
      | none => failMsg peer "add_env" dto.name "env vanished after save"
      | some env =>
        match ← (applyAddEnv deps cfg env dto.name).attempt with
        | .error e => tokenButNotLive peer "add_env" dto.name out e
        | .ok _ => allowed peer "add_env" dto.name (.token (.ofOutput out))

def rmEnvReq (name : String) : DaemonProg Response := do
  match ← ask (.persist (.rmEnv name)) with
  | .error e => failState deps peer "rm_env" name e
  | .ok _ =>
    applyRmEnv name
    allowed peer "rm_env" name .ok

def grantReq (env : String) : DaemonProg Response := do
  let raw ← ask (.randomBytes Token.tokenRandBytes)
  match ← ask (.persist (.grantEnv raw env)) with
  | .error e => failState deps peer "grant" env e
  | .ok out =>
    match ← ask .loadConfig with
    | .error e => failState deps peer "grant" env e
    | .ok cfg =>
      match cfg.envs[env]? with
      | none => failMsg peer "grant" env "env vanished after save"
      | some e =>
        match ← (applySwapAuthz env e.clientAuth).attempt with
        | .error err => tokenButNotLive peer "grant" env out err
        | .ok _ => allowed peer "grant" env (.token (.ofOutput out))

def setPolicyReq (env : String) (target : Mutate.PolicyTarget) (confirmUnsafe : Bool) :
    DaemonProg Response := do
  if target = .readWrite ∧ !confirmUnsafe then
    let reason := "switching an env to read-write requires explicit confirmation"
    emit peer "set_policy" env .deny (some reason)
    return .denied reason
  else
    match ← ask (.persist (.setPolicy env target)) with
    | .error e => failState deps peer "set_policy" env e
    | .ok _ =>
      match ← ask .loadConfig with
      | .error e => failState deps peer "set_policy" env e
      | .ok cfg =>
        match cfg.envs[env]? with
        | none => failMsg peer "set_policy" env "env vanished after save"
        | some e =>
          match ← (applySwapPolicy env e.policy).attempt with
          | .error err => persistedButApplyFailed peer "set_policy" env env err
          | .ok _ => allowed peer "set_policy" env .ok

/-- The loop of `import_req`; the first failure is returned, with its environment. -/
def addEnvs (cfg : Config) : List String → DaemonProg (Option (String × String))
  | [] => return none
  | envName :: rest => do
    match cfg.envs[envName]? with
    | none => addEnvs cfg rest
    | some env =>
      match ← (applyAddEnv deps cfg env envName).attempt with
      | .ok _ => addEnvs cfg rest
      | .error e => return some (envName, e)

def importReq (fragment : Config) : DaemonProg Response := do
  let newEnvs := fragment.envs.keys
  let target := ",".intercalate newEnvs
  match ← ask (.persist (.mergeImport fragment)) with
  | .error e => failState deps peer "import" target e
  | .ok _ =>
    match ← ask .loadConfig with
    | .error e => failState deps peer "import" target e
    | .ok cfg =>
      match ← addEnvs deps cfg newEnvs with
      | some (envName, e) => persistedButApplyFailed peer "import" target envName e
      | none => allowed peer "import" target .ok

/-! ## Reads -/

/-- A listing of the stored configuration. -/
def listRows (action : String) (rows : Config → List String) : DaemonProg Response := do
  match ← ask .loadConfig with
  | .error e => failState deps peer action "" e
  | .ok cfg => allowed peer action "" (.rows (rows cfg))

def bastionRow (name : String) (b : Bastion) : String :=
  let auth := match b.auth with
    | .password _ => "password"
    | .key _ _ => "key"
  name ++ "\t" ++ b.sshUser ++ "@" ++ b.host ++ ":" ++ toString b.port.toNat ++ "\t" ++ auth ++
    "\tpinned=" ++ toString b.pinnedHostKeys.length

def listBastions : DaemonProg Response :=
  listRows deps peer "list_bastions" fun cfg => cfg.bastions.toList.map fun e => bastionRow e.1 e.2

def listCreds : DaemonProg Response :=
  listRows deps peer "list_creds" fun cfg =>
    cfg.credentials.toList.map fun e => e.1 ++ "\t" ++ e.2.backendUser

def engineLabel : EngineKind → String
  | .mySql => "mysql"
  | .postgres => "postgres"
  | .msSql => "mssql"

def policyLabel : Policy → String
  | .readOnly => "read-only"
  | .readWrite => "read-write"
  | .custom _ _ _ => "custom"

def envRow (name : String) (e : Env) : String :=
  name ++ "\t" ++ e.backendHost ++ ":" ++ toString e.backendPort.toNat ++ "\t" ++
    engineLabel e.engine ++ "\t" ++ policyLabel e.policy ++ "\tbastion=" ++ e.bastion.getD "-" ++
    "\tcred=" ++ e.credential ++ "\tport=" ++ toString e.listenPort.toNat

def listEnvs : DaemonProg Response :=
  listRows deps peer "list_envs" fun cfg => cfg.envs.toList.map fun e => envRow e.1 e.2

/-- `str::lines`: a line feed ends a line, with the carriage return before it. -/
def lines (body : String) : List String :=
  let pieces := body.toList.splitOn '\n'
  let ended := pieces.dropLast.map fun l => if l.getLast? = some '\r' then l.dropLast else l
  let rest := pieces.getLastD []
  (if rest.isEmpty then ended else ended ++ [rest]).map String.ofList

/-- The last `n` lines of the newest audit file. Nothing is audited on success: the event would
land in the very file that is read. -/
def auditTail (n : ℕ) : DaemonProg Response := do
  let target := "n=" ++ toString n
  if ← ask .auditDirExists then
    match ← ask .readAuditDir with
    | .error e => failMsg peer "audit_tail" target ("read audit dir: " ++ e)
    | .ok entries =>
      let files := (entries.filter (·.startsWith "audit.jsonl")).mergeSort
      match files.getLast? with
      | none => return .auditLines []
      | some latest =>
        match ← ask (.readAuditFile latest) with
        | .error e => failMsg peer "audit_tail" target ("read audit file: " ++ e)
        | .ok body =>
          let kept := (lines body).filter (!·.isEmpty)
          return .auditLines (kept.drop (kept.length - n))
  else return .auditLines []

def probeReq (env : Option String) (all : Bool) : DaemonProg Response := do
  let which := if all then some .all else env.map Probe.one
  match which with
  | none => failMsg peer "probe" "" "specify an env or set all=true"
  | some which =>
    match ← ask .loadConfig with
    | .error e => failState deps peer "probe" "" e
    | .ok cfg =>
      let target := match which with
        | .all => "all"
        | .one e => e
      let results ← testEnvs deps cfg which
      allowed peer "probe" target
        (.probeResults (results.map fun r => ⟨r.env, r.ok, r.supported, r.reason⟩))

/-! ## Dispatch -/

def dispatch (req : Request) : DaemonProg Response :=
  match req with
  | .hello _ => return .error "unexpected Hello after handshake"
  | .addBastion dto => addBastionReq deps peer dto
  | .rmBastion name => rmBastionReq deps peer name
  | .setFingerprint bastion fingerprint => setFingerprintReq deps peer bastion fingerprint
  | .addCred dto =>
    simpleMutation deps peer "add_cred" dto.name (.addCred dto.name dto.backendUser dto.password)
  | .rotateCred name password => rotateCredReq deps peer name password
  | .rmCred name => simpleMutation deps peer "rm_cred" name (.rmCred name)
  | .addEnv dto => addEnvReq deps peer dto
  | .rmEnv name => rmEnvReq deps peer name
  | .grant env => grantReq deps peer env
  | .setPolicy env target confirmUnsafe => setPolicyReq deps peer env target confirmUnsafe
  | .import_ fragment => importReq deps peer fragment
  | .listBastions => listBastions deps peer
  | .listCreds => listCreds deps peer
  | .listEnvs => listEnvs deps peer
  | .auditTail n => auditTail peer n
  | .probe env all => probeReq deps peer env all

end
end MiddleWhere.Daemon
