import MiddleWhere.Core.MutateValid
import MiddleWhere.Daemon.Protocol

/-!
# Live environments

The daemon's table of running environments and the operations that build, publish and stop
them. An environment runs as an accept loop that reads the published runtime at each
connect. A request that changes the configuration runs alone: it holds the lock that
serializes load, mutate, save and apply.

SSH, sockets, pools and the registry are the interface of these programs. The store is too:
its operations here are the whole programs of the store, run to their end.
-/

namespace MiddleWhere

abbrev Mutate.Change.Out : Mutate.Change → Type
  | .addEnv _ _ | .grantEnv _ _ => Mutate.NewEnvOutput
  | _ => Unit

/-- The transform, with what it returns to the handler. -/
def Mutate.Change.run (deps : MutateDeps) : (change : Change) → ConfigTransform change.Out
  | .addBastion args => Mutate.addBastion deps args
  | .setFingerprint name fingerprint => Mutate.setFingerprint deps name fingerprint
  | .rmBastion name => Mutate.rmBastion deps name
  | .addCred name backendUser password => Mutate.addCred deps name backendUser password
  | .rotateCred name newPassword => Mutate.rotateCred deps name newPassword
  | .rmCred name => Mutate.rmCred deps name
  | .addEnv raw args => Mutate.addEnv deps raw args
  | .rmEnv name => Mutate.rmEnv deps name
  | .grantEnv raw name => Mutate.grantEnv deps raw name
  | .setPolicy envName target => Mutate.setPolicy deps envName target
  | .mergeImport fragment => Mutate.mergeImport deps fragment

namespace Daemon
open Prog

abbrev SocketAddr := String

structure BackendOpts where
  host : String
  port : UInt16
  user : String
  password : String
  database : Option String
deriving DecidableEq

def BackendOpts.fromEnvCredential (env : Env) (cred : Credential) : BackendOpts where
  host := env.backendHost
  port := env.backendPort
  user := cred.backendUser
  password := cred.backendPassword
  database := env.defaultDatabase

/-- A backend pool, with what it was built from. -/
structure Backend where
  pool : ℕ
  opts : BackendOpts
  maxSize : UInt32
deriving DecidableEq

/-- An authenticated SSH session, with the bastion entry that its host key was checked against. -/
structure BastionSession where
  id : ℕ
  bastion : Bastion
deriving DecidableEq

/-- A local port that leads to `host:port` through the session. -/
structure LocalForward where
  session : BastionSession
  host : String
  port : UInt16
  localPort : UInt16
deriving DecidableEq

structure EnvRuntime where
  name : String
  engine : EngineKind
  backend : Backend
  policy : Policy
  clientAuth : ClientAuth
  listenAddr : SocketAddr
  idleTimeout : UInt32
  forwards : List LocalForward
deriving DecidableEq

abbrev ListenerId := ℕ
abbrev LoopId := ℕ

inductive DaemonOp
  | persist (change : Mutate.Change)
  | loadConfig
  | randomBytes (len : ℕ)
  | emit (event : AdminEvent)
  | getOrOpen (name : String) (bastion : Bastion) (allowTofu : Bool)
  | openFresh (name : String) (bastion : Bastion) (allowTofu : Bool)
  | evict (name : String)
  | startForward (session : BastionSession) (host : String) (port : UInt16)
  | buildBackend (engine : EngineKind) (opts : BackendOpts) (maxSize : UInt32)
  | probeBackend (engine : EngineKind) (backend : Backend)
  | bindListener (addr : SocketAddr)
  | spawnLoop (runtime : EnvRuntime) (listener : ListenerId)
  | abortLoop (loop : LoopId)
  | insertEnv (name : String) (runtime : EnvRuntime) (loop : LoopId)
  | removeEnv (name : String)
  | hasEnv (name : String)
  | currentRuntime (name : String)
  | publish (name : String) (runtime : EnvRuntime)
  | auditDirExists
  | readAuditDir
  | readAuditFile (name : String)

/-- `publish` answers whether there was a handle to publish through. -/
abbrev DaemonOp.Res : DaemonOp → Type
  | .persist change => Except Store.StateError change.Out
  | .loadConfig => Except Store.StateError Config
  | .randomBytes _ => Bytes
  | .getOrOpen _ _ _ | .openFresh _ _ _ => Except String BastionSession
  | .startForward _ _ _ => Except String UInt16
  | .buildBackend _ _ _ => Except String ℕ
  | .probeBackend _ _ => Except String Unit
  | .bindListener _ => Except String ListenerId
  | .spawnLoop _ _ => LoopId
  | .removeEnv _ => Option LoopId
  | .currentRuntime _ => Option EnvRuntime
  | .evict _ | .hasEnv _ | .publish _ _ | .auditDirExists => Bool
  | .readAuditDir => Except String (List String)
  | .readAuditFile _ => Except String String
  | .emit _ | .abortLoop _ | .insertEnv _ _ _ => Unit

abbrev daemonSig : Sig := ⟨DaemonOp, DaemonOp.Res⟩

/-- Errors are kept as the text that `{e:#}` prints. -/
abbrev DaemonProg := Prog daemonSig String
abbrev DaemonEvent := Event daemonSig

def ask (o : DaemonOp) : DaemonProg o.Res := perform (S := daemonSig) o

structure DaemonDeps where
  seals : SealDeps
  mutate : Mutate.MutateDeps
  showState : Store.StateError → String
  parseSocketAddr : String → Except String SocketAddr
  parsesLoopback : String → Bool
  stateDir : String
  listenHost : String
  allowTofu : Bool
  allowInsecurePgCleartext : Bool

/-- `.with_context(|| context)?` -/
def orContext {α : Type} (context : String) (r : Except String α) : DaemonProg α :=
  ofExcept (r.mapError fun e => context ++ ": " ++ e)

def debugEngine : EngineKind → String
  | .mySql => "MySql"
  | .postgres => "Postgres"
  | .msSql => "MsSql"

/-! ## Building a runtime -/

section
variable (deps : DaemonDeps)

/-- `fresh` is a registry of one's own, as a probe has it. -/
def openBastion (fresh : Bool) (name : String) (bastion : Bastion) :
    DaemonProg (Except String BastionSession) :=
  if fresh then ask (.openFresh name bastion deps.allowTofu)
  else ask (.getOrOpen name bastion deps.allowTofu)

/-- The tunnel, if there is to be one, and the address that the pool is to dial. -/
def openTunnel (fresh : Bool) (name : String) (env : Env) (cfg : Config) (opts : BackendOpts) :
    DaemonProg (BackendOpts × List LocalForward) := do
  match env.bastion with
  | none => return (opts, [])
  | some bastionName =>
    match cfg.bastions[bastionName]? with
    | none => fail ("env " ++ name ++ " references unknown bastion " ++ bastionName)
    | some bastion =>
      let session ← orContext ("opening bastion session " ++ bastionName ++ " for env " ++ name)
        (← openBastion deps fresh bastionName bastion)
      let localPort ← orContext ("start local forward for env " ++ name)
        (← ask (.startForward session opts.host opts.port))
      return ({ opts with host := "127.0.0.1", port := localPort },
        [⟨session, opts.host, opts.port, localPort⟩])

def establishBackend (fresh : Bool) (name : String) (env : Env) (cfg : Config) :
    DaemonProg (Backend × List LocalForward) := do
  match cfg.credentials[env.credential]? with
  | none => fail ("env " ++ name ++ " references unknown credential " ++ env.credential)
  | some cred =>
    let (opts, forwards) ← openTunnel deps fresh name env cfg (.fromEnvCredential env cred)
    let maxSize := max env.pool.maxSize 1
    let pool ← orContext ("env " ++ name ++ ": build backend (" ++ debugEngine env.engine ++ ")")
      (← ask (.buildBackend env.engine opts maxSize))
    return (⟨pool, opts, maxSize⟩, forwards)

def buildEnvRuntime (name : String) (env : Env) (cfg : Config) : DaemonProg EnvRuntime := do
  let (backend, forwards) ← establishBackend deps false name env cfg
  let listenAddr ← orContext ("bad listen addr for env " ++ name)
    (deps.parseSocketAddr (deps.listenHost ++ ":" ++ toString env.listenPort.toNat))
  return {
    name := name, engine := env.engine, backend := backend, policy := env.policy,
    clientAuth := env.clientAuth, listenAddr := listenAddr,
    idleTimeout := env.pool.idleTimeoutSecs, forwards := forwards }

/-! ## Live changes -/

/-- Binds the listener, starts the accept loop and enters the handle: the end of `bind`'s turn
and of `apply_add_env`. -/
def serveRuntime (name : String) (runtime : EnvRuntime) : DaemonProg Unit := do
  let listener ← orContext ("bind " ++ runtime.listenAddr ++ " for env " ++ name)
    (← ask (.bindListener runtime.listenAddr))
  let loop ← ask (.spawnLoop runtime listener)
  ask (.insertEnv name runtime loop)

def applyAddEnv (cfg : Config) (env : Env) (name : String) : DaemonProg Unit := do
  let runtime ← buildEnvRuntime deps name env cfg
  serveRuntime name runtime

def applyRmEnv (name : String) : DaemonProg Unit := do
  match ← ask (.removeEnv name) with
  | some loop => ask (.abortLoop loop)
  | none => return ()

def swapRuntime (name : String) (mutate : EnvRuntime → EnvRuntime) : DaemonProg Unit := do
  match ← ask (.currentRuntime name) with
  | none => fail ("no such env " ++ name)
  | some runtime =>
    let _ ← ask (.publish name (mutate runtime))
    return ()

def applySwapAuthz (name : String) (newClientAuth : ClientAuth) : DaemonProg Unit :=
  swapRuntime name fun rt => { rt with clientAuth := newClientAuth }

def applySwapPolicy (name : String) (newPolicy : Policy) : DaemonProg Unit :=
  swapRuntime name fun rt => { rt with policy := newPolicy }

def applyRebuildBackend (cfg : Config) (env : Env) (name : String) : DaemonProg Unit := do
  let runtime ← buildEnvRuntime deps name env cfg
  if ← ask (.publish name runtime) then return ()
  else fail ("no such env " ++ name)

/-! ## Startup -/

def isLoopbackHost (host : String) : Bool :=
  host == "127.0.0.1" || host == "::1" || host == "localhost" || deps.parsesLoopback host

/-- One turn of the loop of `bind`. -/
def bindEnv (cfg : Config) (name : String) (env : Env) : DaemonProg Unit := do
  if env.engine = .msSql then return ()
  else if env.engine = .postgres ∧ !isLoopbackHost deps deps.listenHost ∧
      !deps.allowInsecurePgCleartext then
    fail ("env " ++ name ++ ": postgres cleartext auth on non-loopback bind " ++
      deps.mutate.debug deps.listenHost ++ " is refused; bind 127.0.0.1 or set " ++
      "MIDDLEWHERE_ALLOW_INSECURE_PG_CLEARTEXT=1")
  else
    let runtime ← buildEnvRuntime deps name env cfg
    serveRuntime name runtime

def bindEnvs (cfg : Config) : List (String × Env) → DaemonProg Unit
  | [] => return ()
  | (name, env) :: rest => do
    bindEnv deps cfg name env
    bindEnvs cfg rest

def bind (cfg : Config) : DaemonProg Unit := bindEnvs deps cfg cfg.envs.toList

/-- `--idle-timeout-secs` goes over every environment of the copy that is bound. -/
def overrideIdle (secs : Option UInt32) (cfg : Config) : Config :=
  match secs with
  | none => cfg
  | some secs =>
    { cfg with
      envs := cfg.envs.map fun _ env => { env with pool := { env.pool with idleTimeoutSecs := secs } } }

def run (idleTimeoutSecs : Option UInt32) : DaemonProg Unit := do
  let cfg ← ofExcept ((← ask .loadConfig).mapError deps.showState)
  bind deps (overrideIdle idleTimeoutSecs cfg)

/-! ## Probing -/

inductive Probe
  | one (name : String)
  | all

structure EnvProbeResult where
  env : String
  ok : Bool
  supported : Bool
  reason : String

def probeBackend (name : String) (env : Env) (cfg : Config) : DaemonProg Unit := do
  let (backend, _) ← establishBackend deps true name env cfg
  ofExcept (← ask (.probeBackend env.engine backend))

def probeOneEnv (cfg : Config) (name : String) : DaemonProg EnvProbeResult := do
  match cfg.envs[name]? with
  | none => return ⟨name, false, true, "no env named " ++ deps.mutate.debug name⟩
  | some env =>
    if env.engine = .msSql then return ⟨name, false, false, "engine mssql not supported yet"⟩
    else
      match ← (probeBackend deps name env cfg).attempt with
      | .ok _ => return ⟨name, true, true, ""⟩
      | .error e => return ⟨name, false, true, e⟩

def probeEnvs (cfg : Config) : List String → DaemonProg (List EnvProbeResult)
  | [] => return []
  | name :: rest => do
    let result ← probeOneEnv deps cfg name
    let results ← probeEnvs cfg rest
    return result :: results

def testEnvs (cfg : Config) (which : Probe) : DaemonProg (List EnvProbeResult) :=
  probeEnvs deps cfg (match which with
    | .one name => [name]
    | .all => cfg.envs.keys)

end
end Daemon
end MiddleWhere
