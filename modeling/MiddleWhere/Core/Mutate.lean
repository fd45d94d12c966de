import MiddleWhere.Core.Token
import MiddleWhere.Effects.Transform

/-!
# Configuration transforms

Each transform rewrites one configuration in place and may refuse, so it is a state
transformer below an error: what a refused transform has already written stays visible.
Random bytes are an argument. The text of a refusal quotes names as a debug formatter
prints them.
-/

namespace MiddleWhere.Mutate

abbrev ConfigTransform (α : Type) := Transform Config String α

structure MutateDeps where
  hashes : Token.Hashes
  debug : String → String

def clientPortBase : ℕ := 6033
def clientPortEnd : ℕ := 6064

/-- `for x in xs { if hit(x) { bail!(reason(x)) } }` -/
def refuseAny {α : Type} (hit : α → Bool) (reason : α → String) : List α → ConfigTransform Unit
  | [] => return ()
  | x :: xs => if hit x then throw (reason x) else refuseAny hit reason xs

section
variable (deps : MutateDeps)

/-! ## Bastions -/

inductive BastionAuthInput
  | password (p : String)
  | key (pem : Bytes) (passphrase : Option String)

structure BastionAddArgs where
  name : String
  host : String
  port : UInt16
  sshUser : String
  auth : BastionAuthInput
  fingerprint : Option HostKeyFingerprint

def addBastion (args : BastionAddArgs) : ConfigTransform Unit := do
  let cfg ← get
  if args.name ∈ cfg.bastions then
    throw ("bastion " ++ deps.debug args.name ++ " already exists")
  let auth := match args.auth with
    | .password p => BastionAuth.password p
    | .key pem passphrase => BastionAuth.key pem passphrase
  let bastion : Bastion :=
    { host := args.host, port := args.port, sshUser := args.sshUser, auth := auth,
      pinnedHostKeys := args.fingerprint.toList }
  set { cfg with bastions := cfg.bastions.insert args.name bastion }

def setFingerprint (name : String) (fingerprint : HostKeyFingerprint) : ConfigTransform Unit := do
  let cfg ← get
  match cfg.bastions[name]? with
  | none => throw ("bastion " ++ deps.debug name ++ " not found")
  | some b =>
    let pinned := { b with pinnedHostKeys := [fingerprint] }
    set { cfg with bastions := cfg.bastions.insert name pinned }

/-- The names of the environments that `refers` picks, in name order. -/
def usersOf (cfg : Config) (refers : Env → Bool) : List String :=
  (cfg.envs.toList.filter fun e => refers e.2).map Prod.fst

def rmBastion (name : String) : ConfigTransform Unit := do
  let cfg ← get
  let users := usersOf cfg fun e => e.bastion == some name
  if !users.isEmpty then
    throw ("bastion " ++ deps.debug name ++ " is still referenced by env(s): " ++
      ", ".intercalate users)
  set { cfg with bastions := cfg.bastions.erase name }
  if cfg.bastions[name]?.isNone then throw ("bastion " ++ deps.debug name ++ " not found")

/-! ## Credentials -/

def addCred (name backendUser password : String) : ConfigTransform Unit := do
  let cfg ← get
  if name ∈ cfg.credentials then
    throw ("credential " ++ deps.debug name ++ " already exists")
  set { cfg with credentials := cfg.credentials.insert name ⟨backendUser, password⟩ }

def rotateCred (name newPassword : String) : ConfigTransform Unit := do
  let cfg ← get
  match cfg.credentials[name]? with
  | none => throw ("credential " ++ deps.debug name ++ " not found")
  | some cred =>
    let rotated := { cred with backendPassword := newPassword }
    set { cfg with credentials := cfg.credentials.insert name rotated }

def rmCred (name : String) : ConfigTransform Unit := do
  let cfg ← get
  let users := usersOf cfg fun e => e.credential == name
  if !users.isEmpty then
    throw ("credential " ++ deps.debug name ++ " is still referenced by env(s): " ++
      ", ".intercalate users)
  set { cfg with credentials := cfg.credentials.erase name }
  if cfg.credentials[name]?.isNone then throw ("credential " ++ deps.debug name ++ " not found")

/-! ## Environments and their tokens -/

structure NewEnvOutput where
  token : String
  listenPort : UInt16
  engine : EngineKind
  database : Option String

structure EnvAddArgs where
  name : String
  backendHost : String
  backendPort : UInt16
  defaultDatabase : Option String
  bastion : Option String
  credential : String
  policy : Policy
  listenPort : Option UInt16
  maxPool : Option UInt32
  engine : EngineKind

def usedPorts (cfg : Config) : List UInt16 := cfg.envs.toList.map fun e => e.2.listenPort

/-- `(CLIENT_PORT_BASE..=CLIENT_PORT_END).find(|p| !used.contains(p))` -/
def pickFreePort (cfg : Config) : Option UInt16 :=
  ((List.range' clientPortBase (clientPortEnd + 1 - clientPortBase)).map UInt16.ofNat).find?
    fun p => !(usedPorts cfg).contains p

def choosePort (cfg : Config) (requested : Option UInt16) : ConfigTransform UInt16 :=
  match requested with
  | some p =>
    if (usedPorts cfg).contains p then
      throw ("port " ++ toString p.toNat ++ " is already in use by another env")
    else return p
  | none =>
    match pickFreePort cfg with
    | some p => return p
    | none => throw "no free listen port in 6033..=6064"

def EnvAddArgs.pool (args : EnvAddArgs) : PoolSettings :=
  let default : PoolSettings := {}
  match args.maxPool with
  | some n => { default with maxSize := n }
  | none => default

/-- The environment that `add_env` inserts. -/
def EnvAddArgs.env (args : EnvAddArgs) (token : String) (listenPort : UInt16) : Env where
  backendHost := args.backendHost
  backendPort := args.backendPort
  defaultDatabase := args.defaultDatabase
  bastion := args.bastion
  credential := args.credential
  policy := args.policy
  clientAuth := Token.clientAuthFor deps.hashes args.engine token
  listenPort := listenPort
  pool := args.pool
  engine := args.engine

/-- `raw` are the random bytes of the token. -/
def addEnv (raw : Bytes) (args : EnvAddArgs) : ConfigTransform NewEnvOutput := do
  if args.engine = .msSql then
    throw ("engine 'mssql' is not implemented yet (TDS protocol stub); " ++
      "supported engines: mysql, postgres")
  let cfg ← get
  if args.name ∈ cfg.envs then throw ("env " ++ deps.debug args.name ++ " already exists")
  if args.credential ∉ cfg.credentials then
    throw ("credential " ++ deps.debug args.credential ++ " not found")
  if let some b := args.bastion then
    if b ∉ cfg.bastions then throw ("bastion " ++ deps.debug b ++ " not found")
  let listenPort ← choosePort cfg args.listenPort
  let token := Token.generateToken raw
  set { cfg with envs := cfg.envs.insert args.name (args.env deps token listenPort) }
  return ⟨token, listenPort, args.engine, args.defaultDatabase⟩

def rmEnv (name : String) : ConfigTransform Unit := do
  let cfg ← get
  set { cfg with envs := cfg.envs.erase name }
  if cfg.envs[name]?.isNone then throw ("env " ++ deps.debug name ++ " not found")

def grantEnv (raw : Bytes) (name : String) : ConfigTransform NewEnvOutput := do
  let token := Token.generateToken raw
  let cfg ← get
  match cfg.envs[name]? with
  | none => throw ("env " ++ deps.debug name ++ " not found")
  | some env =>
    let granted := { env with clientAuth := Token.clientAuthFor deps.hashes env.engine token }
    set { cfg with envs := cfg.envs.insert name granted }
    return ⟨token, env.listenPort, env.engine, env.defaultDatabase⟩

/-! ## Policies -/

inductive PolicyTarget
  | readOnly
  | readWrite
deriving DecidableEq

def PolicyTarget.policy : PolicyTarget → Policy
  | .readOnly => .readOnly
  | .readWrite => .readWrite

def setPolicy (envName : String) (target : PolicyTarget) : ConfigTransform Unit := do
  let cfg ← get
  match cfg.envs[envName]? with
  | none => throw ("env " ++ deps.debug envName ++ " not found")
  | some env =>
    set { cfg with envs := cfg.envs.insert envName { env with policy := target.policy } }

/-! ## Imports -/

def collides (kind : String) (n : String) : String :=
  kind ++ " " ++ deps.debug n ++ " already exists in target config"

/-- On a name that both tables have, the fragment's entry would win. -/
def mergeImport (fragment : Config) : ConfigTransform Unit := do
  let existing ← get
  refuseAny (· ∈ existing.bastions) (collides deps "bastion") fragment.bastions.keys
  refuseAny (· ∈ existing.credentials) (collides deps "credential") fragment.credentials.keys
  refuseAny (· ∈ existing.envs) (collides deps "env") fragment.envs.keys
  let used := usedPorts existing
  refuseAny (used.contains ·)
    (fun p => "listen port " ++ toString p.toNat ++
      " collides with an existing env; clear the target first") (usedPorts fragment)
  set { existing with
    bastions := existing.bastions ∪ fragment.bastions
    credentials := existing.credentials ∪ fragment.credentials
    envs := existing.envs ∪ fragment.envs }

end
end MiddleWhere.Mutate
