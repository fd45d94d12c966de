import Mathlib

/-!
# The normalized configuration

Bastions, credentials and environments are independent tables referenced by name. A table
is an ordered map from names. `validate` checks the references, the listen ports and the
pairing of engine and client authentication, environment by environment in name order, and
reports the first defect it meets.
-/

namespace MiddleWhere

/-- `BTreeMap<String, _>`. -/
abbrev Table (α : Type) := Std.ExtTreeMap String α compare

abbrev Bytes := List UInt8

def currentSchemaVersion : UInt32 := 2

inductive EngineKind
  | mySql | postgres | msSql
deriving DecidableEq

def EngineKind.defaultPort : EngineKind → UInt16
  | .mySql => 3306
  | .postgres => 5432
  | .msSql => 1433

inductive Policy
  | readOnly
  | readWrite
  | custom (allowDml allowDdl allowAdmin : Bool)
deriving DecidableEq

inductive BastionAuth
  | password (password : String)
  | key (privateKeyPem : Bytes) (passphrase : Option String)
deriving DecidableEq

structure HostKeyFingerprint where
  algo : String
  sha256B64 : String
deriving DecidableEq

structure Bastion where
  host : String
  port : UInt16
  sshUser : String
  auth : BastionAuth
  pinnedHostKeys : List HostKeyFingerprint
deriving DecidableEq

structure Credential where
  backendUser : String
  backendPassword : String
deriving DecidableEq

/-- What the proxy stores to verify a client: SHA1(SHA1(token)) or SHA-256(token). -/
inductive ClientAuth
  | nativePassword (doubleSha1 : Bytes)
  | pgCleartext (sha256 : Bytes)
deriving DecidableEq

structure PoolSettings where
  maxSize : UInt32 := 16
  idleTimeoutSecs : UInt32 := 300
deriving DecidableEq

structure Env where
  backendHost : String
  backendPort : UInt16
  defaultDatabase : Option String
  bastion : Option String
  credential : String
  policy : Policy
  clientAuth : ClientAuth
  listenPort : UInt16
  pool : PoolSettings
  engine : EngineKind
deriving DecidableEq

structure Config where
  schemaVersion : UInt32 := currentSchemaVersion
  bastions : Table Bastion := ∅
  credentials : Table Credential := ∅
  envs : Table Env := ∅
deriving DecidableEq

inductive ConfigError
  | unknownBastion (name : String)
  | unknownCredential (name : String)
  | duplicateListenPort (port : UInt16) (first second : String)
  | unsupportedSchema (version : UInt32)
  | engineAuthMismatch (env : String) (engine : EngineKind)
  | migrate (reason : String)
deriving DecidableEq

/-- MsSql is a stub that the daemon refuses at bind, so any placeholder is tolerated. -/
def authMatches : EngineKind → ClientAuth → Bool
  | .mySql, .nativePassword _ => true
  | .postgres, .pgCleartext _ => true
  | .msSql, _ => true
  | _, _ => false

namespace Config

/-- The checks of `validate` on one environment that look at no other environment. -/
def checkEnv (cfg : Config) (name : String) (env : Env) : Except ConfigError Unit := do
  if let some b := env.bastion then
    unless b ∈ cfg.bastions do throw (.unknownBastion b)
  unless env.credential ∈ cfg.credentials do throw (.unknownCredential env.credential)
  unless authMatches env.engine env.clientAuth do throw (.engineAuthMismatch name env.engine)

/-- The loop of `validate`; `seenPorts` maps a listen port to the environment that has it. -/
def checkEnvs (cfg : Config) : List (String × Env) → List (UInt16 × String) →
    Except ConfigError Unit
  | [], _ => .ok ()
  | (name, env) :: rest, seenPorts => do
    checkEnv cfg name env
    match seenPorts.lookup env.listenPort with
    | some prev => throw (.duplicateListenPort env.listenPort prev name)
    | none => checkEnvs cfg rest ((env.listenPort, name) :: seenPorts)

def validate (cfg : Config) : Except ConfigError Unit :=
  if cfg.schemaVersion ≠ currentSchemaVersion then .error (.unsupportedSchema cfg.schemaVersion)
  else checkEnvs cfg cfg.envs.toList []

def Valid (cfg : Config) : Prop := cfg.validate = .ok ()

instance (cfg : Config) : Decidable cfg.Valid := inferInstanceAs (Decidable (_ = _))

theorem schemaVersion_of_valid {cfg : Config} (h : cfg.Valid) :
    cfg.schemaVersion = currentSchemaVersion := by
  unfold Valid validate at h
  by_contra hne
  rw [if_pos hne] at h
  cases h

end Config
end MiddleWhere
