import MiddleWhere.Core.Token
import MiddleWhere.Core.State
import MiddleWhere.Daemon.Handlers

/-!
# Importing a legacy deployment

A legacy deployment is a directory with a `.env` file and a directory `secrets`. The names of its
bastions, environments and files of secrets come from the keys of `.env`, a text that nobody
vouches for. Bastions and credentials are imported under lower-cased names, environments under
their own.
-/

namespace MiddleWhere.Ctl.Import
open Prog Store

/-- Text and digest functions of the libraries. -/
structure Library where
  toLowercase : String → String
  toUppercase : String → String
  base64Decode : String → Option Bytes
  base64NoPad : Bytes → String
  hashes : Token.Hashes

/-! ## The text of `.env` -/

/-- `BTreeMap<String, String>`. -/
abbrev Vars := Table String

def stripPrefix (pre s : String) : Option String :=
  if pre.toList <+: s.toList then some (String.ofList (s.toList.drop pre.toList.length)) else none

def stripSuffix (suffix s : String) : Option String :=
  if suffix.toList <:+ s.toList then
    some (String.ofList (s.toList.take (s.toList.length - suffix.toList.length)))
  else none

def trimmed (s : String) : String := String.ofList (Str.trim s.toList)

/-- `split_once('=')` -/
def splitOnce (s : String) : Option (String × String) :=
  if '=' ∈ s.toList then
    some (String.ofList (s.toList.takeWhile (· ≠ '=')),
      String.ofList ((s.toList.dropWhile (· ≠ '=')).drop 1))
  else none

/-- The value is between two quotes of this kind. A single quote is not between two. -/
def quotedBy (q : Char) (v : String) : Bool :=
  2 ≤ v.toList.length && v.toList.head? == some q && v.toList.getLast? == some q

def unquoted (v : String) : String :=
  if quotedBy '"' v || quotedBy '\'' v then String.ofList (v.toList.drop 1).dropLast else v

def parseLine (raw : String) : Option (String × String) :=
  let line := trimmed raw
  if line = "" ∨ line.toList.head? = some '#' then none
  else do
    let (k, v) ← splitOnce ((stripPrefix "export " line).getD line)
    if trimmed k = "" then none else some (trimmed k, unquoted (trimmed v))

/-- Of two lines with one key the later counts. -/
def parseEnv (text : String) : Vars :=
  ((Daemon.lines text).filterMap parseLine).foldl (fun m kv => m.insert kv.1 kv.2) ∅

example : (parseEnv "# db\nexport DB_HOST=\"h=1\"\r\n DB_USER = 'u' \nnothing\n=x")["DB_HOST"]? =
    some "h=1" := by decide

/-- An unsigned number of at most `max`: digits, after a sign `+` if there is one. -/
def parseUnsigned (max : ℕ) (s : String) : Option ℕ :=
  let digits := match s.toList with
    | '+' :: rest => rest
    | cs => cs
  if digits ≠ [] ∧ digits.all Char.isDigit = true then
    let n := digits.foldl (fun n c => 10 * n + (c.toNat - 48)) 0
    if n ≤ max then some n else none
  else none

/-! ## The names -/

def sortedNames (names : List String) : List String := (names.insertionSort (· ≤ ·)).dedup

def bastionNames (vars : Vars) : List String :=
  sortedNames (vars.keys.filterMap fun k =>
    (stripPrefix "BASTION_" k).bind (stripSuffix "_HOST"))

def envNames (vars : Vars) : List String :=
  sortedNames (((vars.keys.filterMap (stripSuffix "_HOST")).filter fun p =>
    (stripPrefix "BASTION_" p).isNone).filter fun p => vars.contains (p ++ "_HOST"))

/-! ## The directory -/

inductive ImportOp
  | readToString (path : Path)
  | read (path : Path)
  | fillBytes (len : ℕ)

abbrev ImportOp.Res : ImportOp → Type
  | .readToString _ => Except String String
  | .read _ => Except String Bytes
  | .fillBytes _ => Bytes

abbrev importSig : Sig := ⟨ImportOp, ImportOp.Res⟩

abbrev ImportProg := Prog importSig String

def ask (o : ImportOp) : ImportProg o.Res := perform (S := importSig) o

def orContext {α : Type} (context : String) (r : Except String α) : ImportProg α :=
  ofExcept (r.mapError fun e => context ++ ": " ++ e)

/-- `ok_or_else(..)?` -/
def orFail {α : Type} (e : String) : Option α → ImportProg α
  | some a => pure a
  | none => fail e

def unwrap {α : Type} : Option α → ImportProg α
  | some a => pure a
  | none => .halt .panic

def hasSeparator (name : String) : Bool := name.toList.any fun c => c == '/' || c == '\\'

/-- A name that has `..` between separators has a separator, unless it is `..`. -/
def refusedName (name : String) : Bool :=
  name == "" || hasSeparator name ||
    (name.toList.splitOnP fun c => c == '/' || c == '\\').any (· == ['.', '.']) ||
    name.toList.head? == some '/'

def trimEndOfLine (s : String) : String :=
  String.ofList (s.toList.reverse.dropWhile fun c => c == '\n' || c == '\r').reverse

def readSecretFile (secrets name : String) : ImportProg String :=
  if refusedName name then
    fail ("refusing secret name " ++ name.quote ++ ": must be a plain filename")
  else do
    let path : Path := ⟨secrets, name⟩
    let s ← orContext ("read secret " ++ path.display) (← ask (.readToString path))
    return trimEndOfLine s

section
variable (lib : Library)

def splitWhitespace (s : String) : List String :=
  ((s.toList.splitOnP Str.isWhitespace).filter (· ≠ [])).map String.ofList

/-- A line of `known_hosts`: hosts, key type, key. -/
def fingerprintOf (lineNo : ℕ) (raw : String) : Option (HostKeyFingerprint ⊕ String) :=
  let line := trimmed raw
  if line = "" ∨ line.toList.head? = some '#' then none
  else match splitWhitespace line with
    | _ :: algo :: blob :: _ =>
      match lib.base64Decode blob with
      | some wire => some (.inl ⟨algo, lib.base64NoPad (lib.hashes.sha256 wire)⟩)
      | none => some (.inr ("known_hosts line " ++ toString lineNo ++ " bad base64; skipped"))
    | _ => some (.inr ("known_hosts line " ++ toString lineNo ++ " malformed; skipped"))

def fingerprintsFromKnownHosts (text : String) : List HostKeyFingerprint × List String :=
  let found := (Daemon.lines text).zipIdx.filterMap fun (raw, i) => fingerprintOf lib (i + 1) raw
  (found.filterMap Sum.getLeft?, found.filterMap Sum.getRight?)

structure ImportReport where
  bastions : List String := []
  credentials : List String := []
  envs : List (String × UInt16) := []
  warnings : List String := []

/-! ## Bastions -/

variable (vars : Vars) (secrets : String)

def bastionVar (up field : String) : Option String := vars["BASTION_" ++ up ++ "_" ++ field]?

def authKind (up : String) : String := (bastionVar vars up "SSH_AUTH").getD "password"

def bastionAuth (lc kind : String) : ImportProg BastionAuth :=
  if kind = "key" then do
    let pem ← orContext ("read bastion_" ++ lc ++ "_key")
      (← ask (.read ⟨secrets, "bastion_" ++ lc ++ "_key"⟩))
    return .key pem none
  else do
    let pw ← readSecretFile secrets ("bastion_" ++ lc ++ "_password")
    return .password pw

def unusableWarning (lc : String) : String := "bastion " ++ lc ++ ": no usable pinned host keys. " ++
  "The daemon will REFUSE this bastion until you add a pinned fingerprint, unless started with " ++
  "--allow-tofu (insecure)."

def unpinnedWarning (lc : String) : String := "bastion " ++ lc ++ ": no known_hosts file, host key " ++
  "UNPINNED. The daemon will REFUSE this bastion until pinned, unless started with --allow-tofu " ++
  "(insecure)."

def pinnedHostKeys (lc : String) : ImportProg (List HostKeyFingerprint × List String) := do
  match ← ask (.readToString ⟨secrets, "bastion_" ++ lc ++ "_known_hosts"⟩) with
  | .ok kh =>
    let (fps, warns) := fingerprintsFromKnownHosts lib kh
    return (fps, if fps.isEmpty then warns ++ [unusableWarning lc] else warns)
  | .error _ => return ([], [unpinnedWarning lc])

def bastionPort (up : String) : UInt16 :=
  UInt16.ofNat (((bastionVar vars up "PORT").bind (parseUnsigned 65535)).getD 22)

def bastionOf (up host : String) (auth : BastionAuth) (pinned : List HostKeyFingerprint) : Bastion where
  host := host
  port := bastionPort vars up
  sshUser := (bastionVar vars up "USER").getD ""
  auth := auth
  pinnedHostKeys := pinned

def addBastion (lc : String) (bastion : Bastion) (warns : List String)
    (state : Config × ImportReport) : Config × ImportReport :=
  ({ state.1 with bastions := state.1.bastions.insert lc bastion },
    { state.2 with
      bastions := state.2.bastions ++ [lc]
      warnings := state.2.warnings ++ warns })

def importBastion (up : String) (state : Config × ImportReport) :
    ImportProg (Config × ImportReport) := do
  let lc := lib.toLowercase up
  let host ← orFail ("BASTION_" ++ up ++ "_HOST missing") (bastionVar vars up "HOST")
  let auth ← bastionAuth secrets lc (authKind vars up)
  let pinned ← pinnedHostKeys lib secrets lc
  return addBastion lc (bastionOf vars up host auth pinned.1) pinned.2 state

def importBastions : List String → Config × ImportReport → ImportProg (Config × ImportReport)
  | [], state => pure state
  | up :: rest, state => do
    let state ← importBastion lib vars secrets up state
    importBastions rest state

/-! ## Environments -/

/-- Where an environment's login comes from: the name of its credential, the user and the file of
the password. -/
def envLogin (envUp : String) : Except String (String × String × String) :=
  let envLc := lib.toLowercase envUp
  match vars[envUp ++ "_USER"]? with
  | some user => .ok (envLc, user, envLc ++ "_password")
  | none =>
    match vars[envUp ++ "_CREDENTIALS"]? with
    | none => .error ("env " ++ envLc ++ ": no inline " ++ envUp ++ "_USER and no " ++ envUp ++
        "_CREDENTIALS")
    | some key =>
      let keyUp := lib.toUppercase key
      let keyLc := lib.toLowercase key
      match vars[keyUp ++ "_USER"]? with
      | some user => .ok (keyLc, user, keyLc ++ "_password")
      | none => .error ("env " ++ envLc ++ ": " ++ envUp ++ "_CREDENTIALS=" ++ key ++ " but " ++
          keyUp ++ "_USER unset")

/-- `best` with one more candidate: only a longer one is better. -/
def better (envUp : String) (best : Option String) (up : String) : Option String :=
  if (stripPrefix (up ++ "_") (envUp ++ "_")).isSome && best.all (fun b => Str.len b < Str.len up) then
    some up
  else best

def longestPrefix (names : List String) (envUp : String) : Option String :=
  names.foldl (better envUp) none

def envBastion (bastions : Table Bastion) (names : List String) (envUp : String) :
    Except String (Option String) :=
  match vars[envUp ++ "_BASTION"]? with
  | some explicit =>
    if explicit = "direct" ∨ explicit = "none" then .ok none
    else if lib.toLowercase explicit ∈ bastions then .ok (some (lib.toLowercase explicit))
    else .error ("env " ++ lib.toLowercase envUp ++ ": " ++ envUp ++ "_BASTION=" ++ explicit ++
      " but no such bastion imported")
  | none => .ok ((longestPrefix names envUp).map lib.toLowercase)

def maxConnections (envUp : String) : Option ℕ :=
  (vars[envUp ++ "_MAX_CONNECTIONS"]?.or ((vars[envUp ++ "_CREDENTIALS"]?).bind fun key =>
    vars[lib.toUppercase key ++ "_MAX_CONNECTIONS"]?)).bind (parseUnsigned (2 ^ 32 - 1))

def clientPortBase : ℕ := 6033

/-- `CLIENT_PORT_BASE + idx as u16`. Where it overflows, a build with overflow checks panics and one
without wraps. -/
def listenPort (overflowChecks : Bool) (idx : ℕ) : ImportProg UInt16 :=
  let sum := clientPortBase + idx % 2 ^ 16
  if overflowChecks && decide (2 ^ 16 ≤ sum) then .halt .panic else pure (UInt16.ofNat sum)

def addCredential (name : String) (credential : Credential) (state : Config × ImportReport) :
    Config × ImportReport :=
  ({ state.1 with credentials := state.1.credentials.insert name credential },
    { state.2 with credentials := state.2.credentials ++ [name] })

/-- The first login of a name is the one that is imported. -/
def importCredential (login : String × String × String) (state : Config × ImportReport) :
    ImportProg (Config × ImportReport) := do
  let (name, user, file) := login
  if name ∈ state.1.credentials then return state
  else
    let pw ← readSecretFile secrets file
    return addCredential name ⟨user, pw⟩ state

def envOf (envUp host : String) (bastion : Option String) (credential : String) (port : UInt16)
    (token : String) : Env where
  backendHost := host
  backendPort := UInt16.ofNat ((vars[envUp ++ "_PORT"]?.bind (parseUnsigned 65535)).getD 3306)
  defaultDatabase := none
  bastion := bastion
  credential := credential
  policy := .readOnly
  clientAuth := Token.clientAuthFor lib.hashes .mySql token
  listenPort := port
  pool := match maxConnections lib vars envUp with
    | some m => { maxSize := UInt32.ofNat m }
    | none => {}
  engine := .mySql

def addEnv (envUp : String) (env : Env) (state : Config × ImportReport) : Config × ImportReport :=
  ({ state.1 with envs := state.1.envs.insert envUp env },
    { state.2 with envs := state.2.envs ++ [(envUp, env.listenPort)] })

def importEnv (overflowChecks : Bool) (names : List String) (idx : ℕ) (envUp : String)
    (state : Config × ImportReport) : ImportProg (Config × ImportReport) := do
  let host ← unwrap vars[envUp ++ "_HOST"]?
  let login ← ofExcept (envLogin lib vars envUp)
  let state ← importCredential secrets login state
  let bastion ← ofExcept (envBastion lib vars state.1.bastions names envUp)
  let port ← listenPort overflowChecks idx
  let raw ← ask (.fillBytes Token.tokenRandBytes)
  let token := Token.generateToken raw
  return addEnv envUp (envOf lib vars envUp host bastion login.1 port token) state

def importEnvs (overflowChecks : Bool) (names : List String) :
    ℕ → List String → Config × ImportReport → ImportProg (Config × ImportReport)
  | _, [], state => pure state
  | idx, envUp :: rest, state => do
    let state ← importEnv lib vars secrets overflowChecks names idx envUp state
    importEnvs overflowChecks names (idx + 1) rest state

def envPath (dir : String) : Path := ⟨dir, ".env"⟩
def secretsDir (dir : String) : String := dir ++ "/secrets"

def importVars (overflowChecks : Bool) (dir : String) : ImportProg (Config × ImportReport) := do
  let names := bastionNames vars
  let state ← importBastions lib vars secrets names ({}, {})
  let envs := envNames vars
  if envs = [] then
    fail ("no envs found in " ++ (envPath dir).display ++ " (need at least one <NAME>_HOST)")
  else
    let (cfg, report) ← importEnvs lib vars secrets overflowChecks names 0 envs state
    ofExcept (cfg.validate.mapError fun _ => "imported config failed validation")
    return (cfg, report)

end

def buildFromDir (lib : Library) (overflowChecks : Bool) (dir : String) :
    ImportProg (Config × ImportReport) := do
  let text ← orContext ("read " ++ (envPath dir).display) (← ask (.readToString (envPath dir)))
  importVars lib (parseEnv text) (secretsDir dir) overflowChecks dir

/-! ## What the steps do -/

/-- `read_to_string` accepts UTF-8 only. -/
def fromUtf8 (bytes : Bytes) : Except String String :=
  let s := Str.fromUtf8Lossy bytes
  if Str.asBytes s = bytes then .ok s else .error "stream did not contain valid UTF-8"

/-- The files do not change meanwhile. The state is what has been read so far. -/
def fileSem (files : Path → Except String Bytes) : Sem importSig (List Path)
  | s, .readToString path, r, s' => r = (files path).bind fromUtf8 ∧ s' = s ++ [path]
  | s, .read path, r, s' => r = files path ∧ s' = s ++ [path]
  | s, .fillBytes len, bytes, s' => bytes.length = len ∧ s' = s

end MiddleWhere.Ctl.Import
