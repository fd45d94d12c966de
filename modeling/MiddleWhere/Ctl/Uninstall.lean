import MiddleWhere.Core.Keystore

/-!
# Tearing a deployment down

`uninstall` clears the state directory and then deletes the key store's entry: never the master
key while the sealed configuration it protects still exists. A key that is a file of the state
directory goes with the directory, in whatever order the directory lists its entries.
-/

namespace MiddleWhere.Ctl
open Prog Store

inductive IoError
  | notFound
  | other (reason : String)
deriving DecidableEq

def IoError.display : IoError → String
  | .notFound => "not found"
  | .other reason => reason

structure UninstallOpts where
  stateDir : Option String
  user : Bool
  fileKeystore : Bool
  serviceName : String
  yes : Bool
  purgeAudit : Bool
  uac : Bool

/-- What a process finds in its environment. -/
structure Host where
  defaultStateDir : String
  defaultUserStateDir : String
  needsServiceElevation : Bool → Bool

/-- `readDir` answers the names that were read and what ended the reading, if it was not the end. -/
inductive CtlOp
  | probe (path : Path)
  | probeDir (dir : String)
  | readDir (dir : String)
  | isDir (path : Path)
  | removeFile (path : Path)
  | removeTree (path : Path)
  | removeDir (dir : String)
  | deleteCredential (service account : String)
  | isTerminal
  | confirm
  | uninstallService (name : String)
  | elevate (forward : UninstallOpts)

abbrev CtlOp.Res : CtlOp → Type
  | .probe _ | .probeDir _ | .isDir _ | .isTerminal => Bool
  | .readDir _ => Except IoError (List String × Option IoError)
  | .removeFile _ | .removeTree _ | .removeDir _ => Except IoError Unit
  | .deleteCredential _ _ => Except KeyringError Unit
  | .confirm => Except String Bool
  | .uninstallService _ | .elevate _ => Except String Unit

abbrev ctlSig : Sig := ⟨CtlOp, CtlOp.Res⟩

abbrev CtlProg := Prog ctlSig String

def ask (o : CtlOp) : CtlProg o.Res := perform (S := ctlSig) o

def orIo {α : Type} (r : Except IoError α) : CtlProg α := ofExcept (r.mapError IoError.display)

def withContext {α : Type} (context : String) (p : CtlProg α) : CtlProg α :=
  p.mapErr fun e => context ++ ": " ++ e

/-! ## Which deployment -/

/-- `[a-z_][a-z0-9_-]*`, at most 32 bytes. -/
def validateServiceName (name : String) : Except String Unit :=
  let bytes := Str.asBytes name
  let lower (b : UInt8) := 0x61 ≤ b && b ≤ 0x7A
  let digit (b : UInt8) := 0x30 ≤ b && b ≤ 0x39
  if bytes.length ≤ 32 ∧ bytes.head?.any (fun b => lower b || b == 0x5F) = true ∧
      bytes.all (fun b => lower b || digit b || b == 0x5F || b == 0x2D) = true then .ok ()
  else .error ("invalid --service-name " ++ name.quote ++ ": use a short lowercase name " ++
    "matching [a-z_][a-z0-9_-]* (e.g. 'mwsqld')")

def shouldUseLegacyUserDir (systemDir : String) (systemHasConfig : Bool) (legacyDir : String)
    (legacyHasConfig : Bool) : Bool :=
  legacyDir != systemDir && !systemHasConfig && legacyHasConfig

variable (host : Host)

/-- The target that the flags name. -/
def flagTarget (opts : UninstallOpts) : String × KeystoreChoice :=
  let dir := opts.stateDir.getD
    (if opts.user then host.defaultUserStateDir else host.defaultStateDir)
  (dir, if opts.user && !opts.fileKeystore then .defaultOs else .defaultFile dir)

def resolveCliTarget (opts : UninstallOpts) : CtlProg (String × KeystoreChoice) := do
  if opts.stateDir.isNone && !opts.user then
    let system := host.defaultStateDir
    let legacy := host.defaultUserStateDir
    let systemHasConfig ← ask (.probe (sealedPath system))
    let legacyHasConfig ← ask (.probe (sealedPath legacy))
    if shouldUseLegacyUserDir system systemHasConfig legacy legacyHasConfig then
      if ← ask (.probe (masterKeyPath legacy)) then return (legacy, .defaultFile legacy)
      else return (legacy, .defaultOs)
    else return flagTarget host opts
  else return flagTarget host opts

def isOs : KeystoreChoice → Bool
  | .os _ _ => true
  | .file _ => false

def isSystemStateDir (stateDir systemDir userDir : String) : Bool :=
  !(userDir != systemDir && stateDir == userDir)

def isSystemService (user : Bool) (stateDir : String) (ks : KeystoreChoice) : Bool :=
  !user && !isOs ks && isSystemStateDir stateDir host.defaultStateDir host.defaultUserStateDir

/-- The flags of the elevated process. The one relaunched by UAC has `--uac` added. -/
def forwardedArgs (opts : UninstallOpts) (yes : Bool) (resolvedStateDir : String)
    (ks : KeystoreChoice) : UninstallOpts where
  stateDir := some resolvedStateDir
  user := false
  fileKeystore := !isOs ks
  serviceName := opts.serviceName
  yes := yes
  purgeAudit := opts.purgeAudit
  uac := false

/-! ## The removal -/

def removeEntry (path : Path) : CtlProg Unit := do
  if ← ask (.isDir path) then orIo (← ask (.removeTree path))
  else orIo (← ask (.removeFile path))

def forEntries (remove : String → CtlProg Unit) : List String → CtlProg Unit
  | [] => pure ()
  | name :: rest => do
    remove name
    forEntries remove rest

def forListing (remove : String → CtlProg Unit) (listing : List String × Option IoError) :
    CtlProg Unit := do
  forEntries remove listing.1
  orIo (listing.2.elim (.ok ()) .error)

/-- `std::fs::remove_dir_all` of the state directory: its entries in the order of the listing,
then the directory. -/
def removeDirAll (dir : String) : CtlProg Unit := do
  let listing ← orIo (← ask (.readDir dir))
  forListing (fun name => removeEntry ⟨dir, name⟩) listing
  orIo (← ask (.removeDir dir))

inductive Removal
  | absent
  | full
  | preservedAudit

def removeUnlessAudit (dir name : String) : CtlProg Unit :=
  if name = "audit" then pure ()
  else withContext ("remove " ++ (⟨dir, name⟩ : Path).display) (removeEntry ⟨dir, name⟩)

def keepsAudit (dir : String) (purgeAudit : Bool) : CtlProg Bool :=
  if purgeAudit then pure false else ask (.probe ⟨dir, "audit"⟩)

def removeStateDir (dir : String) (purgeAudit : Bool) : CtlProg Removal := do
  if ← ask (.probeDir dir) then
    if ← keepsAudit dir purgeAudit then
      let listing ← withContext ("read " ++ dir) (do orIo (← ask (.readDir dir)))
      forListing (removeUnlessAudit dir) listing
      return .preservedAudit
    else
      withContext ("remove " ++ dir) (removeDirAll dir)
      return .full
  else return .absent

def deleteKey : KeystoreChoice → CtlProg (Except KeyringError Unit)
  | .os service account => ask (.deleteCredential service account)
  | .file path => do
    match ← ask (.removeFile path) with
    | .ok _ => return .ok ()
    | .error .notFound => return .error .notFound
    | .error e => return .error (.io e.display)

/-- A key that is already gone is not an error. -/
def delete (ks : KeystoreChoice) : CtlProg Unit := do
  match ← deleteKey ks with
  | .ok _ | .error .notFound => return
  | .error e => fail ("delete master key: " ++ e.display)

def confirmed (opts : UninstallOpts) : CtlProg Bool := do
  if opts.yes then return true
  else if ← ask .isTerminal then ofExcept (← ask .confirm)
  else fail "refusing to uninstall without confirmation; pass --yes"

def stopService (systemService : Bool) (name : String) : CtlProg Unit := do
  if systemService then ofExcept (← ask (.uninstallService name)) else return

def teardown (opts : UninstallOpts) (systemService : Bool) (stateDir : String)
    (ks : KeystoreChoice) : CtlProg Unit := do
  stopService systemService opts.serviceName
  let _ ← removeStateDir stateDir opts.purgeAudit
  delete ks

/-- The service name matters to the service mode only. -/
def nameCheck (opts : UninstallOpts) : Except String Unit :=
  if opts.user then .ok () else validateServiceName opts.serviceName

def clearTarget (opts : UninstallOpts) (target : String × KeystoreChoice) : CtlProg Unit := do
  let (stateDir, ks) := target
  let systemService := isSystemService host opts.user stateDir ks
  if ← confirmed opts then
    if systemService && host.needsServiceElevation opts.uac then
      ofExcept (← ask (.elevate (forwardedArgs opts true stateDir ks)))
    else teardown opts systemService stateDir ks
  else return

def run (opts : UninstallOpts) : CtlProg Unit := do
  ofExcept (nameCheck opts)
  let target ← resolveCliTarget host opts
  clearTarget host opts target

/-! ## What the steps do -/

/-- The names in a directory, in the order in which it lists them. -/
structure Listing where
  names : List String
  nodup : names.Nodup

def Listing.without (l : Listing) (name : String) : Listing :=
  ⟨l.names.filter (· ≠ name), l.nodup.filter _⟩

/-- A directory is `hidden` where the process may not look into it: nothing in it can be found,
and nothing in it can be removed. -/
structure Machine where
  dirs : String → Option Listing
  hidden : String → Bool
  isDirectory : Path → Bool
  credentials : String × String → Bool

namespace Machine

variable (m : Machine)

def names (dir : String) : List String := (m.dirs dir).elim [] Listing.names

/-- `exists`. -/
def found (path : Path) : Bool := !m.hidden path.dir && decide (path.name ∈ m.names path.dir)

def without (path : Path) : Machine :=
  { m with dirs := Function.update m.dirs path.dir ((m.dirs path.dir).map (·.without path.name)) }

def withoutDir (dir : String) : Machine := { m with dirs := Function.update m.dirs dir none }

def withoutCredential (service account : String) : Machine :=
  { m with credentials := Function.update m.credentials (service, account) false }

end Machine

/-- Every step may fail, and one that fails removes nothing. A directory is removed when it is
empty. The elevated process leaves what `elevated` says. -/
def ctlSem (elevated : UninstallOpts → Machine → Machine → Prop) : Sem ctlSig Machine
  | m, .probe path, found, m' => m' = m ∧ found = m.found path
  | m, .probeDir dir, found, m' => m' = m ∧ found = (!m.hidden dir && (m.dirs dir).isSome)
  | m, .readDir dir, .ok listing, m' => m' = m ∧ m.hidden dir = false ∧
    listing.1 <+: m.names dir ∧ (listing.2 = none → listing.1 = m.names dir)
  | m, .removeFile path, .ok _, m' =>
    m.found path = true ∧ m.isDirectory path = false ∧ m' = m.without path
  | m, .removeFile path, .error e, m' => m' = m ∧ (e = .notFound → path.name ∉ m.names path.dir)
  | m, .removeTree path, .ok _, m' => m.found path = true ∧ m' = m.without path
  | m, .removeDir dir, .ok _, m' => m.hidden dir = false ∧ m.names dir = [] ∧ m' = m.withoutDir dir
  | m, .isDir path, found, m' => m' = m ∧ found = m.isDirectory path
  | m, .deleteCredential service account, .ok _, m' =>
    m.credentials (service, account) = true ∧ m' = m.withoutCredential service account
  | m, .elevate forward, _, m' => elevated forward m m'
  | m, _, _, m' => m' = m

/-- The elevated process may be cut off anywhere. It finds an environment of its own, where it
need not elevate again. -/
def Elevated (forward : UninstallOpts) (m m' : Machine) : Prop :=
  ∃ host uac t, (∀ relaunched, host.needsServiceElevation relaunched = false) ∧
    Stops (ctlSem fun _ m m' => m' = m) (run host { forward with uac := uac }) m t m'

def uninstallSem : Sem ctlSig Machine := ctlSem Elevated

/-! ## What must not happen -/

/-- The target that is resolved on this machine. -/
def resolved (opts : UninstallOpts) (m : Machine) : String × KeystoreChoice :=
  let system := host.defaultStateDir
  let legacy := host.defaultUserStateDir
  if opts.stateDir.isNone && !opts.user && shouldUseLegacyUserDir system
      (m.found (sealedPath system)) legacy (m.found (sealedPath legacy)) then
    (legacy, if m.found (masterKeyPath legacy) then .defaultFile legacy else .defaultOs)
  else flagTarget host opts

def dataNames : List String := ["config.sealed", "config.sealed.bak"]

/-- The sealed configuration or its backup is still in the directory. -/
def DataLeft (m : Machine) (dir : String) : Prop := ∃ name ∈ dataNames, name ∈ m.names dir

/-- The key store still holds the key it held. -/
def KeyLeft (m : Machine) : KeystoreChoice → Prop
  | .os service account => m.credentials (service, account) = true
  | .file path => path.name ∈ m.names path.dir

/-- At no point of `uninstall` is the key that opens the sealed data of its target gone while the
data is still there. The key is kept in the key store `kept`. -/
def KeyOutlivesData (opts : UninstallOpts) (m : Machine) (kept : KeystoreChoice) : Prop :=
  KeyLeft m kept → always uninstallSem (run host opts)
    (fun _ m' => DataLeft m' (resolved host opts m).1 → KeyLeft m' kept) m

/-- The listing has the master key before the sealed configuration or before its backup. -/
def KeyListedFirst (names : List String) : Prop :=
  ∃ name ∈ dataNames, name ∈ names.dropWhile (· ≠ "master.key")

instance (names : List String) : Decidable (KeyListedFirst names) :=
  inferInstanceAs (Decidable (∃ name ∈ dataNames, _))

/-- Either the key is a file of the directory and listed before the data, or it is an entry of the
operating system's key store and the directory cannot be looked into. -/
def KeyEndangered (opts : UninstallOpts) (m : Machine) (kept : KeystoreChoice) : Prop :=
  let (dir, ks) := resolved host opts m
  nameCheck opts = .ok () ∧
    ((kept = .defaultFile dir ∧ m.hidden dir = false ∧ KeyListedFirst (m.names dir)) ∨
      (ks = .defaultOs ∧ kept = .defaultOs ∧ m.hidden dir = true ∧ DataLeft m dir ∧ KeyLeft m kept))

end MiddleWhere.Ctl
