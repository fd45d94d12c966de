import MiddleWhere.Core.Seal
import MiddleWhere.Effects.Disk

/-!
# The sealed store

Load, save and the load-mutate-save harness, as programs over a disk, a key source and a
random generator, each of whose steps may fail. The save keeps one backup: it renames the
sealed file away before it writes and renames the new one in, and the load knows nothing
of the backup. `saveConfig_cut` is the one lemma about the save: which blob a cut leaves
under the sealed name, in terms of the two renames.
-/

namespace MiddleWhere.Store
open Prog

structure Path where
  dir : String
  name : String
deriving DecidableEq

def Path.display (p : Path) : String := p.dir ++ "/" ++ p.name

def sealedPath (stateDir : String) : Path := ⟨stateDir, "config.sealed"⟩
def backupPath (stateDir : String) : Path := ⟨stateDir, "config.sealed.bak"⟩
def tmpPath (parent : String) : Path := ⟨parent, "config.sealed.tmp"⟩

inductive StateError
  | io (context reason : String)
  | keystore (reason : String)
  | sealing (e : SealError)
  | config (e : ConfigError)
  | refused (reason : String)
deriving DecidableEq

inductive StoreOp
  | disk (o : DiskOp Path)
  | loadKey
  | fillBytes (len : ℕ)

abbrev StoreOp.Res : StoreOp → Type
  | .disk o => o.Res
  | .loadKey => Except String MasterKey
  | .fillBytes _ => Bytes

abbrev storeSig : Sig := ⟨StoreOp, StoreOp.Res⟩

abbrev StoreProg := Prog storeSig StateError

def disk (o : DiskOp Path) : StoreProg o.Res := perform (S := storeSig) (.disk o)

/-- `.with_context(|| context)?` -/
def orIo {α : Type} (context : String) (r : Except String α) : StoreProg α :=
  ofExcept (r.mapError (.io context))

/-! ## The programs -/

def loadKey : StoreProg MasterKey := do
  let r ← perform (S := storeSig) .loadKey
  ofExcept (r.mapError .keystore)

def loadConfig (deps : SealDeps) (stateDir : String) : StoreProg Config := do
  let path := sealedPath stateDir
  let blob ← orIo ("read " ++ path.display) (← disk (.read path))
  let key ← loadKey
  let cfg ← ofExcept ((deps.unseal blob key []).mapError .sealing)
  ofExcept (cfg.validate.mapError .config)
  return cfg

def act (context : String) (a : DiskAct Path) : StoreProg Unit := do
  orIo context (← disk (.act a))

/-- `path` is the file `name` of the directory `parent`. -/
def writeAtomic (parent name : String) (bytes : Bytes) : StoreProg Unit := do
  let path : Path := ⟨parent, name⟩
  act "" (.makeDirs parent)
  let tmp := tmpPath parent
  act ("open " ++ tmp.display) (.truncate tmp)
  act "" (.write tmp bytes)
  act "" (.sync tmp)
  act ("rename " ++ tmp.display ++ " -> " ++ path.display) (.rename tmp path)

/-- The block of `save_config` that moves the sealed file to the backup. -/
def rotate (stateDir : String) : StoreProg Unit := do
  let sealed := sealedPath stateDir
  let backup := backupPath stateDir
  if ← disk (.probe sealed) then
    let _ ← disk (.act (.remove backup))
    act ("rotate " ++ sealed.display ++ " -> " ++ backup.display) (.rename sealed backup)

def sealWith (deps : SealDeps) (cfg : Config) (key : MasterKey) : StoreProg Bytes := do
  let salt ← perform (S := storeSig) (.fillBytes Seal.saltLen)
  let nonce ← perform (S := storeSig) (.fillBytes Seal.nonceLen)
  ofExcept ((deps.seal salt nonce cfg key []).mapError .sealing)

def saveConfig (deps : SealDeps) (stateDir : String) (cfg : Config) : StoreProg Unit := do
  ofExcept (cfg.validate.mapError .config)
  let key ← loadKey
  let blob ← sealWith deps cfg key
  rotate stateDir
  writeAtomic stateDir "config.sealed" blob

def withConfig {R : Type} (deps : SealDeps) (stateDir : String)
    (mutate : Config → Except StateError (R × Config)) : StoreProg R := do
  let cfg ← loadConfig deps stateDir
  let (out, cfg) ← ofExcept (mutate cfg)
  saveConfig deps stateDir cfg
  return out

/-! ## What the steps do -/

structure World where
  disk : Disk Path
  key : MasterKey

/-- Every step may fail. A key source that answers answers its one key. -/
def storeSem : Sem storeSig World
  | w, .disk o, r, w' => w.disk.Step o r w'.disk ∧ w'.key = w.key
  | w, .loadKey, r, w' => w' = w ∧ ∀ key, r = .ok key → key = w.key
  | w, .fillBytes len, bytes, w' => w' = w ∧ bytes.length = len

/-- No step fails without a reason. -/
def healthySem : Sem storeSig World
  | w, .disk o, r, w' => storeSem w (.disk o) r w' ∧ w.disk.Healthy o r
  | w, .loadKey, r, w' => w' = w ∧ r = .ok w.key
  | w, .fillBytes len, bytes, w' => storeSem w (.fillBytes len) bytes w'

/-- With the machine in order, `load_config` returns `cfg`. -/
def Loads (deps : SealDeps) (stateDir : String) (w : World) (cfg : Config) : Prop :=
  ∃ t w', Exec healthySem (loadConfig deps stateDir) w t (.ok cfg) w'

def unsealed (deps : SealDeps) (key : MasterKey) (blob : Bytes) : Option Config :=
  match deps.unseal blob key [] with
  | .ok cfg => if cfg.Valid then some cfg else none
  | .error _ => none

/-- What lies under the sealed name, as a configuration. -/
def stored (deps : SealDeps) (stateDir : String) (w : World) : Option Config :=
  (w.disk (sealedPath stateDir)).bind (unsealed deps w.key)

end MiddleWhere.Store
