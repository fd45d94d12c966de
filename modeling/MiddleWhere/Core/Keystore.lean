import MiddleWhere.Core.StateAtomic
import MiddleWhere.Data.Str
import MiddleWhere.Effects.Interpret
import MiddleWhere.Effects.Keeps

/-!
# Key stores and the first setup

The master key is an entry of the operating system's key store or a file beside the sealed
configuration. `init` makes a fresh key, stores it and seals an empty configuration under it. It
looks at one file before it does: the sealed configuration of its own directory. What it writes
over in the key store it does not look at.
-/

namespace MiddleWhere.Store
open Prog

inductive KeystoreChoice
  | os (service account : String)
  | file (path : Path)
deriving DecidableEq

def masterKeyPath (stateDir : String) : Path := ⟨stateDir, "master.key"⟩

def KeystoreChoice.defaultOs : KeystoreChoice := .os "middlewhere" "default"
def KeystoreChoice.defaultFile (stateDir : String) : KeystoreChoice := .file (masterKeyPath stateDir)

inductive KeyringError
  | notFound
  | backend (reason : String)
  | badLength (n : ℕ)
  | io (reason : String)
  | hex (reason : String)
deriving DecidableEq

def KeyringError.display : KeyringError → String
  | .notFound => "keystore entry not found"
  | .backend reason => "keystore backend error: " ++ reason
  | .badLength n => "stored key has wrong length (got " ++ toString n ++ ", want 32)"
  | .io reason => "io: " ++ reason
  | .hex reason => "hex decode: " ++ reason

/-- `getPassword` answers `none` where the store says `NoEntry`. -/
inductive KeyOp
  | disk (o : DiskOp Path)
  | lockDir (dir : String)
  | fillBytes (len : ℕ)
  | getPassword (service account : String)
  | setPassword (service account text : String)

abbrev KeyOp.Res : KeyOp → Type
  | .disk o => o.Res
  | .lockDir _ => Except String Unit
  | .fillBytes _ => Bytes
  | .getPassword _ _ => Except String (Option String)
  | .setPassword _ _ _ => Except String Unit

abbrev keySig : Sig := ⟨KeyOp, KeyOp.Res⟩

abbrev KeyProg := Prog keySig StateError

def askKey (o : KeyOp) : KeyProg o.Res := perform (S := keySig) o

/-- `hex::encode`, and `hex::decode` of a trimmed text. -/
structure Hex where
  encode : Bytes → String
  decode : String → Except String Bytes
  decode_encode : ∀ bytes, decode (encode bytes) = .ok bytes

def keyLen : ℕ := 32

def toKey (raw : Bytes) : Except KeyringError MasterKey :=
  if raw.length = keyLen then .ok raw else .error (.badLength raw.length)

section
variable (hex : Hex)

def decodeEntry (encoded : String) : Except KeyringError MasterKey :=
  match hex.decode encoded with
  | .error e => .error (.hex e)
  | .ok raw => toKey raw

def KeystoreChoice.load : KeystoreChoice → KeyProg (Except KeyringError MasterKey)
  | .os service account => do
    match ← askKey (.getPassword service account) with
    | .error e => return .error (.backend e)
    | .ok none => return .error .notFound
    | .ok (some encoded) => return decodeEntry hex encoded
  | .file path => do
    match ← askKey (.disk (.read path)) with
    | .error e => return .error (.io e)
    | .ok bytes => return toKey bytes

def orKeystore {α : Type} (r : Except String α) (wrap : String → KeyringError) : KeyProg α :=
  ofExcept (r.mapError fun e => .keystore (wrap e).display)

def writeSecretFile (path : Path) (bytes : Bytes) : KeyProg Unit := do
  orKeystore (← askKey (.disk (.act (.truncate path)))) .io
  orKeystore (← askKey (.disk (.act (.write path bytes)))) .io
  orKeystore (← askKey (.disk (.act (.sync path)))) .io

def KeystoreChoice.store (key : MasterKey) : KeystoreChoice → KeyProg Unit
  | .os service account => do
    orKeystore (← askKey (.setPassword service account (hex.encode key))) .backend
  | .file path => do
    orKeystore (← askKey (.disk (.act (.makeDirs path.dir)))) .io
    writeSecretFile path key

/-- The store's operations, where `loadKey` goes through the chosen key store. -/
def overKeystore (keystore : KeystoreChoice) : (o : StoreOp) → KeyProg o.Res
  | .disk o => askKey (.disk o)
  | .loadKey => do return (← keystore.load hex).mapError KeyringError.display
  | .fillBytes len => askKey (.fillBytes len)

def createDirSecure (dir : String) : KeyProg Unit := do
  ofExcept ((← askKey (.disk (.act (.makeDirs dir)))).mapError (.io ("create " ++ dir)))
  ofExcept ((← askKey (.lockDir dir)).mapError (.io ("lock " ++ dir ++ " to 0700")))

def init (deps : SealDeps) (stateDir : String) (keystore : KeystoreChoice) : KeyProg Unit := do
  createDirSecure stateDir
  createDirSecure (stateDir ++ "/audit")
  if ← askKey (.disk (.probe (sealedPath stateDir))) then
    fail (.refused ((sealedPath stateDir).display ++ " already exists; refusing to overwrite"))
  else
    let key ← askKey (.fillBytes keyLen)
    keystore.store hex key
    let blob ← (sealWith deps {} key).interpret (overKeystore hex keystore)
    (writeAtomic stateDir "config.sealed" blob).interpret (overKeystore hex keystore)

end

/-! ## What the steps do -/

structure KeyWorld where
  disk : Disk Path
  entries : String × String → Option String

/-- Every step may fail. An entry that could not be set is as it was. -/
def keySem : Sem keySig KeyWorld
  | w, .disk o, r, w' => w.disk.Step o r w'.disk ∧ w'.entries = w.entries
  | w, .lockDir _, _, w' => w' = w
  | w, .fillBytes len, bytes, w' => w' = w ∧ bytes.length = len
  | w, .getPassword service account, r, w' =>
    w' = w ∧ ∀ found, r = .ok found → found = w.entries (service, account)
  | w, .setPassword service account text, .ok _, w' =>
    w' = { w with entries := Function.update w.entries (service, account) (some text) }
  | w, .setPassword _ _ _, .error _, w' => w' = w

/-- `exists` tells the truth. It says no where it cannot look, too. -/
def lookingSem : Sem keySig KeyWorld
  | w, .disk (.probe p), found, w' => keySem w (.disk (.probe p)) found w' ∧
      w.disk.Healthy (.probe p) found
  | w, o, r, w' => keySem w o r w'

/-- The key that a load of this key store returns. -/
def KeystoreChoice.held (hex : Hex) (w : KeyWorld) : KeystoreChoice → Option MasterKey
  | .os service account =>
    (w.entries (service, account)).bind fun encoded => (decodeEntry hex encoded).toOption
  | .file path => (w.disk path).bind fun bytes => (toKey bytes).toOption

/-- What `resolve_target` returns: a key file goes by its own name. -/
def KeystoreChoice.Resolved : KeystoreChoice → Prop
  | .os _ _ => True
  | .file path => path.name = "master.key"

/-- A sealed configuration or its backup, in any state directory. -/
def SealedBlob (w : KeyWorld) (blob : Bytes) : Prop :=
  ∃ dir, w.disk (sealedPath dir) = some blob ∨ w.disk (backupPath dir) = some blob

def OpensWith (deps : SealDeps) (hex : Hex) (w : KeyWorld) (blob : Bytes) (cfg : Config)
    (keystore : KeystoreChoice) : Prop :=
  ∃ key, keystore.held hex w = some key ∧ deps.unseal blob key [] = .ok cfg

/-- Some key store holds a key that opens the blob. -/
def Accessible (deps : SealDeps) (hex : Hex) (w : KeyWorld) (blob : Bytes) (cfg : Config) : Prop :=
  ∃ keystore : KeystoreChoice, keystore.Resolved ∧ OpensWith deps hex w blob cfg keystore

/-- Every sealed blob that could be opened before can still be. -/
def AccessKept (deps : SealDeps) (hex : Hex) (w w' : KeyWorld) : Prop :=
  ∀ blob cfg, SealedBlob w blob → Accessible deps hex w blob cfg → Accessible deps hex w' blob cfg

/-! ## What `init` leaves alone -/

variable {deps : SealDeps} {hex : Hex} {stateDir : String} {keystore other : KeystoreChoice}
  {w w' : KeyWorld}

/-- The operation does not write where this key store keeps its key. -/
def KeyOp.Spares (other : KeystoreChoice) : KeyOp → Prop
  | .disk (.act a) => ∀ path, other = .file path → path ∉ a.touched
  | .setPassword service account _ => other ≠ .os service account
  | _ => True

theorem held_of_spares {o : KeyOp} {r : o.Res} (ho : o.Spares other) (h : keySem w o r w') :
    other.held hex w' = other.held hex w := by
  have hsame (hdisk : ∀ path, other = .file path → w'.disk path = w.disk path)
      (hentries : ∀ service account, other = .os service account →
        w'.entries (service, account) = w.entries (service, account)) :
      other.held hex w' = other.held hex w := by
    cases other with
    | os service account => simp only [KeystoreChoice.held, hentries service account rfl]
    | file path => simp only [KeystoreChoice.held, hdisk path rfl]
  cases o with
  | disk o =>
    obtain ⟨hstep, hentries⟩ := h
    refine hsame (fun path hpath => ?_) fun _ _ _ => by rw [hentries]
    cases o with
    | probe p => rw [hstep.1]
    | read p => rw [hstep.1]
    | act a => exact Disk.Act.frame hstep (ho path hpath)
  | lockDir dir => rw [show w' = w from h]
  | fillBytes len => rw [h.1]
  | getPassword service account => rw [h.1]
  | setPassword service account text =>
    cases r with
    | error e => rw [show w' = w from h]
    | ok u =>
      obtain rfl : w' = _ := h
      refine hsame (fun _ _ => rfl) fun service' account' heq => ?_
      have hne : (service', account') ≠ (service, account) := by
        rintro ⟨⟩
        exact ho heq
      exact Function.update_of_ne hne _ _

theorem askKey_uses {A : KeyOp → Prop} {o : KeyOp} (ho : A o) : (askKey o).Uses A :=
  ⟨ho, fun _ => uses_halt _⟩

theorem orKeystore_uses {A : KeyOp → Prop} {α : Type} (r : Except String α)
    (wrap : String → KeyringError) : (orKeystore r wrap).Uses A :=
  uses_ofExcept _

/-- An operation that writes nothing at all. -/
theorem load_uses (keystore : KeystoreChoice) :
    (keystore.load hex).Uses (KeyOp.Spares other) := by
  cases keystore with
  | os service account =>
    refine uses_bind (askKey_uses trivial) fun r => ?_
    rcases r with e | found
    · exact uses_halt _
    · cases found with
      | none => exact uses_halt _
      | some encoded => exact uses_halt _
  | file path =>
    refine uses_bind (askKey_uses trivial) fun r => ?_
    cases r with
    | error e => exact uses_halt _
    | ok bytes => exact uses_halt _

theorem store_uses {key : MasterKey} (hne : other ≠ keystore) :
    (keystore.store hex key).Uses (KeyOp.Spares other) := by
  cases keystore with
  | os service account =>
    refine uses_bind (askKey_uses hne) fun r => orKeystore_uses _ _
  | file path =>
    have hspares (a : DiskAct Path) (ha : ∀ p ∈ a.touched, p = path) :
        (KeyOp.disk (.act a)).Spares other := by
      intro p hp hmem
      exact hne (hp.trans (congrArg KeystoreChoice.file (ha p hmem)))
    refine uses_bind (askKey_uses (hspares _ (by simp [DiskAct.touched]))) fun r => ?_
    refine uses_bind (orKeystore_uses _ _) fun _ => ?_
    refine uses_bind (askKey_uses (hspares _ (by simp [DiskAct.touched]))) fun r => ?_
    refine uses_bind (orKeystore_uses _ _) fun _ => ?_
    refine uses_bind (askKey_uses (hspares _ (by simp [DiskAct.touched]))) fun r => ?_
    refine uses_bind (orKeystore_uses _ _) fun _ => ?_
    refine uses_bind (askKey_uses (hspares _ (by simp [DiskAct.touched]))) fun r => ?_
    exact orKeystore_uses _ _

/-- The same of an operation of the sealed store. -/
def StoreOp.Spares (other : KeystoreChoice) : StoreOp → Prop
  | .disk o => (KeyOp.disk o).Spares other
  | _ => True

theorem overKeystore_uses (o : StoreOp) (ho : o.Spares other) :
    (overKeystore hex keystore o).Uses (KeyOp.Spares other) := by
  cases o with
  | disk o => exact askKey_uses ho
  | loadKey => exact uses_bind (load_uses keystore) fun _ => uses_halt _
  | fillBytes len => exact askKey_uses trivial

theorem act_uses {context : String} {a : DiskAct Path} (ha : (StoreOp.disk (.act a)).Spares other) :
    (act context a).Uses (StoreOp.Spares other) :=
  uses_bind (p := disk (.act a)) ⟨ha, fun _ => uses_halt _⟩ fun _ => uses_ofExcept _

theorem writeAtomic_uses {blob : Bytes} (hother : other.Resolved) :
    (writeAtomic stateDir "config.sealed" blob).Uses (StoreOp.Spares other) := by
  have hspares (a : DiskAct Path) (ha : ∀ p ∈ a.touched, p.name ≠ "master.key") :
      (StoreOp.disk (.act a)).Spares other := by
    rintro p rfl hmem
    exact ha p hmem hother
  refine uses_bind (act_uses (hspares _ (by simp [DiskAct.touched]))) fun _ => ?_
  refine uses_bind (act_uses (hspares _ (by simp [DiskAct.touched, tmpPath]))) fun _ => ?_
  refine uses_bind (act_uses (hspares _ (by simp [DiskAct.touched, tmpPath]))) fun _ => ?_
  refine uses_bind (act_uses (hspares _ (by simp [DiskAct.touched]))) fun _ => ?_
  exact act_uses (hspares _ (by simp [DiskAct.touched, tmpPath]))

theorem sealWith_uses {cfg : Config} {key : MasterKey} :
    (sealWith deps cfg key).Uses (StoreOp.Spares other) :=
  ⟨trivial, fun _ => ⟨trivial, fun _ => uses_ofExcept _⟩⟩

/-- The part of `init` after the key is stored. -/
theorem sealing_uses {key : MasterKey} (hother : other.Resolved) :
    (((sealWith deps {} key).interpret (overKeystore hex keystore)).bind fun blob =>
      (writeAtomic stateDir "config.sealed" blob).interpret (overKeystore hex keystore)).Uses
      (KeyOp.Spares other) :=
  uses_bind (uses_interpret overKeystore_uses sealWith_uses) fun _ =>
    uses_interpret overKeystore_uses (writeAtomic_uses hother)

theorem createDirSecure_uses {A : KeyOp → Prop} (dir : String) (hmake : A (.disk (.act (.makeDirs dir))))
    (hlock : A (.lockDir dir)) : (createDirSecure dir).Uses A := by
  refine uses_bind (askKey_uses hmake) fun _ => uses_bind (uses_ofExcept _) fun _ => ?_
  exact uses_bind (askKey_uses hlock) fun _ => uses_ofExcept _

theorem init_uses (hother : other.Resolved) (hne : other ≠ keystore) :
    (init hex deps stateDir keystore).Uses (KeyOp.Spares other) := by
  have hmake (dir : String) : (KeyOp.disk (.act (.makeDirs dir))).Spares other := by
    simp [KeyOp.Spares, DiskAct.touched]
  refine uses_bind (createDirSecure_uses _ (hmake _) trivial) fun _ => ?_
  refine uses_bind (createDirSecure_uses _ (hmake _) trivial) fun _ => ?_
  refine uses_bind (askKey_uses trivial) fun found => ?_
  cases found with
  | true => exact uses_halt _
  | false =>
    refine uses_bind (askKey_uses trivial) fun key => ?_
    exact uses_bind (store_uses hne) fun _ => sealing_uses hother

theorem held_of_uses {α : Type} {p : KeyProg α} (hp : p.Uses (KeyOp.Spares other)) (w : KeyWorld) :
    wp keySem p (fun _ _ w' => other.held hex w' = other.held hex w) w :=
  related_of_uses (R := fun w w' => other.held hex w' = other.held hex w) (fun _ => rfl)
    (fun _ _ _ h h' => h'.trans h) (fun _ _ _ _ ho hM => held_of_spares ho hM) hp w

/-- `init` leaves what the other key stores hold. -/
theorem init_held {out : Outcome StateError Unit} {t : List (Event keySig)}
    (h : Exec keySem (init hex deps stateDir keystore) w t out w') (hother : other.Resolved)
    (hne : other ≠ keystore) : other.held hex w' = other.held hex w :=
  held_of_uses (init_uses hother hne) w t out w' h

/-! ## What a refusal leaves alone -/

theorem lookingSem_le (w : KeyWorld) (o : KeyOp) (r : o.Res) (w' : KeyWorld)
    (h : lookingSem w o r w') : keySem w o r w' := by
  cases o with
  | disk o =>
    cases o with
    | probe p => exact h.1
    | read p => exact h
    | act a => exact h
  | lockDir dir => exact h
  | fillBytes len => exact h
  | getPassword service account => exact h
  | setPassword service account text => exact h

def KeyOp.Idle : KeyOp → Prop
  | .disk (.act (.makeDirs _)) | .lockDir _ => True
  | _ => False

theorem idle_step {o : KeyOp} {r : o.Res} (ho : o.Idle) (h : lookingSem w o r w') : w' = w := by
  cases o with
  | disk o =>
    cases o with
    | probe p => cases ho
    | read p => cases ho
    | act a =>
      cases a with
      | makeDirs dir =>
        obtain ⟨hdisk, hentries⟩ := h
        change w'.disk = w.disk at hdisk
        cases w
        cases w'
        simp_all
      | _ => cases ho
  | lockDir dir => exact h
  | fillBytes len => cases ho
  | getPassword service account => cases ho
  | setPassword service account text => cases ho

theorem createDirSecure_idle (dir : String) (w : KeyWorld) :
    wp lookingSem (createDirSecure dir) (fun _ _ w' => w' = w) w :=
  related_of_uses (R := fun w w' => w' = w) (A := KeyOp.Idle) (fun _ => rfl)
    (fun _ _ _ h h' => h'.trans h) (fun _ _ _ _ => idle_step)
    (createDirSecure_uses dir trivial trivial) w

/-- Where `init` sees a sealed configuration it changes nothing. -/
theorem init_refuses (hsealed : (w.disk (sealedPath stateDir)).isSome) :
    wp lookingSem (init hex deps stateDir keystore)
      (fun _ _ w' => w'.disk = w.disk ∧ w'.entries = w.entries) w := by
  refine wp_bind.mpr (wp_mono (createDirSecure_idle _ w) ?_)
  rintro t out w₁ rfl
  cases out with
  | err e => exact ⟨rfl, rfl⟩
  | panic => exact ⟨rfl, rfl⟩
  | ok _ =>
    refine wp_bind.mpr (wp_mono (createDirSecure_idle _ w₁) ?_)
    rintro t out w₂ rfl
    cases out with
    | err e => exact ⟨rfl, rfl⟩
    | panic => exact ⟨rfl, rfl⟩
    | ok _ =>
      refine wp_call.mpr fun found w₃ hprobe => ?_
      obtain ⟨⟨⟨hdisk, -⟩, hentries⟩, hhealthy⟩ := hprobe
      obtain rfl : found = true := hhealthy hsealed
      exact wp_halt.mpr ⟨hdisk, hentries⟩

theorem accessKept_of_held (h : ∀ keystore : KeystoreChoice, keystore.held hex w' = keystore.held hex w) :
    AccessKept deps hex w w' := by
  rintro blob cfg - ⟨keystore, hresolved, key, hkey, hopen⟩
  exact ⟨keystore, hresolved, key, (h keystore).trans hkey, hopen⟩

/-! ## What an overwritten key costs -/

/-- Another key store holds a key that opens the blob, too. -/
def OpensElsewhere (deps : SealDeps) (hex : Hex) (w : KeyWorld) (keystore : KeystoreChoice)
    (blob : Bytes) (cfg : Config) : Prop :=
  ∃ other : KeystoreChoice, other ≠ keystore ∧ other.Resolved ∧ OpensWith deps hex w blob cfg other

/-- No sealed blob needs the key that `keystore` holds. -/
def Dispensable (deps : SealDeps) (hex : Hex) (w : KeyWorld) (keystore : KeystoreChoice) : Prop :=
  ∀ blob cfg, SealedBlob w blob → OpensWith deps hex w blob cfg keystore →
    OpensElsewhere deps hex w keystore blob cfg

theorem accessKept_of_dispensable {out : Outcome StateError Unit} {t : List (Event keySig)}
    (h : Exec keySem (init hex deps stateDir keystore) w t out w')
    (hfree : Dispensable deps hex w keystore) : AccessKept deps hex w w' := by
  rintro blob cfg hblob ⟨other, hresolved, hopens⟩
  have hmoved (other : KeystoreChoice) (hne : other ≠ keystore) (hresolved : other.Resolved)
      (hopens : OpensWith deps hex w blob cfg other) : Accessible deps hex w' blob cfg := by
    obtain ⟨key, hkey, hopen⟩ := hopens
    exact ⟨other, hresolved, key, (init_held h hresolved hne).trans hkey, hopen⟩
  by_cases hne : other = keystore
  · subst hne
    obtain ⟨other', hne', hresolved', hopens'⟩ := hfree blob cfg hblob hopens
    exact hmoved other' hne' hresolved' hopens'
  · exact hmoved other hne hresolved hopens

/-- A machine on which every step of `keySem` can happen, up to what a look at a file answers. -/
structure Admits (M : Sem keySig KeyWorld) : Prop where
  le : ∀ w o r w', M w o r w' → keySem w o r w'
  steps : ∀ w o r w', (∀ p, o ≠ .disk (.probe p)) → keySem w o r w' → M w o r w'
  total : ∀ w o, ∃ r w', M w o r w'

theorem keySem_total (w : KeyWorld) (o : KeyOp) (ho : ∀ p, o ≠ .disk (.probe p)) :
    ∃ r w', keySem w o r w' := by
  cases o with
  | disk o =>
    cases o with
    | probe p => exact absurd rfl (ho p)
    | read p => exact ⟨.error "", w, ⟨rfl, nofun⟩, rfl⟩
    | act a =>
      cases a with
      | remove p => exact ⟨.error "", w, rfl, rfl⟩
      | rename src dst => exact ⟨.error "", w, rfl, rfl⟩
      | makeDirs dir => exact ⟨.error "", w, rfl, rfl⟩
      | truncate p => exact ⟨.error "", w, Or.inl rfl, rfl⟩
      | write p text =>
        exact ⟨.error "", ⟨Function.update w.disk p (some []), w.entries⟩,
          ⟨[], List.nil_prefix, rfl⟩, rfl⟩
      | sync p => exact ⟨.error "", w, rfl, rfl⟩
  | lockDir dir => exact ⟨.ok (), w, rfl⟩
  | fillBytes len => exact ⟨List.replicate len 0, w, rfl, List.length_replicate⟩
  | getPassword service account => exact ⟨.error "", w, rfl, nofun⟩
  | setPassword service account text => exact ⟨.error "", w, rfl⟩

theorem admits_keySem : Admits keySem where
  le _ _ _ _ h := h
  steps _ _ _ _ _ h := h
  total w o := by
    by_cases ho : ∃ p, o = .disk (.probe p)
    · obtain ⟨p, rfl⟩ := ho
      exact ⟨false, w, ⟨rfl, nofun⟩, rfl⟩
    · exact keySem_total w o fun p hp => ho ⟨p, hp⟩

theorem admits_lookingSem : Admits lookingSem where
  le := lookingSem_le
  steps w o r w' ho h := by
    cases o with
    | disk o =>
      cases o with
      | probe p => exact absurd rfl (ho p)
      | read p => exact h
      | act a => exact h
    | lockDir dir => exact h
    | fillBytes len => exact h
    | getPassword service account => exact h
    | setPassword service account text => exact h
  total w o := by
    by_cases ho : ∃ p, o = .disk (.probe p)
    · obtain ⟨p, rfl⟩ := ho
      exact ⟨(w.disk p).isSome, w, ⟨⟨rfl, id⟩, rfl⟩, id⟩
    · obtain ⟨r, w', h⟩ := keySem_total w o fun p hp => ho ⟨p, hp⟩
      refine ⟨r, w', ?_⟩
      cases o with
      | disk o =>
        cases o with
        | probe p => exact absurd ⟨p, rfl⟩ ho
        | read p => exact h
        | act a => exact h
      | lockDir dir => exact h
      | fillBytes len => exact h
      | getPassword service account => exact h
      | setPassword service account text => exact h

variable {M : Sem keySig KeyWorld}

theorem createDirSecure_succeeds (hM : Admits M) (dir : String) (w : KeyWorld) :
    ∃ t, Exec M (createDirSecure dir) w t (.ok ()) w := by
  have hmake : M w (.disk (.act (.makeDirs dir))) (.ok ()) w :=
    hM.steps _ _ _ _ (fun _ => nofun) ⟨rfl, rfl⟩
  have hlock : M w (.lockDir dir) (.ok ()) w := hM.steps _ _ _ _ (fun _ => nofun) rfl
  exact ⟨_, .call hmake (.call hlock (.halt _ _))⟩

/-- An `init` that has passed its look stores any key that the generator gives. -/
theorem init_goes_on (hM : Admits M) (hprobe : M w (.disk (.probe (sealedPath stateDir))) false w)
    {key : MasterKey} (hkey : key.length = keyLen) {k : Option MasterKey}
    (h : ∃ t out w', Exec M ((keystore.store hex key).bind fun _ =>
      ((sealWith deps {} key).interpret (overKeystore hex keystore)).bind fun blob =>
        (writeAtomic stateDir "config.sealed" blob).interpret (overKeystore hex keystore))
      w t out w' ∧ keystore.held hex w' = k) :
    ∃ t out w', Exec M (init hex deps stateDir keystore) w t out w' ∧ keystore.held hex w' = k := by
  obtain ⟨t₁, h₁⟩ := createDirSecure_succeeds hM stateDir w
  obtain ⟨t₂, h₂⟩ := createDirSecure_succeeds hM (stateDir ++ "/audit") w
  obtain ⟨t, out, w', hrest, hheld⟩ := h
  have hfill : M w (.fillBytes keyLen) key w := hM.steps _ _ _ _ (fun _ => nofun) ⟨rfl, hkey⟩
  exact ⟨_, out, w', h₁.bind (h₂.bind (.call hprobe (.call hfill hrest))), hheld⟩

/-- Afterwards the key store holds the new key, or a part of it that is no key. -/
theorem init_overwrites (hM : Admits M) (hks : keystore.Resolved)
    (hprobe : M w (.disk (.probe (sealedPath stateDir))) false w) {key : MasterKey}
    (hkey : key.length = keyLen) : ∃ t out w', Exec M (init hex deps stateDir keystore) w t out w' ∧
      (keystore.held hex w' = some key ∨ keystore.held hex w' = none) := by
  cases keystore with
  | os service account =>
    let w₁ : KeyWorld :=
      { w with entries := Function.update w.entries (service, account) (some (hex.encode key)) }
    have hset : M w (.setPassword service account (hex.encode key)) (.ok ()) w₁ :=
      hM.steps _ _ _ _ (fun _ => nofun) rfl
    obtain ⟨t, out, w', hrest⟩ := exists_exec hM.total
      (((sealWith deps {} key).interpret (overKeystore hex (.os service account))).bind fun blob =>
        (writeAtomic stateDir "config.sealed" blob).interpret
          (overKeystore hex (.os service account))) w₁
    have hheld : KeystoreChoice.held hex w' (.os service account) = _ :=
      held_of_uses (sealing_uses hks) w₁ t out w' (hrest.mono hM.le)
    have hnew : KeystoreChoice.held hex w₁ (.os service account) = some key := by
      simp [KeystoreChoice.held, w₁, decodeEntry, hex.decode_encode, toKey, hkey, Except.toOption]
    obtain ⟨t, out, w', hexec, hk⟩ := init_goes_on hM hprobe hkey
      ⟨_, out, w', .call hset hrest, hheld.trans hnew⟩
    exact ⟨t, out, w', hexec, Or.inl hk⟩
  | file path =>
    let w₁ : KeyWorld := { w with disk := Function.update w.disk path (some []) }
    have hmake : M w (.disk (.act (.makeDirs path.dir))) (.ok ()) w :=
      hM.steps _ _ _ _ (fun _ => nofun) ⟨rfl, rfl⟩
    have htruncate : M w (.disk (.act (.truncate path))) (.ok ()) w₁ :=
      hM.steps _ _ _ _ (fun _ => nofun) ⟨rfl, rfl⟩
    have hwrite : M w₁ (.disk (.act (.write path key))) (.error "no space left on device") w₁ :=
      hM.steps _ _ _ _ (fun _ => nofun) ⟨⟨[], List.nil_prefix, by simp [w₁]⟩, rfl⟩
    have hgone : KeystoreChoice.held hex w₁ (.file path) = none := by
      simp [KeystoreChoice.held, w₁, toKey, keyLen, Except.toOption]
    obtain ⟨t, out, w', hexec, hk⟩ := init_goes_on hM hprobe hkey
      ⟨_, _, w₁, .call hmake (.call htruncate (.call hwrite (.halt _ _))), hgone⟩
    exact ⟨t, out, w', hexec, Or.inr hk⟩

/-- No blob opens under every key. -/
def Authenticated (deps : SealDeps) : Prop :=
  ∀ blob, ∃ key : MasterKey, key.length = keyLen ∧ ∀ cfg, deps.unseal blob key [] ≠ .ok cfg

theorem init_can_lose (hM : Admits M) (hauth : Authenticated deps) (hks : keystore.Resolved)
    (hprobe : M w (.disk (.probe (sealedPath stateDir))) false w)
    (hneeded : ¬ Dispensable deps hex w keystore) :
    ∃ t out w', Exec M (init hex deps stateDir keystore) w t out w' ∧ ¬ AccessKept deps hex w w' := by
  unfold Dispensable at hneeded
  push Not at hneeded
  obtain ⟨blob, cfg, hblob, hopens, hnowhere⟩ := hneeded
  obtain ⟨key, hkey, hwrong⟩ := hauth blob
  obtain ⟨t, out, w', hexec, hheld⟩ := init_overwrites hM hks hprobe hkey
  refine ⟨t, out, w', hexec, fun hkept => ?_⟩
  obtain ⟨other, hresolved, key', hkey', hopen⟩ := hkept blob cfg hblob ⟨keystore, hks, hopens⟩
  by_cases hne : other = keystore
  · subst hne
    rcases hheld with hnew | hnone
    · obtain rfl : key = key' := Option.some.inj (hnew.symm.trans hkey')
      exact hwrong cfg hopen
    · simp [hnone] at hkey'
  · have hold := init_held (hexec.mono hM.le) hresolved hne
    exact hnowhere ⟨other, hne, hresolved, key', hold.symm.trans hkey', hopen⟩

/-- `init` keeps every sealed blob openable exactly where it sees a sealed configuration of its
own, or where no blob needs the key that it writes over. A look that fails says that there is no
sealed configuration, and then only the latter helps. -/
theorem init_keeps_access_iff (hauth : Authenticated deps) (hks : keystore.Resolved)
    (w : KeyWorld) :
    ((∀ t out w', Exec lookingSem (init hex deps stateDir keystore) w t out w' →
      AccessKept deps hex w w') ↔
      (w.disk (sealedPath stateDir)).isSome ∨ Dispensable deps hex w keystore) ∧
    ((∀ t out w', Exec keySem (init hex deps stateDir keystore) w t out w' →
      AccessKept deps hex w w') ↔ Dispensable deps hex w keystore) := by
  constructor
  · constructor
    · intro hkept
      by_contra hneither
      rw [not_or] at hneither
      have habsent : lookingSem w (.disk (.probe (sealedPath stateDir))) false w :=
        ⟨⟨⟨rfl, nofun⟩, rfl⟩, fun h => absurd h hneither.1⟩
      obtain ⟨t, out, w', hexec, hlost⟩ :=
        init_can_lose admits_lookingSem hauth hks habsent hneither.2
      exact hlost (hkept t out w' hexec)
    · rintro (hsealed | hfree) t out w' hexec
      · obtain ⟨hdisk, hentries⟩ := init_refuses hsealed t out w' hexec
        apply accessKept_of_held
        intro other
        cases other with
        | os service account => simp only [KeystoreChoice.held, hentries]
        | file path => simp only [KeystoreChoice.held, hdisk]
      · exact accessKept_of_dispensable (hexec.mono lookingSem_le) hfree
  · constructor
    · intro hkept
      by_contra hneeded
      obtain ⟨t, out, w', hexec, hlost⟩ :=
        init_can_lose admits_keySem hauth hks ⟨⟨rfl, nofun⟩, rfl⟩ hneeded
      exact hlost (hkept t out w' hexec)
    · exact fun hfree t out w' hexec => accessKept_of_dispensable hexec hfree

/-! ## Two state directories under one key store entry -/

def hexDigit (n : ℕ) : Char := (['0', '1', '2', '3', '4', '5', '6', '7', '8', '9', 'a', 'b', 'c',
  'd', 'e', 'f'][n]?).getD '0'

def hexValue (c : Char) : Option ℕ :=
  if '0' ≤ c ∧ c ≤ '9' then some (c.toNat - 48)
  else if 'a' ≤ c ∧ c ≤ 'f' then some (c.toNat - 87)
  else if 'A' ≤ c ∧ c ≤ 'F' then some (c.toNat - 55)
  else none

def hexPairs : List Char → Except String Bytes
  | [] => .ok []
  | [_] => .error "Odd number of digits"
  | hi :: lo :: rest =>
    match hexValue hi, hexValue lo with
    | some h, some l => (hexPairs rest).map (UInt8.ofNat (16 * h + l) :: ·)
    | _, _ => .error "Invalid character"

theorem hexValue_hexDigit (n : Fin 16) : hexValue (hexDigit n.val) = some n.val := by
  revert n
  decide

theorem hexPairs_encode (bytes : Bytes) :
    hexPairs (bytes.flatMap fun b => [hexDigit (b.toNat / 16), hexDigit (b.toNat % 16)]) =
      .ok bytes := by
  induction bytes with
  | nil => rfl
  | cons b rest ih =>
    have hb : b.toNat < 256 := b.toNat_lt
    have hhi := hexValue_hexDigit ⟨b.toNat / 16, by omega⟩
    have hlo := hexValue_hexDigit ⟨b.toNat % 16, by omega⟩
    have hbyte : UInt8.ofNat (16 * (b.toNat / 16) + b.toNat % 16) = b := by
      rw [Nat.div_add_mod, UInt8.ofNat_toNat]
    simp only [List.flatMap_cons, List.cons_append, List.nil_append, hexPairs, hhi, hlo, ih, hbyte]
    rfl

theorem hexDigit_plain (n : ℕ) : Str.isWhitespace (hexDigit n) = false := by
  by_cases hn : n < 16
  · have hall : ∀ k : Fin 16, Str.isWhitespace (hexDigit k.val) = false := by decide
    exact hall ⟨n, hn⟩
  · have hnone : hexDigit n = '0' := by
      unfold hexDigit
      rw [List.getElem?_eq_none (by simpa using hn), Option.getD_none]
    rw [hnone]
    rfl

theorem trim_of_plain {cs : List Char} (h : ∀ c ∈ cs, Str.isWhitespace c = false) :
    Str.trim cs = cs := by
  have hdrop (l : List Char) (hl : ∀ c ∈ l, Str.isWhitespace c = false) :
      l.dropWhile Str.isWhitespace = l := by
    cases l with
    | nil => rfl
    | cons c l => simp [hl c (List.mem_cons_self ..)]
  unfold Str.trim Str.trimStart
  rw [hdrop cs h, hdrop cs.reverse (by simpa using h), List.reverse_reverse]

def sampleHex : Hex where
  encode bytes := String.ofList
    (bytes.flatMap fun b => [hexDigit (b.toNat / 16), hexDigit (b.toNat % 16)])
  decode text := hexPairs (Str.trim text.toList)
  decode_encode bytes := by
    have hplain : ∀ c ∈ bytes.flatMap (fun b => [hexDigit (b.toNat / 16), hexDigit (b.toNat % 16)]),
        Str.isWhitespace c = false := by
      intro c hc
      obtain ⟨b, -, hc⟩ := List.mem_flatMap.mp hc
      simp only [List.mem_cons, List.not_mem_nil, or_false] at hc
      rcases hc with rfl | rfl
      · exact hexDigit_plain _
      · exact hexDigit_plain _
    rw [String.toList_ofList, trim_of_plain hplain]
    exact hexPairs_encode bytes

/-- A cipher that opens under the key that it sealed with: its tag is half of the key. -/
def keyedDeps : SealDeps where
  hashPassword ikm _ := .ok ikm
  encrypt key _ msg _ := some (msg ++ key.take 16)
  decrypt key _ ct _ :=
    if ct.drop (ct.length - 16) = key.take 16 then some (ct.take (ct.length - 16)) else none
  intoWriter := sampleDeps.intoWriter
  fromReader := sampleDeps.fromReader
  deserialized := sampleDeps.deserialized

theorem tag_of_unseal {blob : Bytes} {key : MasterKey} {cfg : Config}
    (h : keyedDeps.unseal blob key [] = .ok cfg) :
    (blob.drop Seal.header).drop ((blob.drop Seal.header).length - 16) = key.take 16 := by
  by_contra hne
  have hnone (nonce aad : Bytes) : keyedDeps.decrypt key nonce (blob.drop Seal.header) aad = none := if_neg hne
  unfold SealDeps.unseal at h
  split_ifs at h
  rw [except_bind_eq_ok_iff] at h
  obtain ⟨derived, hderived, hopen⟩ := h
  obtain rfl : key = derived := by simpa [deriveKey, keyedDeps] using hderived
  simp [hnone] at hopen

theorem keyedDeps_authenticated : Authenticated keyedDeps := by
  intro blob
  by_cases hzero : ∃ cfg, keyedDeps.unseal blob (List.replicate 32 0) [] = .ok cfg
  · obtain ⟨cfg, hcfg⟩ := hzero
    refine ⟨List.replicate 32 1, rfl, fun cfg' hcfg' => ?_⟩
    have hsame := (tag_of_unseal hcfg).symm.trans (tag_of_unseal hcfg')
    simp at hsame
  · exact ⟨List.replicate 32 0, rfl, fun cfg hcfg => hzero ⟨cfg, hcfg⟩⟩

/-- The empty configuration, sealed under the sample key. -/
def sharedBlob : Bytes :=
  Seal.magic ++ [Seal.version] ++ List.replicate 16 1 ++ List.replicate 12 2 ++
    ([0] ++ List.replicate 16 7)

theorem defaultOs_resolved : KeystoreChoice.defaultOs.Resolved := trivial

/-- One user has set up `/srv/a`; its key is the default entry of the key store. -/
def sharedWorld : KeyWorld where
  disk p := if p = sealedPath "/srv/a" then some sharedBlob else none
  entries e := if e = ("middlewhere", "default") then some (sampleHex.encode sampleKey) else none

theorem sharedWorld_opens :
    OpensWith keyedDeps sampleHex sharedWorld sharedBlob sampleOld .defaultOs := by
  refine ⟨sampleKey, ?_, by decide⟩
  simp [KeystoreChoice.held, KeystoreChoice.defaultOs, sharedWorld, decodeEntry,
    sampleHex.decode_encode]
  rfl

theorem sharedWorld_needs : ¬ Dispensable keyedDeps sampleHex sharedWorld .defaultOs := by
  intro hfree
  obtain ⟨other, hne, hresolved, key, hkey, -⟩ :=
    hfree sharedBlob sampleOld ⟨"/srv/a", Or.inl (by simp [sharedWorld])⟩ sharedWorld_opens
  cases other with
  | os service account =>
    have hpair : (service, account) ≠ ("middlewhere", "default") := by
      rintro ⟨⟩
      exact hne rfl
    simp [KeystoreChoice.held, sharedWorld, hpair] at hkey
  | file path =>
    have hpath : path ≠ sealedPath "/srv/a" := by
      rintro rfl
      simp [KeystoreChoice.Resolved, sealedPath] at hresolved
    simp [KeystoreChoice.held, sharedWorld, hpath] at hkey

/-- The setup of `/srv/b` under the same entry. -/
theorem not_init_keeps_access_shared : ¬ ∀ t out w',
    Exec lookingSem (init sampleHex keyedDeps "/srv/b" .defaultOs) sharedWorld t out w' →
      AccessKept keyedDeps sampleHex sharedWorld w' := by
  intro hkept
  have habsent : lookingSem sharedWorld (.disk (.probe (sealedPath "/srv/b"))) false sharedWorld := by
    refine ⟨⟨⟨rfl, nofun⟩, rfl⟩, fun hsome => ?_⟩
    simp [sharedWorld, sealedPath] at hsome
  obtain ⟨t, out, w', hexec, hlost⟩ := init_can_lose admits_lookingSem keyedDeps_authenticated
    defaultOs_resolved habsent sharedWorld_needs
  exact hlost (hkept t out w' hexec)

theorem init_keeps_access_iff_shared :
    ((∀ t out w', Exec lookingSem (init sampleHex keyedDeps "/srv/b" .defaultOs) sharedWorld t out w' →
      AccessKept keyedDeps sampleHex sharedWorld w') ↔
      (sharedWorld.disk (sealedPath "/srv/b")).isSome ∨
        Dispensable keyedDeps sampleHex sharedWorld .defaultOs) ∧
    ((∀ t out w', Exec keySem (init sampleHex keyedDeps "/srv/b" .defaultOs) sharedWorld t out w' →
      AccessKept keyedDeps sampleHex sharedWorld w') ↔
      Dispensable keyedDeps sampleHex sharedWorld .defaultOs) :=
  init_keeps_access_iff keyedDeps_authenticated defaultOs_resolved sharedWorld

end MiddleWhere.Store
