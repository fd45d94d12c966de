import MiddleWhere.Core.State

/-!
# What a save leaves behind

A save that is cut off, or that fails at one of its steps, leaves the old or the new
configuration under the sealed name, except in one window: once the sealed file has been
renamed to the backup and before the new one has been renamed in, there is no file under
the sealed name, and a load fails.
-/

namespace MiddleWhere.Store
open Prog

variable {deps : SealDeps} {stateDir : String}

@[simp] theorem orIo_ok {α β : Type} (context : String) (a : α) (k : α → StoreProg β) :
    (orIo context (.ok a)).bind k = k a := rfl

@[simp] theorem orIo_error {α β : Type} (context e : String) (k : α → StoreProg β) :
    (orIo context (.error e)).bind k = .halt (.err (.io context e)) := rfl

theorem loadKey_bind {α : Type} (k : MasterKey → StoreProg α) :
    loadKey.bind k = .call (S := storeSig) .loadKey fun
      | .ok key => k key
      | .error e => .halt (.err (.keystore e)) := by
  unfold loadKey perform
  simp only [bind_eq, call_bind, halt_ok_bind]
  congr 1
  funext r
  cases r <;> rfl

/-! ## Loading -/

def opened (deps : SealDeps) (key : MasterKey) (blob : Bytes) : Except StateError Config :=
  match deps.unseal blob key [] with
  | .error e => .error (.sealing e)
  | .ok cfg => match cfg.validate with
    | .error e => .error (.config e)
    | .ok _ => .ok cfg

theorem opened_eq_ok_iff {key : MasterKey} {blob : Bytes} {cfg : Config} :
    opened deps key blob = .ok cfg ↔ unsealed deps key blob = some cfg := by
  unfold opened unsealed
  cases deps.unseal blob key [] with
  | error e => simp
  | ok c =>
    cases hvalid : c.validate with
    | error e => simp [Config.Valid, hvalid]
    | ok u => simp [Config.Valid, hvalid]

theorem loadConfig_eq : loadConfig deps stateDir =
    .call (S := storeSig) (.disk (.read (sealedPath stateDir))) fun
      | .error e => .halt (.err (.io ("read " ++ (sealedPath stateDir).display) e))
      | .ok blob => loadKey.bind fun key => ofExcept (opened deps key blob) := by
  unfold loadConfig disk perform
  simp only [bind_eq, call_bind, halt_ok_bind]
  congr 1
  funext r
  cases r with
  | error e => rfl
  | ok blob =>
    simp only [orIo_ok]
    congr 1
    funext key
    unfold opened
    cases deps.unseal blob key [] with
    | error e => rfl
    | ok cfg => cases hvalid : cfg.validate <;> simp [hvalid, Except.mapError]

theorem loads_iff {w : World} {cfg : Config} :
    Loads deps stateDir w cfg ↔ stored deps stateDir w = some cfg := by
  unfold Loads stored
  rw [loadConfig_eq]
  simp only [loadKey_bind]
  constructor
  · rintro ⟨t, w', h⟩
    obtain ⟨r, w₁, t₁, ⟨⟨⟨hdisk, hread⟩, hkey⟩, -⟩, hrest, -⟩ := exec_call_iff.mp h
    cases r with
    | error e => simp [exec_halt_iff] at hrest
    | ok blob =>
      obtain ⟨r, w₂, t₂, ⟨rfl, rfl⟩, hopen, -⟩ := exec_call_iff.mp hrest
      rw [hread blob rfl, Option.bind_some, ← opened_eq_ok_iff, ← hkey]
      cases hout : opened deps w₂.key blob with
      | error e => simp [hout, exec_halt_iff] at hopen
      | ok c =>
        simp only [hout, ofExcept_ok, exec_halt_iff, Outcome.ok.injEq] at hopen
        rw [hopen.2.1]
  · intro h
    obtain ⟨blob, hblob, hcfg⟩ := Option.bind_eq_some_iff.mp h
    have hread : healthySem w (.disk (.read (sealedPath stateDir))) (.ok blob) w :=
      ⟨⟨⟨rfl, fun text htext => by cases htext; exact hblob⟩, rfl⟩, Or.inr ⟨blob, rfl⟩⟩
    have hkey : healthySem w .loadKey (.ok w.key) w := ⟨rfl, rfl⟩
    have hend : Exec healthySem (Prog.ofExcept (opened deps w.key blob)) w [] (.ok cfg) w := by
      rw [opened_eq_ok_iff.mpr hcfg]
      exact .halt _ _
    exact ⟨_, w, .call hread (.call hkey hend)⟩

/-! ## Saving, cut by cut -/

section
variable (stateDir)

def rotation : Event storeSig :=
  ⟨.disk (.act (.rename (sealedPath stateDir) (backupPath stateDir))), .ok ()⟩

def installation : Event storeSig :=
  ⟨.disk (.act (.rename (tmpPath stateDir) (sealedPath stateDir))), .ok ()⟩

/-- The sealed file was renamed to the backup. -/
def Rotated (t : List (Event storeSig)) : Prop := rotation stateDir ∈ t

/-- The written file was renamed to the sealed name. -/
def Installed (t : List (Event storeSig)) : Prop := installation stateDir ∈ t

end

/-- What a save of `cfg` that began in `w` and got as far as `t` has left in `w'`. -/
structure Cut (deps : SealDeps) (stateDir : String) (cfg : Config) (w : World)
    (t : List (Event storeSig)) (w' : World) : Prop where
  installed : Installed stateDir t → stored deps stateDir w' = some cfg
  rotated : ¬ Installed stateDir t → Rotated stateDir t → stored deps stateDir w' = none
  untouched : ¬ Installed stateDir t → ¬ Rotated stateDir t →
    stored deps stateDir w' = stored deps stateDir w

variable {cfg : Config} {w w₁ w' : World} {t : List (Event storeSig)} {e : Event storeSig}

theorem Cut.nil : Cut deps stateDir cfg w [] w := by
  refine ⟨fun h => ?_, fun _ h => ?_, fun _ _ => rfl⟩
  · cases h
  · cases h

theorem Cut.inert (hrot : e ≠ rotation stateDir) (hinst : e ≠ installation stateDir)
    (hstored : stored deps stateDir w₁ = stored deps stateDir w)
    (h : Cut deps stateDir cfg w₁ t w') : Cut deps stateDir cfg w (e :: t) w' := by
  have hr : Rotated stateDir (e :: t) ↔ Rotated stateDir t := by
    simp [Rotated, List.mem_cons, hrot.symm]
  have hi : Installed stateDir (e :: t) ↔ Installed stateDir t := by
    simp [Installed, List.mem_cons, hinst.symm]
  refine ⟨?_, ?_, ?_⟩
  · rw [hi]; exact h.installed
  · rw [hi, hr]; exact h.rotated
  · rw [hi, hr, ← hstored]; exact h.untouched

theorem Cut.rotation (hstored : stored deps stateDir w₁ = none)
    (h : Cut deps stateDir cfg w₁ t w') : Cut deps stateDir cfg w (rotation stateDir :: t) w' := by
  have hi : Installed stateDir (Store.rotation stateDir :: t) ↔ Installed stateDir t := by
    simp [Installed, installation, Store.rotation, sealedPath, tmpPath, backupPath]
  refine ⟨?_, ?_, ?_⟩
  · rw [hi]; exact h.installed
  · intro hni _
    rw [hi] at hni
    by_cases hr : Rotated stateDir t
    · exact h.rotated hni hr
    · rw [h.untouched hni hr, hstored]
  · intro _ hr
    exact absurd (List.mem_cons_self ..) hr

theorem always_act {α : Type} {context : String} {a : DiskAct Path} {k : Unit → StoreProg α}
    {Q : List (Event storeSig) → World → Prop} :
    always storeSem ((act context a).bind k) Q w ↔ Q [] w ∧
      (∀ w', storeSem w (.disk (.act a)) (.ok ()) w' →
        always storeSem (k ()) (fun t w'' => Q (⟨.disk (.act a), .ok ()⟩ :: t) w'') w') ∧
      (∀ e w', storeSem w (.disk (.act a)) (.error e) w' →
        Q [⟨.disk (.act a), .error e⟩] w') := by
  unfold act disk perform
  simp only [bind_eq, call_bind, halt_ok_bind, always_call]
  refine and_congr_right fun _ => ?_
  constructor
  · intro h
    exact ⟨fun w' hM => by simpa using h (.ok ()) w' hM,
      fun e w' hM => by simpa [always_halt] using h (.error e) w' hM⟩
  · rintro ⟨hok, herr⟩ r w' hM
    cases r with
    | ok u => simpa using hok w' hM
    | error e => simpa [always_halt] using herr e w' hM

theorem act_step {a : DiskAct Path} {r : Except String Unit}
    (h : storeSem w (.disk (.act a)) r w') : w.disk.Act a r w'.disk := h.1

theorem stored_congr (hdisk : w'.disk = w.disk) (hkey : w'.key = w.key) :
    stored deps stateDir w' = stored deps stateDir w := by
  unfold stored
  rw [hdisk, hkey]

theorem stored_of_frame {a : DiskAct Path} {r : Except String Unit}
    (ha : sealedPath stateDir ∉ a.touched) (h : storeSem w (.disk (.act a)) r w') :
    stored deps stateDir w' = stored deps stateDir w := by
  unfold stored
  rw [h.1.frame ha, h.2]

theorem always_inert {α : Type} {context : String} {a : DiskAct Path} {k : Unit → StoreProg α}
    (ha : sealedPath stateDir ∉ a.touched)
    (hk : ∀ w', storeSem w (.disk (.act a)) (.ok ()) w' →
      always storeSem (k ()) (Cut deps stateDir cfg w') w') :
    always storeSem ((act context a).bind k) (Cut deps stateDir cfg w) w := by
  have hrot : ∀ r, (⟨.disk (.act a), r⟩ : Event storeSig) ≠ rotation stateDir := by
    intro r h
    cases h
    simp [DiskAct.touched] at ha
  have hinst : ∀ r, (⟨.disk (.act a), r⟩ : Event storeSig) ≠ installation stateDir := by
    intro r h
    cases h
    simp [DiskAct.touched] at ha
  rw [always_act]
  refine ⟨.nil, fun w' hM => ?_, fun e w' hM => ?_⟩
  · exact always_mono (hk w' hM) fun t w'' h =>
      .inert (hrot _) (hinst _) (stored_of_frame ha hM) h
  · exact .inert (hrot _) (hinst _) (stored_of_frame ha hM) .nil

theorem path_ne {dir a b : String} (h : a ≠ b) : (⟨dir, a⟩ : Path) ≠ ⟨dir, b⟩ := by
  simpa using h

theorem install_cut {context : String} {blob : Bytes} (htmp : w.disk (tmpPath stateDir) = some blob)
    (hblob : unsealed deps w.key blob = some cfg) :
    always storeSem (act context (.rename (tmpPath stateDir) (sealedPath stateDir)))
      (Cut deps stateDir cfg w) w := by
  rw [← bind_ok (act _ _), always_act]
  refine ⟨.nil, fun w' hM => ?_, fun e w' hM => ?_⟩
  · rw [always_halt]
    have hsealed : stored deps stateDir w' = some cfg := by
      unfold stored
      rw [(act_step hM).rename_ok, htmp, hM.2]
      exact hblob
    have hi : Installed stateDir [installation stateDir] := List.mem_singleton.mpr rfl
    exact ⟨fun _ => hsealed, fun h => absurd hi h, fun h => absurd hi h⟩
  · have hsame : stored deps stateDir w' = stored deps stateDir w := stored_congr hM.1 hM.2
    exact .inert (by simp [rotation]) (by simp [installation]) hsame .nil

theorem writeAtomic_cut {blob : Bytes} (hblob : unsealed deps w.key blob = some cfg) :
    always storeSem (writeAtomic stateDir "config.sealed" blob) (Cut deps stateDir cfg w) w := by
  have hne : sealedPath stateDir ≠ tmpPath stateDir := path_ne (by decide)
  unfold writeAtomic
  refine always_inert (by simp [DiskAct.touched]) fun w₁ h₁ => ?_
  refine always_inert (by simpa [DiskAct.touched] using hne) fun w₂ h₂ => ?_
  refine always_inert (by simpa [DiskAct.touched] using hne) fun w₃ h₃ => ?_
  refine always_inert (by simp [DiskAct.touched]) fun w₄ h₄ => ?_
  have htmp : w₄.disk (tmpPath stateDir) = some blob := by
    rw [(act_step h₄).frame (by simp [DiskAct.touched]), (act_step h₃).write_ok]
  have hkey : w₄.key = w.key := by rw [h₄.2, h₃.2, h₂.2, h₁.2]
  exact install_cut htmp (hkey ▸ hblob)

/-- The rotation is the one step that empties the sealed name. -/
theorem rotate_cut {k : Unit → StoreProg Unit}
    (hk : ∀ w', w'.key = w.key → always storeSem (k ()) (Cut deps stateDir cfg w') w') :
    always storeSem ((rotate stateDir).bind k) (Cut deps stateDir cfg w) w := by
  unfold rotate disk perform
  simp only [bind_eq, call_bind, halt_ok_bind, always_call]
  refine ⟨.nil, fun found w₁ hprobe => ?_⟩
  have hkey₁ : w₁.key = w.key := hprobe.2
  have hstored₁ : stored deps stateDir w₁ = stored deps stateDir w :=
    stored_congr hprobe.1.1 hkey₁
  cases found with
  | false =>
    refine always_mono (hk w₁ hkey₁) fun t w' h => ?_
    exact .inert (by simp [rotation]) (by simp [installation]) hstored₁ h
  | true =>
    refine always_mono ?_ fun t w' h =>
      .inert (by simp [rotation]) (by simp [installation]) hstored₁ h
    simp only [if_true, call_bind, always_call]
    refine ⟨.nil, fun removed w₂ hremove => ?_⟩
    have hkey₂ : w₂.key = w₁.key := hremove.2
    have hstored₂ : stored deps stateDir w₂ = stored deps stateDir w₁ := by
      refine stored_of_frame ?_ hremove
      have hne : sealedPath stateDir ≠ backupPath stateDir := path_ne (by decide)
      simpa [DiskAct.touched] using hne
    refine always_mono ?_ fun t w' h =>
      .inert (by simp [rotation]) (by simp [installation]) hstored₂ h
    rw [always_act]
    refine ⟨.nil, fun w₃ hrename => ?_, fun e w₃ hrename => ?_⟩
    · have hkey₃ : w₃.key = w.key := by rw [hrename.2, hkey₂, hkey₁]
      have hgone : stored deps stateDir w₃ = none := by
        have hne : sealedPath stateDir ≠ backupPath stateDir := path_ne (by decide)
        unfold stored
        rw [(act_step hrename).rename_ok_src hne, Option.bind_none]
      exact always_mono (hk w₃ hkey₃) fun t w' h => h.rotation hgone
    · exact .inert (by simp [rotation]) (by simp [installation])
        (stored_congr hrename.1 hrename.2) .nil

theorem unsealed_of_seal (hdeps : deps.Lawful) (hvalid : cfg.Valid) {salt nonce blob : Bytes}
    {key : MasterKey} (hsalt : salt.length = Seal.saltLen) (hnonce : nonce.length = Seal.nonceLen)
    (hseal : deps.seal salt nonce cfg key [] = .ok blob) : unsealed deps key blob = some cfg := by
  have hopen := unseal_seal hdeps hsalt hnonce (Config.schemaVersion_of_valid hvalid) hseal
  simp [unsealed, hopen, hvalid]

theorem sealWith_cut (hdeps : deps.Lawful) (hvalid : cfg.Valid) {k : Bytes → StoreProg Unit}
    (hk : ∀ blob, unsealed deps w.key blob = some cfg →
      always storeSem (k blob) (Cut deps stateDir cfg w) w) :
    always storeSem ((sealWith deps cfg w.key).bind k) (Cut deps stateDir cfg w) w := by
  unfold sealWith perform
  simp only [bind_eq, call_bind, halt_ok_bind, always_call]
  refine ⟨.nil, fun salt w₁ hsalt => ⟨?_, fun nonce w₂ hnonce => ?_⟩⟩
  · exact .inert (by simp [rotation]) (by simp [installation]) rfl (hsalt.1 ▸ .nil)
  · obtain ⟨rfl, hsalt⟩ := hsalt
    obtain ⟨rfl, hnonce⟩ := hnonce
    refine always_mono ?_ fun t w' h =>
      .inert (by simp [rotation]) (by simp [installation]) rfl
        (.inert (by simp [rotation]) (by simp [installation]) rfl h)
    cases hseal : deps.seal salt nonce cfg w₂.key [] with
    | error e => simpa [hseal, Except.mapError, always_halt] using .nil
    | ok blob =>
      have hblob := unsealed_of_seal hdeps hvalid hsalt hnonce hseal
      simpa [hseal, Except.mapError] using hk blob hblob

theorem saveConfig_cut (hdeps : deps.Lawful) (w : World) :
    always storeSem (saveConfig deps stateDir cfg) (Cut deps stateDir cfg w) w := by
  unfold saveConfig
  cases hvalidate : cfg.validate with
  | error e => simpa [Except.mapError, always_halt] using .nil
  | ok u =>
    have hvalid : cfg.Valid := hvalidate
    simp only [Except.mapError, ofExcept_ok, bind_eq, halt_ok_bind, loadKey_bind, always_call]
    refine ⟨.nil, fun r w₁ hkey => ?_⟩
    obtain ⟨rfl, hr⟩ := hkey
    refine always_mono ?_ fun t w' h =>
      .inert (by simp [rotation]) (by simp [installation]) rfl h
    cases r with
    | error e => simpa [always_halt] using .nil
    | ok key =>
      obtain rfl := hr key rfl
      refine sealWith_cut hdeps hvalid fun blob hblob => rotate_cut fun w₂ hkey₂ => ?_
      exact writeAtomic_cut (hkey₂ ▸ hblob)

/-! ## Saves that return -/

/-- The installation is the last step: a save that made it returns `Ok`. -/
def InstalledOk (stateDir : String) (t : List (Event storeSig)) (out : Outcome StateError Unit)
    (_ : World) : Prop :=
  Installed stateDir t → out = .ok ()

theorem installedOk_nil {out : Outcome StateError Unit} : InstalledOk stateDir [] out w :=
  fun h => absurd h List.not_mem_nil

theorem wp_installedOk_call {o : StoreOp} {k : o.Res → StoreProg Unit}
    (ho : ∀ r, (⟨o, r⟩ : Event storeSig) ≠ installation stateDir)
    (hk : ∀ r w', wp storeSem (k r) (InstalledOk stateDir) w') :
    wp storeSem (.call o k) (InstalledOk stateDir) w := by
  rw [wp_call]
  intro r w' _
  refine wp_mono (hk r w') fun t out w'' h hinst => h ?_
  have hmem : installation stateDir ∈ (⟨o, r⟩ : Event storeSig) :: t := hinst
  exact (List.mem_cons.mp hmem).resolve_left (ho r).symm

theorem wp_installedOk_act {context : String} {a : DiskAct Path} {k : Unit → StoreProg Unit}
    (ha : a ≠ .rename (tmpPath stateDir) (sealedPath stateDir))
    (hk : ∀ w', wp storeSem (k ()) (InstalledOk stateDir) w') :
    wp storeSem ((act context a).bind k) (InstalledOk stateDir) w := by
  unfold act disk perform
  simp only [bind_eq, call_bind, halt_ok_bind]
  refine wp_installedOk_call (fun r h => ha ?_) fun r w' => ?_
  · cases h
    rfl
  · cases r with
    | ok u => simpa using hk w'
    | error e => simpa [wp_halt] using installedOk_nil

theorem writeAtomic_installedOk {blob : Bytes} :
    wp storeSem (writeAtomic stateDir "config.sealed" blob) (InstalledOk stateDir) w := by
  unfold writeAtomic
  refine wp_installedOk_act (by simp) fun w₁ => ?_
  refine wp_installedOk_act (by simp) fun w₂ => ?_
  refine wp_installedOk_act (by simp) fun w₃ => ?_
  refine wp_installedOk_act (by simp) fun w₄ => ?_
  unfold act disk perform
  simp only [bind_eq, call_bind, halt_ok_bind, wp_call]
  intro r w' _
  cases r with
  | ok u => exact wp_halt.mpr fun _ => rfl
  | error e =>
    refine wp_halt.mpr fun h => ?_
    cases List.mem_singleton.mp h

theorem rotate_installedOk {k : Unit → StoreProg Unit}
    (hk : ∀ w', wp storeSem (k ()) (InstalledOk stateDir) w') :
    wp storeSem ((rotate stateDir).bind k) (InstalledOk stateDir) w := by
  have hne : backupPath stateDir ≠ sealedPath stateDir := path_ne (by decide)
  unfold rotate disk perform
  simp only [bind_eq, call_bind, halt_ok_bind]
  refine wp_installedOk_call (by simp [installation]) fun found w₁ => ?_
  cases found with
  | false => simpa using hk w₁
  | true =>
    simp only [if_true, call_bind]
    refine wp_installedOk_call (by simp [installation]) fun removed w₂ => ?_
    exact wp_installedOk_act (by simp [hne]) fun w₃ => hk w₃

theorem saveConfig_installedOk :
    wp storeSem (saveConfig deps stateDir cfg) (InstalledOk stateDir) w := by
  unfold saveConfig sealWith perform
  cases cfg.validate with
  | error e => simpa [Except.mapError, wp_halt] using installedOk_nil
  | ok u =>
    simp only [Except.mapError, ofExcept_ok, bind_eq, halt_ok_bind, loadKey_bind, call_bind]
    refine wp_installedOk_call (by simp [installation]) fun r w₁ => ?_
    cases r with
    | error e => simpa [wp_halt] using installedOk_nil
    | ok key =>
      refine wp_installedOk_call (by simp [installation]) fun salt w₂ => ?_
      refine wp_installedOk_call (by simp [installation]) fun nonce w₃ => ?_
      cases deps.seal salt nonce cfg key [] with
      | error e => simpa [wp_halt] using installedOk_nil
      | ok blob => exact rotate_installedOk fun w₄ => writeAtomic_installedOk

/-! ## Atomicity -/

/-- Whatever happens to a save of `new`, a load finds `old` or `new` afterwards, and `old`
if the save returned an error. -/
def SaveAtomic (deps : SealDeps) (stateDir : String) (w : World) (old new : Config) : Prop :=
  (∀ t w', Stops storeSem (saveConfig deps stateDir new) w t w' →
    Loads deps stateDir w' old ∨ Loads deps stateDir w' new) ∧
  ∀ t e w', Exec storeSem (saveConfig deps stateDir new) w t (.err e) w' →
    Loads deps stateDir w' old

/-- A save keeps the store whole exactly as long as it is not stopped between its renames. -/
theorem saveConfig_atomic_iff {old new : Config} (hdeps : deps.Lawful)
    (hold : Loads deps stateDir w old) :
    (∀ t w', Stops storeSem (saveConfig deps stateDir new) w t w' →
      ((Loads deps stateDir w' old ∨ Loads deps stateDir w' new) ↔
        (Rotated stateDir t → Installed stateDir t))) ∧
    ∀ t e w', Exec storeSem (saveConfig deps stateDir new) w t (.err e) w' →
      (Loads deps stateDir w' old ↔ ¬ Rotated stateDir t) := by
  simp only [loads_iff] at hold ⊢
  constructor
  · intro t w' hstops
    have hcut : Cut deps stateDir new w t w' := saveConfig_cut hdeps w t w' hstops
    by_cases hi : Installed stateDir t
    · simp [hi, hcut.installed hi]
    · by_cases hr : Rotated stateDir t
      · simp [hi, hr, hcut.rotated hi hr]
      · simp [hr, hcut.untouched hi hr, hold]
  · intro t e w' hexec
    have hcut : Cut deps stateDir new w t w' := saveConfig_cut hdeps w t w' hexec.stops
    have hi : ¬ Installed stateDir t := fun h => by
      cases saveConfig_installedOk t _ w' hexec h
    by_cases hr : Rotated stateDir t
    · simp [hr, hcut.rotated hi hr]
    · simp [hr, hcut.untouched hi hr, hold]

/-! ## A save that is cut off after the rotation -/

def sampleDir : String := "/var/lib/middlewhere"

def sampleKey : MasterKey := List.replicate 32 7

def sampleOld : Config := {}

def sampleNew : Config := { credentials := (∅ : Table Credential).insert "c" ⟨"u", "pw"⟩ }

def sampleValue (credentials : List (Cbor × Cbor)) : Cbor :=
  .map [(.text "schema_version", .integer 2), (.text "bastions", .map []),
    (.text "credentials", .map credentials), (.text "envs", .map [])]

def sampleCredential : Cbor :=
  .map [(.text "backend_user", .text "u"), (.text "backend_password", .text "pw")]

/-- A serializer for the two sample configurations, and a cipher that only adds a tag. -/
def sampleDeps : SealDeps where
  hashPassword ikm _ := .ok ikm
  encrypt _ _ msg _ := some (msg ++ List.replicate 16 0)
  decrypt _ _ ct _ := some (ct.take (ct.length - 16))
  intoWriter cfg :=
    if cfg = sampleOld then .ok [0] else if cfg = sampleNew then .ok [1] else .error "unknown"
  fromReader
    | [0] => .ok (sampleValue [])
    | [1] => .ok (sampleValue [(.text "c", sampleCredential)])
    | _ => .error "unknown"
  deserialized
    | .map [_, _, (_, .map []), _] => .ok sampleOld
    | .map [_, _, (_, .map [_]), _] => .ok sampleNew
    | _ => .error "unknown"

theorem sampleDeps_lawful : sampleDeps.Lawful where
  decrypt_encrypt := by
    intro key nonce msg aad ct h
    obtain rfl : msg ++ List.replicate 16 0 = ct := by simpa [sampleDeps] using h
    simp [sampleDeps]
  length_encrypt := by
    intro key nonce msg aad ct h
    obtain rfl : msg ++ List.replicate 16 0 = ct := by simpa [sampleDeps] using h
    simp
  read_back := by
    intro cfg plaintext h
    simp only [sampleDeps] at h
    split_ifs at h with hold hnew
    · cases h
      exact ⟨sampleValue [], rfl, by rw [hold]; rfl, by rw [hold]; rfl⟩
    · cases h
      exact ⟨sampleValue [(.text "c", sampleCredential)], rfl, by rw [hnew]; rfl,
        by rw [hnew]; rfl⟩

def sampleBlob (plaintext : Bytes) : Bytes :=
  Seal.magic ++ [Seal.version] ++ List.replicate 16 1 ++ List.replicate 12 2 ++
    (plaintext ++ List.replicate 16 0)

def sampleWorld : World where
  disk p := if p = sealedPath sampleDir then some (sampleBlob [0]) else none
  key := sampleKey

theorem sampleWorld_loads : Loads sampleDeps sampleDir sampleWorld sampleOld := by
  rw [loads_iff]
  decide

theorem saveConfig_atomic_iff_sample :
    (∀ t w', Stops storeSem (saveConfig sampleDeps sampleDir sampleNew) sampleWorld t w' →
      ((Loads sampleDeps sampleDir w' sampleOld ∨ Loads sampleDeps sampleDir w' sampleNew) ↔
        (Rotated sampleDir t → Installed sampleDir t))) ∧
    ∀ t e w', Exec storeSem (saveConfig sampleDeps sampleDir sampleNew) sampleWorld t (.err e) w' →
      (Loads sampleDeps sampleDir w' sampleOld ↔ ¬ Rotated sampleDir t) :=
  saveConfig_atomic_iff sampleDeps_lawful sampleWorld_loads

def rotatedWorld : World where
  disk := Function.update (Function.update sampleWorld.disk (sealedPath sampleDir) none)
    (backupPath sampleDir) (some (sampleBlob [0]))
  key := sampleKey

/-- The save of the new configuration, up to and with the rotation. -/
theorem rotatedWorld_reached : ∃ t,
    Stops storeSem (saveConfig sampleDeps sampleDir sampleNew) sampleWorld t rotatedWorld := by
  have hvalid : sampleNew.validate = .ok () := by decide
  have hseal : sampleDeps.seal (List.replicate 16 1) (List.replicate 12 2) sampleNew sampleKey [] =
      .ok (sampleBlob [1]) := by decide
  have hsealed : sampleWorld.disk (sealedPath sampleDir) = some (sampleBlob [0]) := by
    simp [sampleWorld]
  unfold saveConfig sealWith rotate disk perform
  simp only [hvalid, Except.mapError, ofExcept_ok, bind_eq, halt_ok_bind, loadKey_bind, call_bind]
  refine exists_stops_call (Except.ok sampleKey) ⟨rfl, fun key h => by cases h; rfl⟩ ?_
  refine exists_stops_call (List.replicate 16 1) ⟨rfl, rfl⟩ ?_
  refine exists_stops_call (List.replicate 12 2) ⟨rfl, rfl⟩ ?_
  simp only [hseal, ofExcept_ok, halt_ok_bind]
  refine exists_stops_call true ⟨⟨rfl, fun _ => by simp [hsealed]⟩, rfl⟩ ?_
  simp only [if_true, call_bind]
  refine exists_stops_call (Except.error "not found") ⟨rfl, rfl⟩ ?_
  unfold act disk perform
  simp only [bind_eq, call_bind, halt_ok_bind]
  have hrename : storeSem sampleWorld
      (.disk (.act (.rename (sealedPath sampleDir) (backupPath sampleDir)))) (Except.ok ())
      rotatedWorld := ⟨⟨sampleBlob [0], hsealed, rfl⟩, rfl⟩
  exact exists_stops_call (Except.ok ()) hrename ⟨[], .here _ _⟩

theorem not_saveAtomic_sample :
    ¬ SaveAtomic sampleDeps sampleDir sampleWorld sampleOld sampleNew := by
  intro h
  obtain ⟨t, ht⟩ := rotatedWorld_reached
  have hgone : stored sampleDeps sampleDir rotatedWorld = none := by
    have hne : sealedPath sampleDir ≠ backupPath sampleDir := path_ne (by decide)
    simp [stored, rotatedWorld, Function.update_of_ne hne]
  have hloads := h.1 t rotatedWorld ht
  simp [loads_iff, hgone] at hloads

end MiddleWhere.Store
