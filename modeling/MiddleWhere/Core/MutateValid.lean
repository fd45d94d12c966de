import MiddleWhere.Core.ConfigValid
import MiddleWhere.Core.Mutate
import MiddleWhere.Core.StateAtomic

/-!
# Transforms keep the configuration whole

Every transform leaves a well-formed configuration or refuses and leaves the one it was
given, so a run of transforms from the empty configuration never leaves the well-formed
ones. A transform that goes through the store has its result validated once more before
anything is written.
-/

namespace MiddleWhere
open Std (ExtTreeMap)

namespace Mutate
open Transform

variable {deps : MutateDeps} {cfg : Config}

/-! ## Each transform -/

theorem refuseAny_atomic {α : Type} {hit : α → Bool} {reason : α → String}
    {Q : Unit → Config → Prop} (xs : List α) (hok : (∀ x ∈ xs, hit x = false) → Q () cfg) :
    (refuseAny hit reason xs).Atomic cfg Q := by
  induction xs with
  | nil => exact hok (by simp)
  | cons x xs ih =>
    simp only [refuseAny, ensures_ite, ensures_throw]
    refine ⟨fun _ => trivial, fun hx => ih fun hxs => hok ?_⟩
    simpa [hx] using hxs

theorem usersOf_eq_nil_iff {refers : Env → Bool} : usersOf cfg refers = [] ↔
    ∀ (n : String) (env : Env), cfg.envs[n]? = some env → refers env = false := by
  simp [usersOf]

theorem mem_usedPorts_iff {p : UInt16} : p ∈ usedPorts cfg ↔
    ∃ (n : String) (env : Env), cfg.envs[n]? = some env ∧ env.listenPort = p := by
  simp [usedPorts]

theorem addBastion_atomic (h : cfg.WellFormed) (args : BastionAddArgs) :
    (addBastion deps args).Atomic cfg fun _ cfg' => cfg'.WellFormed := by
  unfold addBastion Atomic
  by_cases hname : args.name ∈ cfg.bastions
  · simp [hname]
  · simpa [hname] using h.insertBastion _ _

theorem setFingerprint_atomic (h : cfg.WellFormed) (name : String) (fp : HostKeyFingerprint) :
    (setFingerprint deps name fp).Atomic cfg fun _ cfg' => cfg'.WellFormed := by
  unfold setFingerprint Atomic
  cases hname : cfg.bastions[name]? with
  | none => simp [hname]
  | some b => simpa [hname] using h.insertBastion name { b with pinnedHostKeys := [fp] }

theorem rmBastion_atomic (h : cfg.WellFormed) (name : String) :
    (rmBastion deps name).Atomic cfg fun _ cfg' => cfg'.WellFormed := by
  have hwf : usersOf cfg (fun e => e.bastion == some name) = [] →
      { cfg with bastions := cfg.bastions.erase name }.WellFormed := by
    intro hfree
    apply h.eraseBastion
    intro n env he
    simpa using usersOf_eq_nil_iff.mp hfree n env he
  have hsame : name ∉ cfg.bastions → { cfg with bastions := cfg.bastions.erase name } = cfg := by
    intro hnot
    rw [Tables.erase_of_not_mem hnot]
  unfold rmBastion Atomic
  simpa using fun hfree => ⟨fun _ => hwf hfree, hsame⟩

theorem addCred_atomic (h : cfg.WellFormed) (name user password : String) :
    (addCred deps name user password).Atomic cfg fun _ cfg' => cfg'.WellFormed := by
  unfold addCred Atomic
  by_cases hname : name ∈ cfg.credentials
  · simp [hname]
  · simpa [hname] using h.insertCredential name _

theorem rotateCred_atomic (h : cfg.WellFormed) (name password : String) :
    (rotateCred deps name password).Atomic cfg fun _ cfg' => cfg'.WellFormed := by
  unfold rotateCred Atomic
  cases hname : cfg.credentials[name]? with
  | none => simp [hname]
  | some c => simpa [hname] using h.insertCredential name { c with backendPassword := password }

theorem rmCred_atomic (h : cfg.WellFormed) (name : String) :
    (rmCred deps name).Atomic cfg fun _ cfg' => cfg'.WellFormed := by
  have hwf : usersOf cfg (fun e => e.credential == name) = [] →
      { cfg with credentials := cfg.credentials.erase name }.WellFormed := by
    intro hfree
    apply h.eraseCredential
    intro n env he
    simpa using usersOf_eq_nil_iff.mp hfree n env he
  have hsame : name ∉ cfg.credentials →
      { cfg with credentials := cfg.credentials.erase name } = cfg := by
    intro hnot
    rw [Tables.erase_of_not_mem hnot]
  unfold rmCred Atomic
  simpa using fun hfree => ⟨fun _ => hwf hfree, hsame⟩

/-- The port is the requested one or one of the client range, and no environment has it. -/
theorem choosePort_atomic {requested : Option UInt16} {Q : UInt16 → Config → Prop}
    (hok : ∀ p, p ∉ usedPorts cfg → Q p cfg) : (choosePort cfg requested).Atomic cfg Q := by
  unfold choosePort
  cases requested with
  | some p =>
    by_cases hused : p ∈ usedPorts cfg
    · simp [hused]
    · simpa [hused] using hok p hused
  | none =>
    cases hpick : pickFreePort cfg with
    | none => simp
    | some p =>
      have hfree : p ∉ usedPorts cfg := by simpa using List.find?_some hpick
      simpa using hok p hfree

/-- What an `add_env` that is not refused has checked, and what it inserts. -/
theorem addEnv_spec {raw : Bytes} {args : EnvAddArgs} {Q : NewEnvOutput → Config → Prop}
    (hok : ∀ p, args.engine ≠ .msSql → args.name ∉ cfg.envs → args.credential ∈ cfg.credentials →
      (∀ b, args.bastion = some b → b ∈ cfg.bastions) → p ∉ usedPorts cfg →
      Q ⟨Token.generateToken raw, p, args.engine, args.defaultDatabase⟩
        { cfg with
          envs := cfg.envs.insert args.name (args.env deps (Token.generateToken raw) p) }) :
    (addEnv deps raw args).Atomic cfg Q := by
  unfold addEnv Atomic
  cases hb : args.bastion with
  | none =>
    simp only [ensures_bind, ensures_ite, ensures_throw, ensures_get, implies_true, true_and]
    intro hengine hname hcred
    apply choosePort_atomic
    intro p hfree
    exact hok p hengine hname (not_not.mp hcred) (by simp [hb]) hfree
  | some b =>
    simp only [ensures_bind, ensures_ite, ensures_throw, ensures_get, implies_true, true_and]
    intro hengine hname hcred hbastion
    apply choosePort_atomic
    intro p hfree
    have hresolves : ∀ b', args.bastion = some b' → b' ∈ cfg.bastions := by
      simpa [hb] using hbastion
    exact hok p hengine hname (not_not.mp hcred) hresolves hfree

theorem addEnv_atomic (h : cfg.WellFormed) (raw : Bytes) (args : EnvAddArgs) :
    (addEnv deps raw args).Atomic cfg fun _ cfg' => cfg'.WellFormed := by
  apply addEnv_spec
  intro p _ _ hcred hbastion hfree
  apply h.insertEnv hbastion hcred (Token.authMatches_clientAuthFor ..)
  intro n e he _ heq
  exact hfree (mem_usedPorts_iff.mpr ⟨n, e, he, heq⟩)

theorem rmEnv_spec {name : String} : (rmEnv deps name).Atomic cfg fun _ cfg' =>
    cfg' = { cfg with envs := cfg.envs.erase name } := by
  have hsame : name ∉ cfg.envs → { cfg with envs := cfg.envs.erase name } = cfg := by
    intro hnot
    rw [Tables.erase_of_not_mem hnot]
  unfold rmEnv Atomic
  simpa using hsame

theorem rmEnv_atomic (h : cfg.WellFormed) (name : String) :
    (rmEnv deps name).Atomic cfg fun _ cfg' => cfg'.WellFormed :=
  rmEnv_spec.mono fun _ _ hcfg => hcfg ▸ h.eraseEnv name

theorem grantEnv_spec {raw : Bytes} {name : String} {Q : NewEnvOutput → Config → Prop}
    (hok : ∀ env, cfg.envs[name]? = some env →
      Q ⟨Token.generateToken raw, env.listenPort, env.engine, env.defaultDatabase⟩
        { cfg with
          envs := cfg.envs.insert name { env with
            clientAuth := Token.clientAuthFor deps.hashes env.engine (Token.generateToken raw) } }) :
    (grantEnv deps raw name).Atomic cfg Q := by
  unfold grantEnv Atomic
  cases hname : cfg.envs[name]? with
  | none => simp [hname]
  | some env => simpa [hname] using hok env hname

theorem grantEnv_atomic (h : cfg.WellFormed) (raw : Bytes) (name : String) :
    (grantEnv deps raw name).Atomic cfg fun _ cfg' => cfg'.WellFormed := by
  apply grantEnv_spec
  intro env hname
  exact h.updateEnv hname rfl rfl rfl (Token.authMatches_clientAuthFor ..)

theorem setPolicy_atomic (h : cfg.WellFormed) (name : String) (target : PolicyTarget) :
    (setPolicy deps name target).Atomic cfg fun _ cfg' => cfg'.WellFormed := by
  unfold setPolicy Atomic
  cases hname : cfg.envs[name]? with
  | none => simp [hname]
  | some env =>
    have hwf : { cfg with envs := cfg.envs.insert name { env with policy := target.policy } }.WellFormed :=
      h.updateEnv hname rfl rfl rfl (h.auths name env hname)
    simpa [hname] using hwf

/-! ## Imports -/

structure Merged (existing fragment cfg : Config) : Prop where
  schema : cfg.schemaVersion = existing.schemaVersion
  bastions : Tables.DisjointUnion existing.bastions fragment.bastions cfg.bastions
  credentials : Tables.DisjointUnion existing.credentials fragment.credentials cfg.credentials
  envs : Tables.DisjointUnion existing.envs fragment.envs cfg.envs
  ports : ∀ p ∈ usedPorts fragment, p ∉ usedPorts existing

/-- A merge refuses unless the two are disjoint, valid or not. -/
theorem mergeImport_atomic (cfg fragment : Config) :
    (mergeImport deps fragment).Atomic cfg fun _ cfg' => Merged cfg fragment cfg' := by
  unfold mergeImport Atomic
  simp only [ensures_bind, ensures_get]
  apply refuseAny_atomic
  intro hbastions
  apply refuseAny_atomic
  intro hcredentials
  apply refuseAny_atomic
  intro henvs
  apply refuseAny_atomic
  intro hports
  exact {
    schema := rfl
    bastions := Tables.disjointUnion_union (by simpa using hbastions)
    credentials := Tables.disjointUnion_union (by simpa using hcredentials)
    envs := Tables.disjointUnion_union (by simpa using henvs)
    ports := by simpa using hports }

theorem Merged.wellFormed {existing fragment cfg : Config} (h : Merged existing fragment cfg)
    (hexisting : existing.WellFormed) (hfragment : fragment.WellFormed) : cfg.WellFormed where
  schema := h.schema.trans hexisting.schema
  bastions name env b henv hb := by
    rcases (h.envs.lookup name env).mp henv with henv | henv
    · exact h.bastions.mem_iff.mpr (Or.inl (hexisting.bastions name env b henv hb))
    · exact h.bastions.mem_iff.mpr (Or.inr (hfragment.bastions name env b henv hb))
  credentials name env henv := by
    rcases (h.envs.lookup name env).mp henv with henv | henv
    · exact h.credentials.mem_iff.mpr (Or.inl (hexisting.credentials name env henv))
    · exact h.credentials.mem_iff.mpr (Or.inr (hfragment.credentials name env henv))
  auths name env henv := by
    rcases (h.envs.lookup name env).mp henv with henv | henv
    · exact hexisting.auths name env henv
    · exact hfragment.auths name env henv
  ports := by
    apply hexisting.ports.union h.envs hfragment.ports
    intro n n' e e' he he' heq
    exact h.ports _ (mem_usedPorts_iff.mpr ⟨n', e', he', rfl⟩) (mem_usedPorts_iff.mpr ⟨n, e, he, heq⟩)

/-! ## Runs of transforms -/

/-- One call of a transform, with its arguments. -/
inductive Change
  | addBastion (args : BastionAddArgs)
  | setFingerprint (name : String) (fingerprint : HostKeyFingerprint)
  | rmBastion (name : String)
  | addCred (name backendUser password : String)
  | rotateCred (name newPassword : String)
  | rmCred (name : String)
  | addEnv (raw : Bytes) (args : EnvAddArgs)
  | rmEnv (name : String)
  | grantEnv (raw : Bytes) (name : String)
  | setPolicy (envName : String) (target : PolicyTarget)
  | mergeImport (fragment : Config)

def Change.transform (deps : MutateDeps) : Change → ConfigTransform Unit
  | .addBastion args => Mutate.addBastion deps args
  | .setFingerprint name fingerprint => Mutate.setFingerprint deps name fingerprint
  | .rmBastion name => Mutate.rmBastion deps name
  | .addCred name backendUser password => Mutate.addCred deps name backendUser password
  | .rotateCred name newPassword => Mutate.rotateCred deps name newPassword
  | .rmCred name => Mutate.rmCred deps name
  | .addEnv raw args => discard (Mutate.addEnv deps raw args)
  | .rmEnv name => Mutate.rmEnv deps name
  | .grantEnv raw name => discard (Mutate.grantEnv deps raw name)
  | .setPolicy envName target => Mutate.setPolicy deps envName target
  | .mergeImport fragment => Mutate.mergeImport deps fragment

/-- The fragment of an import, if there is one, passes `validate` by itself. -/
def Change.Admissible : Change → Prop
  | .mergeImport fragment => fragment.Valid
  | _ => True

theorem Change.atomic (h : cfg.WellFormed) (change : Change) (hadm : change.Admissible) :
    (change.transform deps).Atomic cfg fun _ cfg' => cfg'.WellFormed := by
  cases change with
  | addBastion args => exact addBastion_atomic h args
  | setFingerprint name fingerprint => exact setFingerprint_atomic h name fingerprint
  | rmBastion name => exact rmBastion_atomic h name
  | addCred name backendUser password => exact addCred_atomic h name backendUser password
  | rotateCred name newPassword => exact rotateCred_atomic h name newPassword
  | rmCred name => exact rmCred_atomic h name
  | addEnv raw args => exact ensures_map.mpr (addEnv_atomic h raw args)
  | rmEnv name => exact rmEnv_atomic h name
  | grantEnv raw name => exact ensures_map.mpr (grantEnv_atomic h raw name)
  | setPolicy envName target => exact setPolicy_atomic h envName target
  | mergeImport fragment =>
    have hfragment : fragment.WellFormed := Config.valid_iff.mp hadm
    exact (mergeImport_atomic cfg fragment).mono fun _ _ hmerged => hmerged.wellFormed h hfragment

/-- The configurations that a run of transforms reaches from the empty one. -/
inductive Reached (deps : MutateDeps) : Config → Prop
  | empty : Reached deps {}
  | step {cfg : Config} (change : Change) : Reached deps cfg → change.Admissible →
      Reached deps ((change.transform deps).exec cfg).2

theorem Reached.wellFormed (h : Reached deps cfg) : cfg.WellFormed := by
  induction h with
  | empty => exact Config.WellFormed.empty
  | @step cfg change _ hadm ih =>
    have hatomic : (change.transform deps).Atomic cfg fun _ cfg' => cfg'.WellFormed :=
      change.atomic ih hadm
    rcases ensures_iff.mp hatomic with ⟨e, cfg', hrun, hsame⟩ | ⟨u, cfg', hrun, hwf⟩
    · rw [hrun, hsame]
      exact ih
    · rw [hrun]
      exact hwf

end Mutate

/-! ## Through the store -/

namespace Store
open Prog

/-- The closure that a caller of `with_config` passes. -/
def ofTransform {R : Type} (m : Mutate.ConfigTransform R) (cfg : Config) :
    Except StateError (R × Config) :=
  match m.exec cfg with
  | (.error reason, _) => .error (.refused reason)
  | (.ok out, cfg') => .ok (out, cfg')

/-- The file system does not fail; the key source still may. -/
def diskHealthySem : Sem storeSig World
  | w, .disk o, r, w' => storeSem w (.disk o) r w' ∧ w.disk.Healthy o r
  | w, .loadKey, r, w' => storeSem w .loadKey r w'
  | w, .fillBytes len, bytes, w' => storeSem w (.fillBytes len) bytes w'

theorem diskHealthySem_le (w : World) (o : StoreOp) (r : o.Res) (w' : World)
    (h : diskHealthySem w o r w') : storeSem w o r w' := by
  cases o with
  | disk o => exact h.1
  | loadKey => exact h
  | fillBytes len => exact h

variable {deps : SealDeps} {stateDir : String} {cfg : Config} {w w' : World}

/-- The save ran to its end. -/
def Done (stateDir : String) (t : List (Event storeSig)) (out : Outcome StateError Unit)
    (_ : World) : Prop :=
  out = .ok () ∧ Installed stateDir t

theorem wp_done_call {o : StoreOp} {k : o.Res → StoreProg Unit}
    (hk : ∀ r w', diskHealthySem w o r w' → wp diskHealthySem (k r) (Done stateDir) w') :
    wp diskHealthySem (.call o k) (Done stateDir) w := by
  rw [wp_call]
  intro r w' hM
  exact wp_mono (hk r w' hM) fun t out w'' h => ⟨h.1, List.mem_cons_of_mem _ h.2⟩

theorem wp_done_act {context : String} {a : DiskAct Path} {k : Unit → StoreProg Unit}
    (hk : ∀ w', wp diskHealthySem (k ()) (Done stateDir) w') :
    wp diskHealthySem ((act context a).bind k) (Done stateDir) w := by
  unfold act disk perform
  simp only [bind_eq, call_bind, halt_ok_bind]
  apply wp_done_call
  rintro r w' ⟨-, hhealthy⟩
  obtain rfl : r = .ok () := hhealthy
  simpa using hk w'

theorem writeAtomic_done {blob : Bytes} :
    wp diskHealthySem (writeAtomic stateDir "config.sealed" blob) (Done stateDir) w := by
  unfold writeAtomic
  apply wp_done_act
  intro w₁
  apply wp_done_act
  intro w₂
  apply wp_done_act
  intro w₃
  apply wp_done_act
  intro w₄
  unfold act disk perform
  simp only [bind_eq, call_bind, halt_ok_bind, wp_call]
  rintro r w' ⟨-, hhealthy⟩
  obtain rfl : r = .ok () := hhealthy
  exact wp_halt.mpr ⟨rfl, List.mem_singleton.mpr rfl⟩

theorem rotate_done {k : Unit → StoreProg Unit}
    (hk : ∀ w', wp diskHealthySem (k ()) (Done stateDir) w') :
    wp diskHealthySem ((rotate stateDir).bind k) (Done stateDir) w := by
  unfold rotate disk perform
  simp only [bind_eq, call_bind, halt_ok_bind]
  apply wp_done_call
  intro found w₁ _
  cases found with
  | false => simpa using hk w₁
  | true =>
    simp only [if_true, call_bind]
    apply wp_done_call
    intro removed w₂ _
    exact wp_done_act hk

/-- Once the blob is sealed only the file system can stop a save. -/
theorem saveConfig_settles :
    wp diskHealthySem (saveConfig deps stateDir cfg) (fun t out s =>
      Done stateDir t out s ∨ ∃ e, out = .err e ∧ ¬ Installed stateDir t ∧ ¬ Rotated stateDir t) w := by
  unfold saveConfig sealWith perform
  cases cfg.validate with
  | error e => simp [Except.mapError, wp_halt, Installed, Rotated]
  | ok u =>
    simp only [Except.mapError, ofExcept_ok, bind_eq, halt_ok_bind, loadKey_bind, call_bind, wp_call]
    intro r w₁ _
    cases r with
    | error e => simp [wp_halt, Installed, Rotated, installation, rotation]
    | ok key =>
      simp only [wp_call]
      intro salt w₂ _ nonce w₃ _
      cases deps.seal salt nonce cfg key [] with
      | error e => simp [wp_halt, Installed, Rotated, installation, rotation]
      | ok blob =>
        have hdone : wp diskHealthySem ((rotate stateDir).bind fun _ =>
            writeAtomic stateDir "config.sealed" blob) (Done stateDir) w₃ :=
          rotate_done fun _ => writeAtomic_done
        refine wp_mono hdone fun t out s h => Or.inl ⟨h.1, ?_⟩
        exact List.mem_cons_of_mem _ (List.mem_cons_of_mem _ (List.mem_cons_of_mem _ h.2))

theorem loadConfig_frame :
    wp storeSem (loadConfig deps stateDir) (fun _ out s =>
      s = w ∧ out ≠ .panic ∧ ∀ cfg, out = .ok cfg → stored deps stateDir w = some cfg) w := by
  rw [loadConfig_eq, wp_call]
  rintro r w₁ ⟨⟨hdisk, hread⟩, hkey⟩
  obtain rfl : w₁ = w := by
    cases w₁
    cases w
    simp_all
  cases r with
  | error e => simp [wp_halt]
  | ok blob =>
    simp only [loadKey_bind, wp_call]
    rintro r w₂ ⟨rfl, hr⟩
    cases r with
    | error e => simp [wp_halt]
    | ok key =>
      obtain rfl := hr key rfl
      have hblob := hread blob rfl
      cases hopen : opened deps w₂.key blob with
      | error e => simp [wp_halt, hopen]
      | ok c =>
        have hstored : stored deps stateDir w₂ = some c := by
          rw [stored, hblob, Option.bind_some, ← opened_eq_ok_iff, hopen]
        simp [wp_halt, hopen, hstored]

theorem valid_of_stored (h : stored deps stateDir w = some cfg) : cfg.Valid := by
  obtain ⟨blob, -, hopen⟩ := Option.bind_eq_some_iff.mp h
  unfold unsealed at hopen
  cases hun : deps.unseal blob w.key [] with
  | error e => simp [hun] at hopen
  | ok c =>
    by_cases hvalid : c.Valid
    · obtain rfl : c = cfg := by simpa [hun, hvalid] using hopen
      exact hvalid
    · simp [hun, hvalid] at hopen

/-- Without a failing file system, a transform that goes through the store either has its
result stored, which then validates, or changes nothing. -/
theorem withConfig_settles {R : Type} (hdeps : deps.Lawful) (m : Mutate.ConfigTransform R)
    {t : List (Event storeSig)} {out : Outcome StateError R}
    (h : Exec diskHealthySem (withConfig deps stateDir (ofTransform m)) w t out w') :
    (∃ cfg a cfg', stored deps stateDir w = some cfg ∧ m.exec cfg = (.ok a, cfg') ∧ cfg'.Valid ∧
      out = .ok a ∧ stored deps stateDir w' = some cfg') ∨
    ∃ e, out = .err e ∧ stored deps stateDir w' = stored deps stateDir w := by
  unfold withConfig at h
  rcases exec_bind_iff.mp h with ⟨cfg, t₁, t₂, w₁, hload, hrest, -⟩ | ⟨e, rfl, hload⟩ | ⟨-, hload⟩
  · obtain ⟨rfl, -, hcfg⟩ := loadConfig_frame _ _ _ (hload.mono diskHealthySem_le)
    have hstored := hcfg cfg rfl
    cases hrun : m.exec cfg with
    | mk r cfg' =>
      cases r with
      | error reason =>
        have hrefused : ofTransform m cfg = .error (.refused reason) := by simp [ofTransform, hrun]
        simp only [hrefused, ofExcept_error, bind_eq, halt_err_bind, exec_halt_iff] at hrest
        obtain ⟨-, rfl, rfl⟩ := hrest
        exact Or.inr ⟨_, rfl, rfl⟩
      | ok a =>
        have hok : ofTransform m cfg = .ok (a, cfg') := by simp [ofTransform, hrun]
        simp only [hok, ofExcept_ok, bind_eq, halt_ok_bind, pure_eq] at hrest
        rcases exec_bind_iff.mp hrest with ⟨u, t₃, t₄, w₂, hsave, hend, -⟩ | ⟨e, rfl, hsave⟩ |
          ⟨-, hsave⟩
        · obtain ⟨-, rfl, rfl⟩ := exec_halt_iff.mp hend
          rcases saveConfig_settles _ _ _ hsave with hdone | ⟨e, he, -⟩
          · have hcut := saveConfig_cut hdeps _ _ _ (hsave.mono diskHealthySem_le).stops
            have hnew := hcut.installed hdone.2
            exact Or.inl ⟨cfg, a, cfg', hstored, hrun, valid_of_stored hnew, rfl, hnew⟩
          · cases he
        · rcases saveConfig_settles _ _ _ hsave with hdone | ⟨e', -, hinst, hrot⟩
          · cases hdone.1
          · have hcut := saveConfig_cut hdeps _ _ _ (hsave.mono diskHealthySem_le).stops
            exact Or.inr ⟨e, rfl, hcut.untouched hinst hrot⟩
        · rcases saveConfig_settles _ _ _ hsave with hdone | ⟨e', he, -⟩
          · cases hdone.1
          · cases he
  · obtain ⟨rfl, -, -⟩ := loadConfig_frame _ _ _ (hload.mono diskHealthySem_le)
    exact Or.inr ⟨e, rfl, rfl⟩
  · exact absurd rfl (loadConfig_frame _ _ _ (hload.mono diskHealthySem_le)).2.1

/-! ## Integrity -/

open Mutate Transform in
/-- From the empty configuration on, every transform either refuses and changes nothing or
leaves a valid configuration; a merge that is not refused is the disjoint union; and a merge
of any fragment whatever, through the store, leaves a valid configuration or the old one. -/
theorem transforms_keep_valid {seals : SealDeps} (hseals : seals.Lawful) (deps : MutateDeps) :
    (∀ (cfg : Config) (change : Change), Reached deps cfg → change.Admissible →
      (change.transform deps).Atomic cfg fun _ cfg' => cfg'.Valid ∧ cfg'.WellFormed) ∧
    (∀ existing fragment : Config, (mergeImport deps fragment).Atomic existing fun _ cfg' =>
      Merged existing fragment cfg') ∧
    ∀ (stateDir : String) (fragment : Config) (w w' : World) (t : List (Event storeSig))
      (out : Outcome StateError Unit),
      Exec diskHealthySem (withConfig seals stateDir (ofTransform (mergeImport deps fragment)))
        w t out w' →
      (∃ cfg', out = .ok () ∧ stored seals stateDir w' = some cfg' ∧ cfg'.Valid) ∨
      ∃ e, out = .err e ∧ stored seals stateDir w' = stored seals stateDir w := by
  refine ⟨?_, mergeImport_atomic, ?_⟩
  · intro cfg change hreached hadm
    refine (change.atomic hreached.wellFormed hadm).mono fun _ cfg' hwf => ?_
    exact ⟨Config.valid_iff.mpr hwf, hwf⟩
  · intro stateDir fragment w w' t out hexec
    rcases withConfig_settles hseals _ hexec with ⟨_, _, cfg', -, -, hvalid, hout, hstored⟩ | h
    · exact Or.inl ⟨cfg', hout, hstored, hvalid⟩
    · exact Or.inr h

def sampleMutateDeps : Mutate.MutateDeps where
  hashes := { sha1 := fun bytes => bytes, sha256 := fun bytes => bytes }
  debug s := "\"" ++ s ++ "\""

open Mutate in
theorem transforms_keep_valid_sample :
    (∀ (cfg : Config) (change : Change), Reached sampleMutateDeps cfg → change.Admissible →
      (change.transform sampleMutateDeps).Atomic cfg fun _ cfg' => cfg'.Valid ∧ cfg'.WellFormed) ∧
    (∀ existing fragment : Config, (mergeImport sampleMutateDeps fragment).Atomic existing
      fun _ cfg' => Merged existing fragment cfg') ∧
    ∀ (stateDir : String) (fragment : Config) (w w' : World) (t : List (Event storeSig))
      (out : Outcome StateError Unit),
      Exec diskHealthySem (withConfig sampleDeps stateDir
        (ofTransform (mergeImport sampleMutateDeps fragment))) w t out w' →
      (∃ cfg', out = .ok () ∧ stored sampleDeps stateDir w' = some cfg' ∧ cfg'.Valid) ∨
      ∃ e, out = .err e ∧ stored sampleDeps stateDir w' = stored sampleDeps stateDir w :=
  transforms_keep_valid sampleDeps_lawful sampleMutateDeps

end Store
end MiddleWhere
