import MiddleWhere.Daemon.Handovers

/-!
# Postgres on an exposed host

The start refuses to serve a Postgres environment on a host that is not loopback, unless it is
told to. Requests make no such check. So that no such environment is live holds for as long as no
request adds one.
-/

namespace MiddleWhere
open Std (ExtTreeMap)

namespace Mutate
open Transform

/-- The transforms that can store an environment under a new name. -/
def Change.adds : Change → Bool
  | .addEnv _ _ | .mergeImport _ => true
  | _ => false

variable {deps : MutateDeps} {cfg cfg' : Config} {change : Change} {a : change.Out}

/-- No other transform gives an environment another engine. -/
theorem engine_of_run (hchange : change.adds = false)
    (hrun : (change.run deps).exec cfg = (.ok a, cfg')) {n : String} {env' : Env}
    (henv' : cfg'.envs[n]? = some env') : ∃ env, cfg.envs[n]? = some env ∧ env.engine = env'.engine := by
  have hsame (hkind : ¬ change.onEnvs) : ∃ env, cfg.envs[n]? = some env ∧ env.engine = env'.engine :=
    ⟨env', same_envs_of_run hkind hrun ▸ henv', rfl⟩
  have hinsert {name : String} {env₀ env : Env} (hname : cfg.envs[name]? = some env₀)
      (hengine : env₀.engine = env.engine) (h : (cfg.envs.insert name env)[n]? = some env') :
      ∃ env, cfg.envs[n]? = some env ∧ env.engine = env'.engine := by
    rcases Tables.getElem?_insert_eq_some.mp h with ⟨rfl, rfl⟩ | ⟨-, hold⟩
    · exact ⟨env₀, hname, hengine⟩
    · exact ⟨env', hold, rfl⟩
  cases change with
  | addEnv raw args => cases hchange
  | mergeImport fragment => cases hchange
  | rmEnv name =>
    obtain rfl := rmEnv_spec.of_exec hrun
    exact ⟨env', (Tables.getElem?_erase_eq_some.mp henv').2, rfl⟩
  | setPolicy name target =>
    obtain ⟨env, hname, rfl⟩ := setPolicy_envs.of_exec hrun
    refine hinsert hname ?_ henv'
    rfl
  | grantEnv raw name =>
    have hspec : (grantEnv deps raw name).Atomic cfg fun _ cfg' => ∃ (env : Env) (auth : ClientAuth),
        cfg.envs[name]? = some env ∧
          cfg' = { cfg with envs := cfg.envs.insert name { env with clientAuth := auth } } :=
      grantEnv_spec fun env henv => ⟨env, _, henv, rfl⟩
    obtain ⟨env, auth, hname, rfl⟩ := hspec.of_exec hrun
    refine hinsert hname ?_ henv'
    rfl
  | addBastion args => exact hsame id
  | setFingerprint name fingerprint => exact hsame id
  | rmBastion name => exact hsame id
  | addCred name user password => exact hsame id
  | rotateCred name password => exact hsame id
  | rmCred name => exact hsame id

end Mutate

namespace Daemon
open Prog

variable {deps : DaemonDeps} {cfg : Config} {w w' : World} {name : String} {names : List String}
  {peer : PeerIdentity}

def PgStored (deps : DaemonDeps) (w : World) (n : String) : Prop :=
  ∃ cfg env, w.stored deps = some cfg ∧ cfg.envs[n]? = some env ∧ env.engine = .postgres

/-- At most the environments of `names` became live, and none became a Postgres one. -/
structure Confined (deps : DaemonDeps) (names : List String) (w w' : World) : Prop where
  live : ∀ n ∈ w'.live, n ∈ w.live ∨ n ∈ names
  pg : ∀ n, PgStored deps w' n → PgStored deps w n

theorem Confined.refl (w : World) : Confined deps names w w := ⟨fun _ h => Or.inl h, fun _ h => h⟩

theorem Confined.trans {w₁ w₂ w₃ : World} (h : Confined deps names w₁ w₂)
    (h' : Confined deps names w₂ w₃) : Confined deps names w₁ w₃ where
  live n hn := (h'.live n hn).elim (h.live n) Or.inr
  pg n hn := h.pg n (h'.pg n hn)

theorem PgStored.of_stored {n : String} (h : PgStored deps w' n)
    (hstored : w'.stored deps = w.stored deps) : PgStored deps w n := by
  obtain ⟨cfg, env, hcfg, henv, hengine⟩ := h
  exact ⟨cfg, env, hstored ▸ hcfg, henv, hengine⟩

theorem Confined.of_store (hstored : w'.stored deps = w.stored deps)
    (hlive : ∀ n ∈ w'.live, n ∈ w.live) : Confined deps names w w' :=
  ⟨fun n hn => Or.inl (hlive n hn), fun _ hn => hn.of_stored hstored⟩

def DaemonOp.confined (names : List String) : DaemonOp → Prop
  | .insertEnv n _ _ => n ∈ names
  | .persist change => change.adds = false
  | _ => True

abbrev ConfinedProg (names : List String) {α : Type} (p : DaemonProg α) : Prop :=
  p.Uses (DaemonOp.confined names)

theorem confined_step (hseals : deps.seals.Lawful) {o : DaemonOp} {r : o.Res}
    (ho : o.confined names) (h : settledSem deps w o r w') : Confined deps names w w' := by
  by_cases hstill : o.still = true
  · have hs := still_step hstill h.1
    refine .of_store hs.stored fun n hn => ?_
    rw [mem_live_iff, hs.loopOf] at hn
    exact mem_live_iff.mpr hn
  cases o with
  | persist change =>
    rcases persist_step hseals h with ⟨e, -, hs⟩ | ⟨a, cfg, cfg', -, hp⟩
    · refine .of_store hs.stored fun n hn => ?_
      rw [mem_live_iff, hs.loopOf] at hn
      exact mem_live_iff.mpr hn
    · refine ⟨fun n hn => Or.inl (by rw [hp.same] at hn; exact hn), fun n hn => ?_⟩
      obtain ⟨cfg₁, env', hcfg, henv', hengine⟩ := hn
      obtain rfl : cfg' = cfg₁ := Option.some.inj (hp.after.symm.trans hcfg)
      obtain ⟨env, henv, hsame⟩ := Mutate.engine_of_run ho hp.ran henv'
      exact ⟨cfg, env, hp.before, henv, hsame.trans hengine⟩
  | spawnLoop runtime listener =>
    obtain ⟨-, rfl⟩ := h.1
    exact .of_store rfl fun _ hn => hn
  | abortLoop id =>
    obtain rfl : w' = _ := h.1
    exact .of_store rfl fun _ hn => hn
  | insertEnv n runtime id =>
    obtain rfl : w' = _ := h.1
    refine ⟨fun m hm => ?_, fun m hm => hm.of_stored rfl⟩
    rcases ExtTreeMap.mem_insert.mp hm with heq | hm
    · obtain rfl : n = m := by simpa using heq
      exact Or.inr ho
    · exact Or.inl hm
  | removeEnv n =>
    obtain ⟨-, rfl⟩ := h.1
    exact .of_store rfl fun m hm => (ExtTreeMap.mem_erase.mp hm).2
  | _ => exact absurd rfl hstill

theorem confined_of_uses (hseals : deps.seals.Lawful) {α : Type} {p : DaemonProg α}
    (hp : ConfinedProg names p) (w : World) :
    wp (settledSem deps) p (fun _ _ w' => Confined deps names w w') w :=
  related_of_uses Confined.refl (fun _ _ _ => Confined.trans)
    (fun _ _ _ _ ho hM => confined_step hseals ho hM) hp w

theorem confined_wp (names : List String) (hseals : deps.seals.Lawful) {α : Type}
    {p : DaemonProg α} {Q : World → Prop} (hp : ConfinedProg names p)
    (hQ : ∀ w', Confined deps names w w' → Q w') :
    wp (settledSem deps) p (fun _ _ w' => Q w') w :=
  wp_mono (confined_of_uses hseals hp w) fun _ _ w' h => hQ w' h

theorem StillProg.confined {α : Type} {p : DaemonProg α} (hp : StillProg p) : ConfinedProg names p :=
  uses_mono (fun o ho => by cases o <;> trivial) hp

/-! ## Requests that add nothing -/

section
variable (names)

theorem applyRmEnv_confined (name : String) : ConfinedProg names (applyRmEnv name) := by
  refine uses_bind ⟨trivial, fun _ => uses_halt _⟩ fun removed => ?_
  cases removed with
  | some loop => exact ⟨trivial, fun _ => uses_halt _⟩
  | none => exact uses_halt _

theorem repinEnvs_confined (cfg : Config) (affected : List String) :
    ConfinedProg names (repinEnvs deps cfg affected) := by
  induction affected with
  | nil => exact uses_halt _
  | cons name rest ih =>
    unfold repinEnvs
    cases cfg.envs[name]? with
    | none => exact ih
    | some env =>
      refine uses_bind (ask_still rfl).confined fun present => ?_
      cases present with
      | false => exact ih
      | true =>
        refine uses_bind (uses_attempt (applyRebuildBackend_still deps cfg env name).confined) ?_
        intro rebuilt
        cases rebuilt with
        | ok _ => exact ih
        | error e =>
          exact uses_bind (applyRmEnv_confined names name) fun _ => uses_bind ih fun _ => uses_halt _

theorem persist_confined {change : Mutate.Change} (hchange : change.adds = false)
    {f : Except Store.StateError change.Out → DaemonProg Response}
    (hf : ∀ r, ConfinedProg names (f r)) : ConfinedProg names ((ask (.persist change)).bind f) :=
  uses_bind ⟨hchange, fun _ => uses_halt _⟩ hf

theorem simpleMutation_confined {change : Mutate.Change} (hchange : change.adds = false)
    (action target : String) :
    ConfinedProg names (simpleMutation deps peer action target change) := by
  refine persist_confined names hchange fun r => ?_
  cases r with
  | ok _ => exact (allowed_still ..).confined
  | error e => exact (failMsg_still ..).confined

theorem rmBastionReq_confined (name : String) : ConfinedProg names (rmBastionReq deps peer name) := by
  refine uses_bind (simpleMutation_confined names rfl _ _) fun resp => ?_
  cases resp with
  | ok => exact uses_bind (ask_still rfl).confined fun _ => uses_halt _
  | _ => exact uses_halt _

theorem setFingerprintReq_confined (bastion : String) (fingerprint : HostKeyFingerprint) :
    ConfinedProg names (setFingerprintReq deps peer bastion fingerprint) := by
  refine persist_confined names rfl fun r => ?_
  cases r with
  | error e => exact (failMsg_still ..).confined
  | ok _ =>
    refine uses_bind (ask_still rfl).confined fun evicted => ?_
    refine uses_bind (ask_still rfl).confined fun loaded => ?_
    cases loaded with
    | error e => exact (failMsg_still ..).confined
    | ok cfg =>
      refine uses_bind (repinEnvs_confined names cfg _) fun stopped => ?_
      cases stopped with
      | nil => exact (allowed_still ..).confined
      | cons first rest => exact (failMsg_still ..).confined

theorem rotateCredReq_confined (name password : String) :
    ConfinedProg names (rotateCredReq deps peer name password) := by
  refine persist_confined names rfl fun r => ?_
  cases r with
  | error e => exact (failMsg_still ..).confined
  | ok _ =>
    refine uses_bind (ask_still rfl).confined fun loaded => ?_
    cases loaded with
    | error e => exact (failMsg_still ..).confined
    | ok cfg =>
      refine uses_bind (rebuildEnvs_still deps cfg _).confined fun failed => ?_
      cases failed with
      | none => exact (allowed_still ..).confined
      | some failure => exact (failMsg_still ..).confined

theorem rmEnvReq_confined (name : String) : ConfinedProg names (rmEnvReq deps peer name) := by
  refine persist_confined names rfl fun r => ?_
  cases r with
  | error e => exact (failMsg_still ..).confined
  | ok _ => exact uses_bind (applyRmEnv_confined names name) fun _ => (allowed_still ..).confined

theorem grantReq_confined (env : String) : ConfinedProg names (grantReq deps peer env) := by
  refine uses_bind (ask_still rfl).confined fun raw => persist_confined names rfl fun r => ?_
  cases r with
  | error e => exact (failMsg_still ..).confined
  | ok out =>
    refine uses_bind (ask_still rfl).confined fun loaded => ?_
    cases loaded with
    | error e => exact (failMsg_still ..).confined
    | ok cfg =>
      dsimp only
      cases cfg.envs[env]? with
      | none => exact (failMsg_still ..).confined
      | some e =>
        refine uses_bind (uses_attempt (swapRuntime_still env _).confined) fun swapped => ?_
        cases swapped with
        | ok _ => exact (allowed_still ..).confined
        | error err => exact (tokenButNotLive_still ..).confined

theorem setPolicyReq_confined (env : String) (target : Mutate.PolicyTarget) (confirmUnsafe : Bool) :
    ConfinedProg names (setPolicyReq deps peer env target confirmUnsafe) := by
  unfold setPolicyReq
  by_cases hunsafe : target = .readWrite ∧ !confirmUnsafe
  · simp only [if_pos hunsafe]
    exact uses_bind (emit_still ..).confined fun _ => uses_halt _
  · simp only [if_neg hunsafe]
    refine persist_confined names rfl fun r => ?_
    cases r with
    | error e => exact (failMsg_still ..).confined
    | ok _ =>
      refine uses_bind (ask_still rfl).confined fun loaded => ?_
      cases loaded with
      | error e => exact (failMsg_still ..).confined
      | ok cfg =>
        dsimp only
        cases cfg.envs[env]? with
        | none => exact (failMsg_still ..).confined
        | some e =>
          refine uses_bind (uses_attempt (swapRuntime_still env _).confined) fun swapped => ?_
          cases swapped with
          | ok _ => exact (allowed_still ..).confined
          | error err => exact (failMsg_still ..).confined

end

theorem dispatch_confined {req : Request} (hadd : ∀ dto, req ≠ .addEnv dto)
    (himport : ∀ fragment, req ≠ .import_ fragment) : ConfinedProg [] (dispatch deps peer req) := by
  cases req with
  | hello version => exact uses_halt _
  | addBastion dto => exact simpleMutation_confined [] rfl _ _
  | rmBastion name => exact rmBastionReq_confined [] name
  | setFingerprint bastion fingerprint => exact setFingerprintReq_confined [] bastion fingerprint
  | addCred dto => exact simpleMutation_confined [] rfl _ _
  | rotateCred name password => exact rotateCredReq_confined [] name password
  | rmCred name => exact simpleMutation_confined [] rfl _ _
  | addEnv dto => exact absurd rfl (hadd dto)
  | rmEnv name => exact rmEnvReq_confined [] name
  | grant env => exact grantReq_confined [] env
  | setPolicy env target confirmUnsafe => exact setPolicyReq_confined [] env target confirmUnsafe
  | import_ fragment => exact absurd rfl (himport fragment)
  | listBastions => exact (listRows_still ..).confined
  | listCreds => exact (listRows_still ..).confined
  | listEnvs => exact (listRows_still ..).confined
  | auditTail n => exact (auditTail_still peer n).confined
  | probe env all => exact (probeReq_still peer env all).confined

/-! ## Requests that add -/

def Guarded (deps : DaemonDeps) (w : World) : Prop := ∀ n ∈ w.live, ¬ PgStored deps w n

theorem Confined.guarded (h : Confined deps [] w w') (hw : Guarded deps w) : Guarded deps w' := by
  intro n hn hpg
  rcases h.live n hn with hold | hnew
  · exact hw n hold (h.pg n hpg)
  · cases hnew

theorem applyAddEnv_confined (cfg : Config) (env : Env) (hname : name ∈ names) :
    ConfinedProg names (applyAddEnv deps cfg env name) := by
  apply uses_bind (buildEnvRuntime_builds deps name env cfg).still.confined
  intro runtime
  refine uses_bind (ask_still rfl).confined fun answer => ?_
  apply uses_bind (orContext_builds _ _).still.confined
  intro listener
  exact ⟨trivial, fun _ => ⟨hname, fun _ => uses_halt _⟩⟩

theorem addEnvs_confined (cfg : Config) {added : List String} (hadded : ∀ n ∈ added, n ∈ names) :
    ConfinedProg names (addEnvs deps cfg added) := by
  induction added with
  | nil => exact uses_halt _
  | cons name rest ih =>
    obtain ⟨hname, hrest⟩ := List.forall_mem_cons.mp hadded
    unfold addEnvs
    cases cfg.envs[name]? with
    | none => exact ih hrest
    | some env =>
      refine uses_bind (uses_attempt (applyAddEnv_confined cfg env hname)) fun added => ?_
      cases added with
      | ok _ => exact ih hrest
      | error e => exact uses_halt _

theorem refused_guarded (hseals : deps.seals.Lawful) {action target msg : String}
    (hw : Guarded deps w) (hstored : w'.stored deps = w.stored deps) (hlive : w'.live = w.live) :
    wp (settledSem deps) (failMsg peer action target msg) (fun _ _ w'' => Guarded deps w'') w' := by
  have hw' : Guarded deps w' := fun n hn hpg => hw n (hlive ▸ hn) (hpg.of_stored hstored)
  have hfail : ConfinedProg [] (failMsg peer action target msg) := (failMsg_still ..).confined
  exact wp_mono (confined_of_uses hseals hfail w') fun _ _ _ h => h.guarded hw'

theorem addEnvReq_guarded (hseals : deps.seals.Lawful) (peer : PeerIdentity) {dto : EnvInputDto}
    (hengine : dto.engine ≠ .postgres) (hstored : w.stored deps = some cfg) (hw : Guarded deps w) :
    wp (settledSem deps) (addEnvReq deps peer dto) (fun _ _ w' => Guarded deps w') w := by
  refine wp_ask_bind fun raw w₀ hraw => ?_
  obtain rfl : w₀ = w := hraw.1
  refine persist_wp hseals hstored (fun e w' hsettled hsame => ?_) fun out cfg' w' hp => ?_
  · exact refused_guarded hseals hw hsettled (by rw [hsame])
  have hspec : (Mutate.addEnv deps.mutate raw dto.args).Atomic cfg fun _ cfg' => ∃ env : Env,
      env.engine = dto.engine ∧ cfg' = { cfg with envs := cfg.envs.insert dto.name env } :=
    Mutate.addEnv_spec fun p _ _ _ _ _ => ⟨_, rfl, rfl⟩
  obtain ⟨env, hsame, hcfg'⟩ := hspec.of_exec hp.ran
  refine confined_wp [dto.name] hseals (uses_bind (ask_still rfl).confined fun loaded => ?_) ?_
  · cases loaded with
    | error e => exact (failMsg_still ..).confined
    | ok cfg =>
      dsimp only
      cases cfg.envs[dto.name]? with
      | none => exact (failMsg_still ..).confined
      | some env =>
        refine uses_bind (uses_attempt (applyAddEnv_confined cfg env (by simp))) fun added => ?_
        cases added with
        | ok _ => exact (allowed_still ..).confined
        | error err => exact (tokenButNotLive_still ..).confined
  intro w'' h n hn hpg
  obtain ⟨cfg₁, env₁, hcfg₁, henv₁, hpg₁⟩ := h.pg n hpg
  obtain rfl : cfg' = cfg₁ := Option.some.inj (hp.after.symm.trans hcfg₁)
  rw [hcfg'] at henv₁
  rcases Tables.getElem?_insert_eq_some.mp henv₁ with ⟨-, rfl⟩ | ⟨hne, hold⟩
  · exact hengine (hsame.symm.trans hpg₁)
  · rcases h.live n hn with hlive | hnew
    · rw [hp.same] at hlive
      exact hw n hlive ⟨cfg, env₁, hstored, hold, hpg₁⟩
    · exact hne (List.mem_singleton.mp hnew).symm

theorem importReq_guarded (hseals : deps.seals.Lawful) (peer : PeerIdentity) {fragment : Config}
    (hengine : ∀ (n : String) (env : Env), fragment.envs[n]? = some env → env.engine ≠ .postgres)
    (hstored : w.stored deps = some cfg) (hw : Guarded deps w) :
    wp (settledSem deps) (importReq deps peer fragment) (fun _ _ w' => Guarded deps w') w := by
  refine persist_wp hseals hstored (fun e w' hsettled hsame => ?_) fun out cfg' w' hp => ?_
  · exact refused_guarded hseals hw hsettled (by rw [hsame])
  have hmerged : Mutate.Merged cfg fragment cfg' :=
    (Mutate.mergeImport_atomic cfg fragment).of_exec hp.ran
  refine confined_wp fragment.envs.keys hseals
    (uses_bind (ask_still rfl).confined fun loaded => ?_) ?_
  · cases loaded with
    | error e => exact (failMsg_still ..).confined
    | ok cfg =>
      refine uses_bind (addEnvs_confined cfg fun _ hn => hn) fun failed => ?_
      cases failed with
      | none => exact (allowed_still ..).confined
      | some failure => exact (failMsg_still ..).confined
  intro w'' h n hn hpg
  obtain ⟨cfg₁, env₁, hcfg₁, henv₁, hpg₁⟩ := h.pg n hpg
  obtain rfl : cfg' = cfg₁ := Option.some.inj (hp.after.symm.trans hcfg₁)
  rcases (hmerged.envs.lookup n env₁).mp henv₁ with hold | hnew
  · rcases h.live n hn with hlive | hadded
    · rw [hp.same] at hlive
      exact hw n hlive ⟨cfg, env₁, hstored, hold, hpg₁⟩
    · exact hmerged.envs.disjoint n (ExtTreeMap.mem_keys.mp hadded) (Tables.mem_of_getElem? hold)
  · exact hengine n env₁ hnew hpg₁

/-! ## Runs -/

/-- The request adds no Postgres environment. -/
def Request.AddsNoPostgres : Request → Prop
  | .addEnv dto => dto.engine ≠ .postgres
  | .import_ fragment => ∀ (n : String) (env : Env), fragment.envs[n]? = some env →
      env.engine ≠ .postgres
  | _ => True

theorem dispatch_guarded (hseals : deps.seals.Lawful) (peer : PeerIdentity) {req : Request}
    (hreq : req.AddsNoPostgres) (hstored : w.stored deps = some cfg) (hw : Guarded deps w) :
    wp (settledSem deps) (dispatch deps peer req) (fun _ _ w' => Guarded deps w') w := by
  have hquiet (hadd : ∀ dto, req ≠ .addEnv dto) (himport : ∀ fragment, req ≠ .import_ fragment) :
      wp (settledSem deps) (dispatch deps peer req) (fun _ _ w' => Guarded deps w') w := by
    refine wp_mono (confined_of_uses hseals (dispatch_confined hadd himport) w) ?_
    exact fun _ _ _ h => h.guarded hw
  cases req with
  | addEnv dto => exact addEnvReq_guarded hseals peer hreq hstored hw
  | import_ fragment => exact importReq_guarded hseals peer hreq hstored hw
  | _ => exact hquiet (fun _ => Request.noConfusion) fun _ => Request.noConfusion

/-- A start that goes through on an exposed host has met no Postgres environment. -/
theorem bindEnvs_guarded (hexposed : isLoopbackHost deps deps.listenHost = false)
    (hinsecure : deps.allowInsecurePgCleartext = false) (entries : List (String × Env)) :
    wp (settledSem deps) (bindEnvs deps cfg entries)
      (fun _ out _ => out = .ok () → ∀ e ∈ entries, e.2.engine ≠ .postgres) w := by
  induction entries generalizing w with
  | nil => exact wp_halt.mpr (by simp)
  | cons entry rest ih =>
    by_cases hengine : entry.2.engine = .postgres
    · unfold bindEnvs bindEnv
      simp only [hengine, reduceCtorEq, if_false, hexposed, hinsecure, Bool.not_false, and_self, if_true]
      exact wp_halt.mpr fun h => absurd h (by simp)
    · refine wp_bind.mpr fun t out w₁ _ => ?_
      cases out with
      | ok _ => exact wp_mono ih fun _ _ _ h hout => List.forall_mem_cons.mpr ⟨hengine, h hout⟩
      | err e => exact fun h => absurd h (by simp)
      | panic => exact fun h => absurd h (by simp)

theorem bindEnvs_confined (cfg : Config) {entries : List (String × Env)}
    (hentries : ∀ e ∈ entries, e.1 ∈ names) : ConfinedProg names (bindEnvs deps cfg entries) := by
  induction entries with
  | nil => exact uses_halt _
  | cons entry rest ih =>
    obtain ⟨hname, hrest⟩ := List.forall_mem_cons.mp hentries
    refine uses_bind ?_ fun _ => ih hrest
    unfold bindEnv
    split_ifs with hengine hguard
    · exact uses_halt _
    · exact uses_halt _
    · exact applyAddEnv_confined cfg entry.2 hname

theorem run_guarded {idleTimeoutSecs : Option UInt32} (hseals : deps.seals.Lawful)
    (hexposed : isLoopbackHost deps deps.listenHost = false)
    (hinsecure : deps.allowInsecurePgCleartext = false) :
    wp (settledSem deps) (run deps idleTimeoutSecs) (fun _ out w' => out = .ok () → Guarded deps w')
      w := by
  refine wp_ask_bind fun loaded w₁ hload => ?_
  obtain ⟨rfl, hcfg⟩ := loadConfig_step hload.1
  cases loaded with
  | error e => exact wp_halt.mpr nofun
  | ok cfg =>
    let entries := (overrideIdle idleTimeoutSecs cfg).envs.toList
    have hconfined : ConfinedProg (entries.map Prod.fst)
        (bindEnvs deps (overrideIdle idleTimeoutSecs cfg) entries) :=
      bindEnvs_confined _ fun e he => List.mem_map_of_mem he
    refine wp_mono (wp_and (bindEnvs_guarded hexposed hinsecure entries)
      (confined_of_uses hseals hconfined w₁)) fun t out w₂ h hout n _ hpg => ?_
    obtain ⟨cfg₁, env, hcfg₁, henv, hengine⟩ := h.2.pg n hpg
    obtain rfl : cfg = cfg₁ := Option.some.inj ((hcfg cfg rfl).symm.trans hcfg₁)
    obtain ⟨env', henv', hsame⟩ := overrideIdle_entry idleTimeoutSecs henv
    have hmem : (n, env') ∈ entries := ExtTreeMap.mem_toList_iff_getElem?_eq_some.mpr henv'
    exact h.1 hout (n, env') hmem (hsame.trans hengine)

/-- On an exposed host without the override, no Postgres environment is ever live unless a request
adds it. -/
theorem no_postgres_unless_added {idleTimeoutSecs : Option UInt32} (hseals : deps.seals.Lawful)
    (hexposed : isLoopbackHost deps deps.listenHost = false)
    (hinsecure : deps.allowInsecurePgCleartext = false)
    (h : ReachedBy deps (fun req t out => Reloads req t out ∧ req.AddsNoPostgres) idleTimeoutSecs w) :
    ∀ (name : String) (handle : Handle), w.live[name]? = some handle →
      handle.runtime.engine ≠ .postgres := by
  have hreloads : ∀ {w}, ReachedBy deps (fun req t out => Reloads req t out ∧ req.AddsNoPostgres)
      idleTimeoutSecs w → ∃ cfg, Serving deps False (idleTimeoutSecs = none) cfg w :=
    fun h => h.serving hseals fun req t out hfine => Or.inr ⟨id, hfine.1⟩
  have hguarded : Guarded deps w := by
    induction h with
    | started hlive hloops hsessions hkept hexec =>
      exact run_guarded hseals hexposed hinsecure _ _ _ hexec rfl
    | served peer req hreached hexec hfine ih =>
      obtain ⟨cfg, hw⟩ := hreloads hreached
      exact dispatch_guarded hseals peer hfine.2 hw.stored ih _ _ _ hexec
  intro name handle hlive hpg
  obtain ⟨cfg, hw⟩ := hreloads h
  obtain ⟨env, henv, hof, -⟩ := (hw.live name handle hlive).entry
  exact hguarded name (Tables.mem_of_getElem? hlive) ⟨cfg, env, hw.stored, henv, hof.engine.symm.trans hpg⟩

def exposedDaemon : DaemonDeps := { sampleDaemon [sampleConfig] with listenHost := "0.0.0.0" }

theorem no_postgres_unless_added_sample : ∃ w : World, "app" ∈ w.live ∧
    ∀ (name : String) (handle : Handle), w.live[name]? = some handle →
      handle.runtime.engine ≠ .postgres := by
  have hschema : ∀ cfg ∈ [sampleConfig], cfg.schemaVersion = 2 := by simp [sampleConfig]; rfl
  have hstored : (idleWorld (storeOf [sampleConfig] sampleConfig)).stored exposedDaemon =
      some sampleConfig := stored_storeOf hschema (List.mem_singleton_self _) (by decide)
  have henvs : sampleConfig.envs.toList = [("app", sampleEnv)] := by rfl
  have hcred : sampleConfig.credentials[sampleEnv.credential]? = some ⟨"u", "pw"⟩ := by rfl
  obtain ⟨t, hexec⟩ := start_direct 0 0 hstored henvs rfl rfl hcred rfl
  refine ⟨_, ?_, no_postgres_unless_added (Store.listedSeals_lawful hschema) (by decide) rfl
    (.started rfl rfl rfl rfl hexec)⟩
  simp [servingWorld, directRuntime]

end Daemon
end MiddleWhere
