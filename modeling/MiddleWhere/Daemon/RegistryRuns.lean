import MiddleWhere.Daemon.Registry

/-!
# The registry over whole runs

From a start on, after any requests, the live names are stored names, each has its one accept
loop, and nothing was ever added over a handle. An addition finds its name free because the
transform has found it missing from the configuration, which has every live name.
-/

namespace MiddleWhere
open Std (ExtTreeMap)

namespace Mutate
open Transform

/-- The transforms of bastions and credentials leave the environments as they are. -/
def Change.onEnvs : Change → Prop
  | .addEnv _ _ | .rmEnv _ | .grantEnv _ _ | .setPolicy _ _ | .mergeImport _ => True
  | _ => False

def Change.keepsEnvs : Change → Bool
  | .rmEnv _ => false
  | _ => true

variable {deps : MutateDeps} {cfg cfg' : Config} {change : Change} {a : change.Out}

theorem same_envs_of_run (hchange : ¬ change.onEnvs)
    (hrun : (change.run deps).exec cfg = (.ok a, cfg')) : cfg'.envs = cfg.envs := by
  have hsame : (change.run deps).Ensures cfg (fun _ _ => True) fun _ cfg' =>
      cfg'.envs = cfg.envs := by
    cases change with
    | addBastion args =>
      unfold Change.run addBastion
      simp
    | setFingerprint name fingerprint =>
      unfold Change.run setFingerprint
      cases hname : cfg.bastions[name]? <;> simp [hname]
    | rmBastion name =>
      unfold Change.run rmBastion
      simp
    | addCred name user password =>
      unfold Change.run addCred
      simp
    | rotateCred name password =>
      unfold Change.run rotateCred
      cases hname : cfg.credentials[name]? <;> simp [hname]
    | rmCred name =>
      unfold Change.run rmCred
      simp
    | addEnv raw args => exact absurd trivial hchange
    | rmEnv name => exact absurd trivial hchange
    | grantEnv raw name => exact absurd trivial hchange
    | setPolicy name target => exact absurd trivial hchange
    | mergeImport fragment => exact absurd trivial hchange
  exact hsame.of_exec hrun

theorem setPolicy_envs {name : String} {target : PolicyTarget} :
    (setPolicy deps name target).Atomic cfg fun _ cfg' =>
      ∃ env, cfg.envs[name]? = some env ∧
        cfg' = { cfg with envs := cfg.envs.insert name { env with policy := target.policy } } := by
  unfold setPolicy Atomic
  cases hname : cfg.envs[name]? with
  | none => simp [hname]
  | some env => simp [hname]

/-- Only `rm_env` takes an environment out. -/
theorem mem_envs_of_run (hrun : (change.run deps).exec cfg = (.ok a, cfg')) {n : String}
    (hn : n ∈ cfg.envs) (hchange : change ≠ .rmEnv n) : n ∈ cfg'.envs := by
  have hinsert (name : String) (env : Env) : n ∈ cfg.envs.insert name env :=
    ExtTreeMap.mem_insert.mpr (Or.inr hn)
  by_cases hkind : change.onEnvs
  · cases change with
    | addEnv raw args =>
      have hspec : (addEnv deps raw args).Atomic cfg fun _ cfg' => n ∈ cfg'.envs :=
        addEnv_spec fun p _ _ _ _ _ => hinsert _ _
      exact hspec.of_exec hrun
    | grantEnv raw name =>
      have hspec : (grantEnv deps raw name).Atomic cfg fun _ cfg' => n ∈ cfg'.envs :=
        grantEnv_spec fun env _ => hinsert _ _
      exact hspec.of_exec hrun
    | setPolicy name target =>
      obtain ⟨env, -, rfl⟩ := setPolicy_envs.of_exec hrun
      exact hinsert _ _
    | rmEnv name =>
      obtain rfl := rmEnv_spec.of_exec hrun
      have hne : name ≠ n := fun h => hchange (h ▸ rfl)
      exact ExtTreeMap.mem_erase.mpr ⟨by simpa using hne, hn⟩
    | mergeImport fragment =>
      have hmerged : Merged cfg fragment cfg' := (mergeImport_atomic cfg fragment).of_exec hrun
      exact hmerged.envs.mem_iff.mpr (Or.inl hn)
    | addBastion args => exact hkind.elim
    | setFingerprint name fingerprint => exact hkind.elim
    | rmBastion name => exact hkind.elim
    | addCred name user password => exact hkind.elim
    | rotateCred name password => exact hkind.elim
    | rmCred name => exact hkind.elim
  · rw [same_envs_of_run hkind hrun]
    exact hn

end Mutate

namespace Daemon
open Prog

variable {deps : DaemonDeps} {w w' : World} {name : String}

/-! ## What a mutation stores -/

/-- The transform returned `a`, and its result is what is stored. -/
structure Persisted (deps : DaemonDeps) (change : Mutate.Change) (a : change.Out) (cfg cfg' : Config)
    (w w' : World) : Prop where
  before : w.stored deps = some cfg
  ran : (change.run deps.mutate).exec cfg = (.ok a, cfg')
  after : w'.stored deps = some cfg'
  same : w' = { w with store := w'.store }

theorem persist_step (hseals : deps.seals.Lawful) {change : Mutate.Change}
    {r : Except Store.StateError change.Out} (h : settledSem deps w (.persist change) r w') :
    (∃ e, r = .error e ∧ Still deps w w') ∨
      ∃ a cfg cfg', r = .ok a ∧ Persisted deps change a cfg cfg' w w' := by
  obtain ⟨⟨⟨t, hexec⟩, hsame⟩, hsettled⟩ := h
  cases r with
  | error e =>
    have hlive : w'.live = w.live := by rw [hsame]
    refine Or.inl ⟨e, rfl, hsettled, by rw [hsame], by rw [hsame], fun n => ?_⟩
    unfold World.loopOf
    rw [hlive]
  | ok a =>
    obtain ⟨cfg, cfg', hbefore, hran, hafter⟩ := Store.withConfig_stored hseals hexec
    exact Or.inr ⟨a, cfg, cfg', rfl, hbefore, hran, hafter, hsame⟩

section
variable {change : Mutate.Change} {a : change.Out} {cfg cfg' : Config}

theorem Persisted.loopOf (h : Persisted deps change a cfg cfg' w w') (n : String) :
    w'.loopOf n = w.loopOf n := by
  unfold World.loopOf
  rw [h.same]

theorem Persisted.wired (h : Persisted deps change a cfg cfg' w w') (hw : Wired w) : Wired w' where
  loop_iff id n := by rw [h.loopOf, h.same, hw.loop_iff]
  nodup := by rw [h.same]; exact hw.nodup
  kept := by rw [h.same]; exact hw.kept

/-- Every name that was live before is still stored, but for a removed one. -/
theorem Persisted.configured (h : Persisted deps change a cfg cfg' w w') (hw : Registered deps w)
    {n : String} (hn : w'.loopOf n ≠ none) (hchange : change ≠ .rmEnv n) : n ∈ cfg'.envs := by
  rw [h.loopOf] at hn
  obtain ⟨c, hc, hmem⟩ := hw.configured n hn
  obtain rfl : c = cfg := Option.some.inj (hc.symm.trans h.before)
  exact Mutate.mem_envs_of_run h.ran hmem hchange

theorem Persisted.registered (h : Persisted deps change a cfg cfg' w w') (hw : Registered deps w)
    (hchange : change.keepsEnvs = true) : Registered deps w' where
  wired := h.wired hw.wired
  configured n hn := by
    refine ⟨cfg', h.after, h.configured hw hn fun heq => ?_⟩
    subst heq
    cases hchange

end

/-! ## Requests -/

theorem keeps_of_still {α : Type} {p : DaemonProg α} (hp : StillProg p) :
    Keeps (settledSem deps) (Registered deps) p :=
  fun w hw => wp_mono (still_of_uses hp w) fun _ _ _ hstill => hstill.registered hw

theorem keeps_ask_bind {α : Type} {o : DaemonOp} {f : o.Res → DaemonProg α} (ho : o.still = true)
    (hf : ∀ r, Keeps (settledSem deps) (Registered deps) (f r)) :
    Keeps (settledSem deps) (Registered deps) ((ask o).bind f) :=
  (keeps_of_still (ask_still ho)).bind hf

theorem emit_still (peer : PeerIdentity) (action target : String) (decision : AuditDecision)
    (error : Option String) : StillProg (emit peer action target decision error) :=
  ask_still rfl

theorem allowed_still (peer : PeerIdentity) (action target : String) (resp : Response) :
    StillProg (allowed peer action target resp) :=
  uses_bind (emit_still ..) fun _ => uses_halt _

theorem failMsg_still (peer : PeerIdentity) (action target msg : String) :
    StillProg (failMsg peer action target msg) :=
  uses_bind (emit_still ..) fun _ => uses_halt _

theorem tokenButNotLive_still (peer : PeerIdentity) (action target : String)
    (out : Mutate.NewEnvOutput) (e : String) :
    StillProg (tokenButNotLive peer action target out e) :=
  uses_bind (emit_still ..) fun _ => uses_halt _

section
variable (hseals : deps.seals.Lawful) (peer : PeerIdentity)
include hseals

theorem keeps_persist_bind {α : Type} {change : Mutate.Change} {f : _ → DaemonProg α}
    (hchange : change.keepsEnvs = true)
    (hf : ∀ r, Keeps (settledSem deps) (Registered deps) (f r)) :
    Keeps (settledSem deps) (Registered deps) ((ask (.persist change)).bind f) := by
  refine Keeps.bind (fun w hw => wp_call.mpr fun r w' h => wp_halt.mpr ?_) hf
  rcases persist_step hseals h with ⟨e, -, hstill⟩ | ⟨a, cfg, cfg', -, hpersisted⟩
  · exact hstill.registered hw
  · exact hpersisted.registered hw hchange

theorem simpleMutation_keeps {change : Mutate.Change} (hchange : change.keepsEnvs = true)
    (action target : String) :
    Keeps (settledSem deps) (Registered deps) (simpleMutation deps peer action target change) := by
  refine keeps_persist_bind hseals hchange fun r => ?_
  cases r with
  | ok _ => exact keeps_of_still (allowed_still ..)
  | error e => exact keeps_of_still (failMsg_still ..)

theorem rmBastionReq_keeps (name : String) :
    Keeps (settledSem deps) (Registered deps) (rmBastionReq deps peer name) := by
  refine (simpleMutation_keeps hseals peer rfl _ _).bind fun resp => ?_
  cases resp with
  | ok => exact keeps_of_still (uses_bind (ask_still rfl) fun _ => uses_halt _)
  | denied reason => exact keeps_halt _
  | error msg => exact keeps_halt _
  | token dto => exact keeps_halt _
  | rows rows => exact keeps_halt _
  | auditLines lines => exact keeps_halt _
  | probeResults results => exact keeps_halt _

omit hseals in
theorem applyRmEnv_keeps (name : String) :
    Keeps (settledSem deps) (Registered deps) (applyRmEnv name) := by
  intro w hw
  refine wp_mono (applyRmEnv_spec name hw.wired) fun t out w' h => ?_
  obtain ⟨hwired, hstored, hloop⟩ := h
  refine ⟨hwired, fun n hn => ?_⟩
  rw [hloop] at hn
  by_cases hname : name = n
  · simp [hname] at hn
  · rw [if_neg hname] at hn
    unfold World.Configured
    rw [hstored]
    exact hw.configured n hn

omit hseals in
theorem repinEnvs_keeps (cfg : Config) (names : List String) :
    Keeps (settledSem deps) (Registered deps) (repinEnvs deps cfg names) := by
  induction names with
  | nil => exact keeps_halt _
  | cons name rest ih =>
    unfold repinEnvs
    cases cfg.envs[name]? with
    | none => exact ih
    | some env =>
      refine keeps_ask_bind rfl fun live => ?_
      cases live with
      | false => exact ih
      | true =>
        refine (keeps_of_still (applyRebuildBackend_still deps cfg env name)).attempt.bind fun r => ?_
        cases r with
        | ok _ => exact ih
        | error e =>
          refine (applyRmEnv_keeps name).bind fun _ => ?_
          exact ih.bind fun stopped => keeps_halt _

theorem setFingerprintReq_keeps (bastion : String) (fingerprint : HostKeyFingerprint) :
    Keeps (settledSem deps) (Registered deps)
      (setFingerprintReq deps peer bastion fingerprint) := by
  refine keeps_persist_bind hseals rfl fun persisted => ?_
  cases persisted with
  | error e => exact keeps_of_still (failMsg_still ..)
  | ok _ =>
    refine keeps_ask_bind rfl fun evicted => ?_
    refine keeps_ask_bind rfl fun loaded => ?_
    cases loaded with
    | error e => exact keeps_of_still (failMsg_still ..)
    | ok cfg =>
      refine (repinEnvs_keeps cfg _).bind fun stopped => ?_
      by_cases hstopped : (!stopped.isEmpty) = true
      · simp only [hstopped, if_true]
        exact keeps_of_still (failMsg_still ..)
      · simp only [hstopped]
        exact keeps_of_still (allowed_still ..)

theorem rotateCredReq_keeps (name password : String) :
    Keeps (settledSem deps) (Registered deps) (rotateCredReq deps peer name password) := by
  refine keeps_persist_bind hseals rfl fun persisted => ?_
  cases persisted with
  | error e => exact keeps_of_still (failMsg_still ..)
  | ok _ =>
    refine keeps_ask_bind rfl fun loaded => ?_
    cases loaded with
    | error e => exact keeps_of_still (failMsg_still ..)
    | ok cfg =>
      refine (keeps_of_still (rebuildEnvs_still deps cfg _)).bind fun failed => ?_
      cases failed with
      | none => exact keeps_of_still (allowed_still ..)
      | some failure => exact keeps_of_still (failMsg_still ..)

theorem grantReq_keeps (env : String) :
    Keeps (settledSem deps) (Registered deps) (grantReq deps peer env) := by
  refine keeps_ask_bind rfl fun raw => ?_
  refine keeps_persist_bind hseals rfl fun persisted => ?_
  cases persisted with
  | error e => exact keeps_of_still (failMsg_still ..)
  | ok out =>
    refine keeps_ask_bind rfl fun loaded => ?_
    cases loaded with
    | error e => exact keeps_of_still (failMsg_still ..)
    | ok cfg =>
      dsimp only
      cases cfg.envs[env]? with
      | none => exact keeps_of_still (failMsg_still ..)
      | some e =>
        refine (keeps_of_still (swapRuntime_still env _)).attempt.bind fun swapped => ?_
        cases swapped with
        | ok _ => exact keeps_of_still (allowed_still ..)
        | error err => exact keeps_of_still (tokenButNotLive_still ..)

theorem setPolicyReq_keeps (env : String) (target : Mutate.PolicyTarget) (confirmUnsafe : Bool) :
    Keeps (settledSem deps) (Registered deps)
      (setPolicyReq deps peer env target confirmUnsafe) := by
  unfold setPolicyReq
  by_cases hunsafe : target = .readWrite ∧ !confirmUnsafe
  · simp only [if_pos hunsafe]
    exact keeps_of_still (uses_bind (emit_still ..) fun _ => uses_halt _)
  · simp only [if_neg hunsafe]
    refine keeps_persist_bind hseals rfl fun persisted => ?_
    cases persisted with
    | error e => exact keeps_of_still (failMsg_still ..)
    | ok _ =>
      refine keeps_ask_bind rfl fun loaded => ?_
      cases loaded with
      | error e => exact keeps_of_still (failMsg_still ..)
      | ok cfg =>
        dsimp only
        cases cfg.envs[env]? with
        | none => exact keeps_of_still (failMsg_still ..)
        | some e =>
          refine (keeps_of_still (swapRuntime_still env _)).attempt.bind fun swapped => ?_
          cases swapped with
          | ok _ => exact keeps_of_still (allowed_still ..)
          | error err => exact keeps_of_still (failMsg_still ..)

/-! ## The requests that add or remove -/

omit hseals in
/-- Additions of names that are stored. -/
theorem Adds.registered {added : List String} (h : Adds deps added w w') (hw : Registered deps w)
    (hadded : ∀ n ∈ added, w.Configured deps n) : Registered deps w' where
  wired := h.wired
  configured n hn := by
    unfold World.Configured
    rw [h.stored]
    by_cases hmem : n ∈ added
    · exact hadded n hmem
    · rw [h.frame n hmem] at hn
      exact hw.configured n hn

omit hseals in
/-- A name that the stored configuration did not have was not live. -/
theorem Registered.free {cfg : Config} (hw : Registered deps w) (hcfg : w.stored deps = some cfg)
    (hname : name ∉ cfg.envs) : w.loopOf name = none := by
  by_contra hlive
  obtain ⟨c, hc, hmem⟩ := hw.configured name hlive
  obtain rfl : c = cfg := Option.some.inj (hc.symm.trans hcfg)
  exact hname hmem

omit hseals in
/-- A name that is free before the transform and stored after it may be added. -/
theorem Persisted.addable {change : Mutate.Change} {a : change.Out} {cfg cfg' : Config}
    (h : Persisted deps change a cfg cfg' w w') (hw : Registered deps w) (hold : name ∉ cfg.envs) :
    w'.loopOf name = none := by
  rw [h.loopOf]
  exact hw.free h.before hold

omit hseals in
theorem Persisted.configured_of_mem {change : Mutate.Change} {a : change.Out} {cfg cfg' : Config}
    (h : Persisted deps change a cfg cfg' w w') (hnew : name ∈ cfg'.envs) :
    w'.Configured deps name :=
  ⟨cfg', h.after, hnew⟩

theorem addEnvReq_keeps (dto : EnvInputDto) :
    Keeps (settledSem deps) (Registered deps) (addEnvReq deps peer dto) := by
  refine keeps_ask_bind rfl fun raw => ?_
  intro w hw
  refine wp_ask_bind fun persisted w₁ hpersist => ?_
  rcases persist_step hseals hpersist with ⟨e, rfl, hstill⟩ | ⟨out, cfg, cfg', rfl, hdone⟩
  · exact keeps_of_still (failMsg_still ..) w₁ (hstill.registered hw)
  · have hw₁ : Registered deps w₁ := hdone.registered hw rfl
    have hspec : (Mutate.addEnv deps.mutate raw dto.args).Atomic cfg fun _ cfg' =>
        dto.name ∉ cfg.envs ∧ dto.name ∈ cfg'.envs :=
      Mutate.addEnv_spec fun p _ hname _ _ _ =>
        ⟨hname, ExtTreeMap.mem_insert.mpr (Or.inl (by simp [EnvInputDto.args]))⟩
    obtain ⟨hold, hnew⟩ := hspec.of_exec hdone.ran
    refine wp_ask_bind fun loaded w₂ hload => ?_
    obtain ⟨rfl, -⟩ := loadConfig_step hload.1
    cases loaded with
    | error e => exact keeps_of_still (failMsg_still ..) w₂ hw₁
    | ok c =>
      dsimp only
      cases c.envs[dto.name]? with
      | none => exact keeps_of_still (failMsg_still ..) w₂ hw₁
      | some env =>
        have hadd : wp (settledSem deps) (applyAddEnv deps c env dto.name)
            (fun _ _ w' => Registered deps w') w₂ := by
          refine wp_mono (applyAddEnv_adds hw₁.wired (hdone.addable hw hold)) fun _ _ w₃ hadds => ?_
          refine hadds.registered hw₁ fun n hn => ?_
          obtain rfl := List.mem_singleton.mp hn
          exact hdone.configured_of_mem hnew
        refine wp_bind.mpr (wp_attempt.mpr (wp_mono hadd ?_))
        intro t added w₃ hw₃
        cases added with
        | ok _ => exact keeps_of_still (allowed_still ..) w₃ hw₃
        | err e => exact keeps_of_still (tokenButNotLive_still ..) w₃ hw₃
        | panic => exact hw₃

/-- Nothing that was removed is left running, and the rest stays as it was. -/
theorem rmEnvReq_spec (name : String) (hw : Registered deps w) :
    wp (settledSem deps) (rmEnvReq deps peer name) (fun _ out w' => Registered deps w' ∧
      (out = .ok .ok → w'.loopOf name = none)) w := by
  refine wp_ask_bind fun persisted w₁ hpersist => ?_
  rcases persist_step hseals hpersist with ⟨e, rfl, hstill⟩ | ⟨u, cfg, cfg', rfl, hdone⟩
  · refine wp_ask_bind fun _ w₂ hemit => wp_halt.mpr ?_
    exact ⟨(still_step rfl hemit.1).registered (hstill.registered hw), nofun⟩
  · refine wp_bind.mpr (wp_mono (applyRmEnv_spec name (hdone.wired hw.wired)) ?_)
    intro t out w₂ h
    obtain ⟨hwired, hstored, hloop⟩ := h
    have hgone : w₂.loopOf name = none := by rw [hloop, if_pos rfl]
    have hw₂ : Registered deps w₂ := by
      refine ⟨hwired, fun n hn => ⟨cfg', hstored.trans hdone.after, ?_⟩⟩
      rw [hloop] at hn
      by_cases hname : name = n
      · simp [hname] at hn
      · rw [if_neg hname] at hn
        exact hdone.configured hw hn fun h => hname (Mutate.Change.rmEnv.inj h)
    cases out with
    | ok u =>
      refine wp_mono (still_of_uses (allowed_still ..) w₂) fun _ _ w₃ hstill => ?_
      exact ⟨hstill.registered hw₂, fun _ => (hstill.loopOf name).trans hgone⟩
    | err e => exact ⟨hw₂, nofun⟩
    | panic => exact ⟨hw₂, nofun⟩

theorem importReq_keeps (fragment : Config) :
    Keeps (settledSem deps) (Registered deps) (importReq deps peer fragment) := by
  intro w hw
  refine wp_ask_bind fun persisted w₁ hpersist => ?_
  rcases persist_step hseals hpersist with ⟨e, rfl, hstill⟩ | ⟨u, cfg, cfg', rfl, hdone⟩
  · exact keeps_of_still (failMsg_still ..) w₁ (hstill.registered hw)
  · have hw₁ : Registered deps w₁ := hdone.registered hw rfl
    have hmerged : Mutate.Merged cfg fragment cfg' :=
      (Mutate.mergeImport_atomic cfg fragment).of_exec hdone.ran
    refine wp_ask_bind fun loaded w₂ hload => ?_
    obtain ⟨rfl, -⟩ := loadConfig_step hload.1
    cases loaded with
    | error e => exact keeps_of_still (failMsg_still ..) w₂ hw₁
    | ok c =>
      have hkeys (n : String) : n ∈ fragment.envs.keys ↔ n ∈ fragment.envs := ExtTreeMap.mem_keys
      have hnodup : fragment.envs.keys.Nodup := ExtTreeMap.nodup_keys
      have hfree : ∀ n ∈ fragment.envs.keys, w₂.loopOf n = none := fun n hn =>
        hdone.addable hw (hmerged.envs.disjoint n ((hkeys n).mp hn))
      have hadd : wp (settledSem deps) (addEnvs deps c fragment.envs.keys)
          (fun _ _ w' => Registered deps w') w₂ := by
        refine wp_mono (addEnvs_adds c hnodup hw₁.wired hfree) fun _ _ w₃ hadds => ?_
        refine hadds.registered hw₁ fun n hn => ?_
        exact hdone.configured_of_mem (hmerged.envs.mem_iff.mpr (Or.inr ((hkeys n).mp hn)))
      refine wp_bind.mpr (wp_mono hadd ?_)
      intro t out w₃ hw₃
      cases out with
      | ok failed =>
        cases failed with
        | none => exact keeps_of_still (allowed_still ..) w₃ hw₃
        | some failure => exact keeps_of_still (failMsg_still ..) w₃ hw₃
      | err e => exact hw₃
      | panic => exact hw₃

omit hseals in
theorem listRows_still (action : String) (rows : Config → List String) :
    StillProg (listRows deps peer action rows) := by
  refine uses_bind (ask_still rfl) fun loaded => ?_
  cases loaded with
  | error e => exact failMsg_still ..
  | ok cfg => exact allowed_still ..

omit hseals in
theorem auditTail_still (n : ℕ) : StillProg (auditTail peer n) := by
  refine uses_bind (ask_still rfl) fun found => ?_
  cases found with
  | false => exact uses_halt _
  | true =>
    refine uses_bind (ask_still rfl) fun listed => ?_
    cases listed with
    | error e => exact failMsg_still ..
    | ok entries =>
      dsimp only
      cases ((entries.filter (·.startsWith "audit.jsonl")).mergeSort).getLast? with
      | none => exact uses_halt _
      | some latest =>
        refine uses_bind (ask_still rfl) fun body => ?_
        cases body with
        | error e => exact failMsg_still ..
        | ok body => exact uses_halt _

omit hseals in
theorem probeReq_still (env : Option String) (all : Bool) :
    StillProg (probeReq deps peer env all) := by
  unfold probeReq
  dsimp only
  cases (if all = true then some Probe.all else env.map Probe.one) with
  | none => exact failMsg_still ..
  | some which =>
    refine uses_bind (ask_still rfl) fun loaded => ?_
    cases loaded with
    | error e => exact failMsg_still ..
    | ok cfg => exact uses_bind (probeEnvs_still deps cfg _) fun results => allowed_still ..

theorem dispatch_keeps (req : Request) :
    Keeps (settledSem deps) (Registered deps) (dispatch deps peer req) := by
  cases req with
  | hello version => exact keeps_halt _
  | addBastion dto => exact simpleMutation_keeps hseals peer rfl _ _
  | rmBastion name => exact rmBastionReq_keeps hseals peer name
  | setFingerprint bastion fingerprint =>
    exact setFingerprintReq_keeps hseals peer bastion fingerprint
  | addCred dto => exact simpleMutation_keeps hseals peer rfl _ _
  | rotateCred name password => exact rotateCredReq_keeps hseals peer name password
  | rmCred name => exact simpleMutation_keeps hseals peer rfl _ _
  | addEnv dto => exact addEnvReq_keeps hseals peer dto
  | rmEnv name => exact fun w hw => wp_mono (rmEnvReq_spec hseals peer name hw) fun _ _ _ h => h.1
  | grant env => exact grantReq_keeps hseals peer env
  | setPolicy env target confirmUnsafe => exact setPolicyReq_keeps hseals peer env target confirmUnsafe
  | import_ fragment => exact importReq_keeps hseals peer fragment
  | listBastions => exact keeps_of_still (listRows_still ..)
  | listCreds => exact keeps_of_still (listRows_still ..)
  | listEnvs => exact keeps_of_still (listRows_still ..)
  | auditTail n => exact keeps_of_still (auditTail_still peer n)
  | probe env all => exact keeps_of_still (probeReq_still peer env all)

end

/-! ## The start -/

theorem bindEnv_adds {cfg : Config} {env : Env} (hw : Wired w) (hfree : w.loopOf name = none) :
    wp (settledSem deps) (bindEnv deps cfg name env) (fun _ _ w' => Adds deps [name] w w') w := by
  unfold bindEnv
  by_cases hengine : env.engine = .msSql
  · simp only [if_pos hengine]
    exact wp_halt.mpr ((Still.refl w).adds hw _)
  · simp only [if_neg hengine]
    split_ifs with hexposed
    · exact wp_halt.mpr ((Still.refl w).adds hw _)
    · exact applyAddEnv_adds hw hfree

theorem bindEnvs_adds (cfg : Config) (entries : List (String × Env)) (hw : Wired w)
    (hnodup : (entries.map Prod.fst).Nodup)
    (hfree : ∀ n ∈ entries.map Prod.fst, w.loopOf n = none) :
    wp (settledSem deps) (bindEnvs deps cfg entries)
      (fun _ _ w' => Adds deps (entries.map Prod.fst) w w') w := by
  induction entries generalizing w with
  | nil => exact wp_halt.mpr ((Still.refl w).adds hw _)
  | cons entry rest ih =>
    obtain ⟨hname, hrest⟩ := List.nodup_cons.mp hnodup
    obtain ⟨hfirst, hothers⟩ := List.forall_mem_cons.mp hfree
    refine wp_bind.mpr (wp_mono (bindEnv_adds hw hfirst) ?_)
    intro t out w₁ hadds
    cases out with
    | err e => exact hadds.mono (by simp)
    | panic => exact hadds.mono (by simp)
    | ok _ =>
      have hfree₁ : ∀ n ∈ rest.map Prod.fst, w₁.loopOf n = none := by
        intro n hn
        have hne : n ∉ [entry.1] := by
          rw [List.mem_singleton]
          exact fun h => hname (h ▸ hn)
        rw [hadds.frame n hne, hothers n hn]
      exact wp_mono (ih hadds.wired hrest hfree₁) fun _ _ _ h => hadds.cons h

theorem mem_overrideIdle {secs : Option UInt32} {cfg : Config} {n : String} :
    n ∈ (overrideIdle secs cfg).envs ↔ n ∈ cfg.envs := by
  cases secs with
  | none => rfl
  | some secs => exact ExtTreeMap.mem_map

theorem run_registered {idleTimeoutSecs : Option UInt32} (hlive : w.live = ∅) (hloops : w.loops = [])
    (hkept : w.replaced = []) :
    wp (settledSem deps) (run deps idleTimeoutSecs) (fun _ _ w' => Registered deps w') w := by
  have hnone (n : String) : w.loopOf n = none := by simp [World.loopOf, hlive]
  have hwired : Wired w := by
    refine ⟨fun id n => ?_, ?_, hkept⟩
    · simp [hloops, hnone]
    · simp [hloops]
  have hw : Registered deps w := ⟨hwired, fun n hn => absurd (hnone n) hn⟩
  refine wp_ask_bind fun loaded w₁ hload => ?_
  obtain ⟨rfl, hcfg⟩ := loadConfig_step hload.1
  cases loaded with
  | error e => exact wp_halt.mpr hw
  | ok cfg =>
    have hkeys : (overrideIdle idleTimeoutSecs cfg).envs.toList.map Prod.fst =
        (overrideIdle idleTimeoutSecs cfg).envs.keys := ExtTreeMap.map_fst_toList_eq_keys
    have hnodup := hkeys ▸ ExtTreeMap.nodup_keys
    refine wp_mono (bindEnvs_adds _ _ hwired hnodup fun n _ => hnone n) fun _ _ w₂ h => ?_
    refine h.registered hw fun n hn => ⟨cfg, hcfg cfg rfl, ?_⟩
    rw [hkeys, ExtTreeMap.mem_keys] at hn
    exact mem_overrideIdle.mp hn

theorem Reached.registered (hseals : deps.seals.Lawful) (h : Reached deps (settledSem deps) w) :
    Registered deps w := by
  induction h with
  | started idleTimeoutSecs hlive hloops hsessions hkept hexec =>
    exact run_registered hlive hloops hkept _ _ _ hexec
  | served peer req _ hexec ih => exact dispatch_keeps hseals peer req _ ih _ _ _ hexec

/-- Between requests every live name is stored and has its one accept loop, no addition has
overwritten a handle, and a successful removal leaves no loop of its name. -/
theorem registry_invariant (hseals : deps.seals.Lawful) (h : Reached deps (settledSem deps) w) :
    (∀ name ∈ w.live, ∃ cfg, w.stored deps = some cfg ∧ name ∈ cfg.envs) ∧
    (∀ name, (w.loops.filter fun l => l.2 = name) =
      ((w.live[name]?).map fun handle => (handle.loop, name)).toList) ∧
    w.replaced = [] ∧
    ∀ peer name t w', Exec (settledSem deps) (dispatch deps peer (.rmEnv name)) w t (.ok .ok) w' →
      name ∉ w'.live ∧ ∀ id, (id, name) ∉ w'.loops := by
  have hw : Registered deps w := h.registered hseals
  refine ⟨fun name hname => hw.configured name (mem_live_iff.mp hname), ?_, hw.wired.kept, ?_⟩
  · intro name
    cases hlive : w.live[name]? with
    | none =>
      have hnone : w.loopOf name = none := by simp [World.loopOf, hlive]
      simp only [Option.map_none, Option.toList_none, List.filter_eq_nil_iff, decide_eq_true_eq]
      rintro ⟨id, n⟩ hmem rfl
      simp [(hw.wired.loop_iff id n).mp hmem] at hnone
    | some handle =>
      have hloop : w.loopOf name = some handle.loop := by simp [World.loopOf, hlive]
      exact hw.wired.loops_of hloop
  · intro peer name t w' hexec
    obtain ⟨hw', hgone⟩ := rmEnvReq_spec hseals peer name hw _ _ _ hexec
    have hnone := hgone rfl
    refine ⟨fun hmem => mem_live_iff.mp hmem hnone, fun id hmem => ?_⟩
    simp [(hw'.wired.loop_iff id name).mp hmem] at hnone

/-! ## A daemon that serves one environment -/

def sampleEnv : Env where
  backendHost := "db"
  backendPort := 3306
  defaultDatabase := none
  bastion := none
  credential := "c"
  policy := .readOnly
  clientAuth := .nativePassword []
  listenPort := 6033
  pool := {}
  engine := .mySql

def sampleConfig : Config where
  credentials := (∅ : Table Credential).insert "c" ⟨"u", "pw"⟩
  envs := (∅ : Table Env).insert "app" sampleEnv

def sampleDaemon (cfgs : List Config) : DaemonDeps where
  seals := Store.listedSeals cfgs
  mutate := Store.sampleMutateDeps
  showState _ := "state error"
  parseSocketAddr s := .ok s
  parsesLoopback _ := false
  stateDir := Store.sampleDir
  listenHost := "127.0.0.1"
  allowTofu := false
  allowInsecurePgCleartext := false

/-- A store that holds `cfg`, sealed under a fixed salt and nonce. -/
def storeOf (cfgs : List Config) (cfg : Config) : Store.World where
  disk p := if p = Store.sealedPath Store.sampleDir then
      ((Store.listedSeals cfgs).seal (List.replicate 16 1) (List.replicate 12 2) cfg
        Store.sampleKey []).toOption
    else none
  key := Store.sampleKey

theorem stored_storeOf {cfgs : List Config} (hcfgs : ∀ cfg ∈ cfgs, cfg.schemaVersion = 2)
    {cfg : Config} (hmem : cfg ∈ cfgs) (hvalid : cfg.Valid) :
    Store.stored (Store.listedSeals cfgs) Store.sampleDir (storeOf cfgs cfg) = some cfg := by
  obtain ⟨blob, hblob⟩ := Store.listedSeals_seals hmem Store.sampleKey (List.replicate 16 1)
    (List.replicate 12 2)
  have hopen := Store.unsealed_of_seal (Store.listedSeals_lawful hcfgs) hvalid (by rfl) (by rfl) hblob
  have hdisk : (storeOf cfgs cfg).disk (Store.sealedPath Store.sampleDir) = some blob := by
    simp only [storeOf, if_true, hblob]
    rfl
  rw [Store.stored, hdisk, Option.bind_some]
  exact hopen

theorem exec_loadConfig {cfg : Config} (h : w.stored deps = some cfg) :
    settledSem deps w .loadConfig (.ok cfg) w := by
  obtain ⟨t, hload⟩ := Store.loadConfig_succeeds h
  exact ⟨⟨⟨t, hload⟩, rfl⟩, trivial⟩

/-- The runtime of an environment that is reached without a tunnel. -/
def directRuntime (name : String) (env : Env) (cred : Credential)
    (listenAddr : SocketAddr) (pool : ℕ) : EnvRuntime where
  name := name
  engine := env.engine
  backend := ⟨pool, .fromEnvCredential env cred, max env.pool.maxSize 1⟩
  policy := env.policy
  clientAuth := env.clientAuth
  listenAddr := listenAddr
  idleTimeout := env.pool.idleTimeoutSecs
  forwards := []

/-- With a pool and a listener to be had, an addition without a tunnel goes through. -/
theorem applyAddEnv_direct {cfg : Config} {env : Env} {cred : Credential} {addr : SocketAddr}
    {id : LoopId} (pool : ℕ) (hbastion : env.bastion = none) (hengine : env.engine ≠ .msSql)
    (hcred : cfg.credentials[env.credential]? = some cred)
    (haddr : deps.parseSocketAddr (deps.listenHost ++ ":" ++ toString env.listenPort.toNat) = .ok addr)
    (hid : id ∉ w.loops.map Prod.fst) (hfree : name ∉ w.live) :
    ∃ t, Exec (settledSem deps) (applyAddEnv deps cfg env name) w t (.ok ())
      { w with
        live := w.live.insert name ⟨directRuntime name env cred addr pool, id⟩
        loops := (id, name) :: w.loops } := by
  have hbuild : settledSem deps w
      (.buildBackend env.engine (.fromEnvCredential env cred) (max env.pool.maxSize 1)) (.ok pool) w :=
    ⟨⟨rfl, fun h => absurd h hengine⟩, trivial⟩
  have hlisten : settledSem deps w (.bindListener addr) (.ok 0) w := ⟨rfl, trivial⟩
  let runtime := directRuntime name env cred addr pool
  have hspawn : settledSem deps w (.spawnLoop runtime 0) id
      { w with loops := (id, name) :: w.loops } := ⟨⟨hid, rfl⟩, trivial⟩
  have hinsert : settledSem deps { w with loops := (id, name) :: w.loops }
      (.insertEnv name runtime id) () { w with
        live := w.live.insert name ⟨runtime, id⟩
        loops := (id, name) :: w.loops } := ⟨by simp [daemonSem, hfree], trivial⟩
  unfold applyAddEnv buildEnvRuntime establishBackend openTunnel serveRuntime orContext ask perform
  simp only [hbastion, hcred, haddr, Except.mapError, ofExcept_ok, bind_eq, pure_eq, halt_ok_bind,
    call_bind]
  apply Exists.intro
  apply Exec.call hbuild
  apply Exec.call hlisten
  exact .call hspawn (.call hinsert (.halt _ _))

/-- A daemon that has not started yet. -/
def idleWorld (store : Store.World) : World where
  store := store
  live := ∅
  loops := []
  sessions := ∅
  replaced := []

def servingWorld (store : Store.World) (handle : Handle) : World where
  store := store
  live := (∅ : Table Handle).insert handle.runtime.name handle
  loops := [(handle.loop, handle.runtime.name)]
  sessions := ∅
  replaced := []

/-- A start over a configuration of one environment without a tunnel. -/
theorem start_direct {cfg : Config} {env : Env} {cred : Credential} {addr : SocketAddr}
    {store : Store.World} (id : LoopId) (pool : ℕ)
    (hstored : (idleWorld store).stored deps = some cfg) (henvs : cfg.envs.toList = [(name, env)])
    (hengine : env.engine = .mySql) (hbastion : env.bastion = none)
    (hcred : cfg.credentials[env.credential]? = some cred)
    (haddr : deps.parseSocketAddr (deps.listenHost ++ ":" ++ toString env.listenPort.toNat) =
      .ok addr) :
    ∃ t, Exec (settledSem deps) (run deps none) (idleWorld store) t (.ok ())
      (servingWorld store ⟨directRuntime name env cred addr pool, id⟩) := by
  have hne : env.engine ≠ .msSql := by simp [hengine]
  have hid : id ∉ (idleWorld store).loops.map Prod.fst := by simp [idleWorld]
  have hfree : name ∉ (idleWorld store).live := by simp [idleWorld]
  obtain ⟨t, hadd⟩ := applyAddEnv_direct pool hbastion hne hcred haddr hid hfree
  have hbind : bindEnv deps cfg name env = applyAddEnv deps cfg env name := by
    simp [bindEnv, hengine, applyAddEnv]
  have hrun : Exec (settledSem deps) (bindEnvs deps cfg [(name, env)]) (idleWorld store) (t ++ [])
      (.ok ()) (servingWorld store ⟨directRuntime name env cred addr pool, id⟩) := by
    unfold bindEnvs
    rw [hbind]
    exact hadd.bind (.halt _ _)
  refine ⟨⟨.loadConfig, .ok cfg⟩ :: (t ++ []), .call (exec_loadConfig hstored) ?_⟩
  change Exec _ (bindEnvs deps cfg cfg.envs.toList) _ _ _ _
  rw [henvs]
  exact hrun

theorem reached_direct {cfg : Config} {env : Env} {cred : Credential} {addr : SocketAddr}
    {store : Store.World} (id : LoopId) (pool : ℕ)
    (hstored : (idleWorld store).stored deps = some cfg) (henvs : cfg.envs.toList = [(name, env)])
    (hengine : env.engine = .mySql) (hbastion : env.bastion = none)
    (hcred : cfg.credentials[env.credential]? = some cred)
    (haddr : deps.parseSocketAddr (deps.listenHost ++ ":" ++ toString env.listenPort.toNat) =
      .ok addr) :
    Reached deps (settledSem deps)
      (servingWorld store ⟨directRuntime name env cred addr pool, id⟩) := by
  obtain ⟨t, hstart⟩ := start_direct id pool hstored henvs hengine hbastion hcred haddr
  exact .started none rfl rfl rfl rfl hstart

/-- The live registry of a daemon with one environment. -/
theorem registry_invariant_sample : ∃ w,
    Reached (sampleDaemon [sampleConfig]) (settledSem (sampleDaemon [sampleConfig])) w ∧
    "app" ∈ w.live ∧
    (∀ name ∈ w.live, ∃ cfg, w.stored (sampleDaemon [sampleConfig]) = some cfg ∧ name ∈ cfg.envs) ∧
    (∀ name, (w.loops.filter fun l => l.2 = name) =
      ((w.live[name]?).map fun handle => (handle.loop, name)).toList) ∧
    w.replaced = [] ∧
    ∀ peer name t w', Exec (settledSem (sampleDaemon [sampleConfig]))
      (dispatch (sampleDaemon [sampleConfig]) peer (.rmEnv name)) w t (.ok .ok) w' →
      name ∉ w'.live ∧ ∀ id, (id, name) ∉ w'.loops := by
  have hschema : ∀ cfg ∈ [sampleConfig], cfg.schemaVersion = 2 := by simp [sampleConfig]; rfl
  have hvalid : sampleConfig.Valid := by decide
  have hstored := stored_storeOf hschema (List.mem_singleton_self _) hvalid
  have henvs : sampleConfig.envs.toList = [("app", sampleEnv)] := by rfl
  have hcred : sampleConfig.credentials[sampleEnv.credential]? = some ⟨"u", "pw"⟩ := by rfl
  have hreached : Reached (sampleDaemon [sampleConfig]) (settledSem (sampleDaemon [sampleConfig])) _ :=
    reached_direct 0 0 hstored henvs rfl rfl hcred rfl
  refine ⟨_, hreached, ?_, registry_invariant (Store.listedSeals_lawful hschema) hreached⟩
  simp [servingWorld, directRuntime]

end Daemon
end MiddleWhere
