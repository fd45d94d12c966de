import MiddleWhere.Daemon.ServingRuns

/-!
# What a request that fails halfway has done

A rotation visits the environments of its credential in name order and ends at the first one that
cannot be rebuilt. A new fingerprint goes on, and stops what it could not rebuild. A token that was
persisted is returned, unless the configuration cannot be read back.
-/

namespace MiddleWhere.Daemon
open Prog
open Std (ExtTreeMap)

variable {deps : DaemonDeps} {plain : Prop} {cfg cfg' : Config} {w w' : World} {name : String}
  {peer : PeerIdentity}

/-! ## Rotations -/

/-- The environments of `done` run with what is stored now, the others with what they ran with. -/
structure RotatedUpTo (deps : DaemonDeps) (cfg : Config) (done : List String) (w w' : World) :
    Prop where
  rotated : ∀ n ∈ done, ∃ handle, w'.live[n]? = some handle ∧
    Serves deps True True cfg n handle.runtime
  kept : ∀ n, n ∉ done → w'.live[n]? = w.live[n]?

theorem RotatedUpTo.nil (h : w'.live = w.live) : RotatedUpTo deps cfg [] w w' :=
  ⟨by simp, fun n _ => by rw [h]⟩

theorem RotatedUpTo.cons {done : List String} {w₁ w₂ : World} {handle : Handle}
    (hlive : w₁.live = w.live.insert name handle)
    (hserves : Serves deps True True cfg name handle.runtime)
    (h : RotatedUpTo deps cfg done w₁ w₂) : RotatedUpTo deps cfg (name :: done) w w₂ where
  rotated := by
    refine List.forall_mem_cons.mpr ⟨?_, h.rotated⟩
    by_cases hname : name ∈ done
    · exact h.rotated name hname
    · exact ⟨handle, by rw [h.kept name hname, hlive]; simp, hserves⟩
  kept n hn := by
    rw [List.mem_cons, not_or] at hn
    obtain ⟨hne, hn⟩ := hn
    have hne' : ¬ name = n := fun heq => hne heq.symm
    rw [h.kept n hn, hlive]
    simp [ExtTreeMap.getElem?_insert, hne']

theorem rebuildEnvs_exact (names : List String) (hs : SessionsOf deps cfg w)
    (hnames : ∀ n ∈ names, n ∈ cfg.envs) :
    wp (settledSem deps) (rebuildEnvs deps cfg names) (fun _ out w' => Steady deps cfg w w' ∧
      ∃ done left, names = done ++ left ∧ RotatedUpTo deps cfg done w w' ∧
        ((left = [] ∧ out = .ok none) ∨
          ∃ n rest e, left = n :: rest ∧ out = .ok (some (n, e)))) w := by
  induction names generalizing w with
  | nil => exact wp_halt.mpr ⟨Steady.refl w, [], [], rfl, .nil rfl, Or.inl ⟨rfl, rfl⟩⟩
  | cons name rest ih =>
    obtain ⟨hname, hrest⟩ := List.forall_mem_cons.mp hnames
    obtain ⟨env, henv⟩ := Tables.exists_of_mem hname
    unfold rebuildEnvs
    rw [henv]
    refine wp_bind.mpr (wp_attempt.mpr (wp_mono (applyRebuildBackend_serves hs henv) ?_))
    intro t out w₁ hbuilt
    obtain ⟨hsteady, hsafe, hchanged⟩ := hbuilt
    cases out with
    | panic => exact absurd rfl hsafe
    | err e =>
      refine wp_halt.mpr ⟨hsteady, [], name :: rest, rfl, .nil hchanged, Or.inr ?_⟩
      exact ⟨name, rest, e, rfl, rfl⟩
    | ok _ =>
      rw [if_pos rfl] at hchanged
      obtain ⟨handle, rt, -, hserves, hlive⟩ := hchanged
      refine wp_mono (ih (hsteady.sessions hs) hrest) fun t' out' w₂ h => ?_
      obtain ⟨hsteady', done, left, rfl, hrotated, hend⟩ := h
      exact ⟨hsteady.trans hsteady', name :: done, left, rfl, hrotated.cons hlive hserves, hend⟩

/-! ## New fingerprints -/

/-- Of the environments of `names`, those of `stopped` are no longer live, and the live ones run
with what is stored now. -/
structure Repinned (deps : DaemonDeps) (cfg : Config) (names stopped : List String) (w w' : World) :
    Prop where
  stopped_iff : ∀ n, n ∈ stopped ↔ n ∈ w.live ∧ n ∉ w'.live
  subset : ∀ n, n ∈ w'.live → n ∈ w.live
  repinned : ∀ n ∈ names, ∀ handle, w'.live[n]? = some handle →
    Serves deps True True cfg n handle.runtime
  kept : ∀ n, n ∉ names → w'.live[n]? = w.live[n]?

section
variable {rest stopped : List String} {w₁ w₂ : World}

theorem Repinned.nil (h : w'.live = w.live) : Repinned deps cfg [] [] w w' where
  stopped_iff n := by simp [h]
  subset n hn := h ▸ hn
  repinned := by simp
  kept n _ := by rw [h]

theorem Repinned.rebuilt {handle handle' : Handle} (hold : w.live[name]? = some handle')
    (hlive : w₁.live = w.live.insert name handle)
    (hserves : Serves deps True True cfg name handle.runtime)
    (h : Repinned deps cfg rest stopped w₁ w₂) :
    Repinned deps cfg (name :: rest) stopped w w₂ where
  stopped_iff n := by rw [h.stopped_iff, SameNames.update hold hlive n]
  subset n hn := (SameNames.update hold hlive n).mp (h.subset n hn)
  repinned := by
    refine List.forall_mem_cons.mpr ⟨fun handle₂ hlive₂ => ?_, h.repinned⟩
    by_cases hname : name ∈ rest
    · exact h.repinned name hname handle₂ hlive₂
    · rw [h.kept name hname, hlive, ExtTreeMap.getElem?_insert_self] at hlive₂
      exact Option.some.inj hlive₂ ▸ hserves
  kept n hn := by
    rw [List.mem_cons, not_or] at hn
    obtain ⟨hne, hn⟩ := hn
    have hne' : ¬ name = n := fun heq => hne heq.symm
    rw [h.kept n hn, hlive]
    simp [ExtTreeMap.getElem?_insert, hne']

/-- A name that is not live is neither rebuilt nor stopped. -/
theorem Repinned.skipped (hnot : name ∉ w.live) (h : Repinned deps cfg rest stopped w w₂) :
    Repinned deps cfg (name :: rest) stopped w w₂ where
  stopped_iff := h.stopped_iff
  subset := h.subset
  repinned := by
    refine List.forall_mem_cons.mpr ⟨fun handle₂ hlive₂ => ?_, h.repinned⟩
    exact absurd (h.subset name (Tables.mem_of_getElem? hlive₂)) hnot
  kept n hn := h.kept n fun hmem => hn (List.mem_cons_of_mem _ hmem)

theorem Repinned.removed (hmem : name ∈ w.live) (hlive : w₁.live = w.live.erase name)
    (h : Repinned deps cfg rest stopped w₁ w₂) :
    Repinned deps cfg (name :: rest) (name :: stopped) w w₂ := by
  have hsub (n : String) : n ∈ w₁.live ↔ n ≠ name ∧ n ∈ w.live := by
    rw [hlive, ExtTreeMap.mem_erase, ne_comm (a := n)]
    simp
  have hgone : name ∉ w₂.live := fun hn => ((hsub name).mp (h.subset name hn)).1 rfl
  refine ⟨fun n => ?_, fun n hn => ((hsub n).mp (h.subset n hn)).2, ?_, fun n hn => ?_⟩
  · rw [List.mem_cons, h.stopped_iff, hsub]
    by_cases hn : n = name
    · simp [hn, hmem, hgone]
    · simp [hn]
  · refine List.forall_mem_cons.mpr ⟨fun handle₂ hlive₂ => ?_, h.repinned⟩
    exact absurd (Tables.mem_of_getElem? hlive₂) hgone
  · rw [List.mem_cons, not_or] at hn
    obtain ⟨hne, hn⟩ := hn
    have hne' : ¬ name = n := fun heq => hne heq.symm
    rw [h.kept n hn, hlive]
    simp [ExtTreeMap.getElem?_erase, hne']

end

theorem repinEnvs_exact (names : List String) (hs : SessionsOf deps cfg w)
    (hnames : ∀ n ∈ names, n ∈ cfg.envs) :
    wp (settledSem deps) (repinEnvs deps cfg names) (fun _ out w' => Steady deps cfg w w' ∧
      ∃ stopped : List (String × String), out = .ok (stopped.map fun s => s.1 ++ ": " ++ s.2) ∧
        Repinned deps cfg names (stopped.map Prod.fst) w w') w := by
  induction names generalizing w with
  | nil => exact wp_halt.mpr ⟨Steady.refl w, [], rfl, .nil rfl⟩
  | cons name rest ih =>
    obtain ⟨hname, hrest⟩ := List.forall_mem_cons.mp hnames
    obtain ⟨env, henv⟩ := Tables.exists_of_mem hname
    unfold repinEnvs
    rw [henv]
    refine wp_ask_bind fun present w₁ hhas => ?_
    obtain ⟨rfl, rfl⟩ := hhas.1
    by_cases hmem : name ∈ w₁.live
    · simp only [hmem, decide_true, if_true]
      refine wp_bind.mpr (wp_attempt.mpr (wp_mono (applyRebuildBackend_serves hs henv) ?_))
      intro t out w₂ hbuilt
      obtain ⟨hsteady, hsafe, hchanged⟩ := hbuilt
      cases out with
      | panic => exact absurd rfl hsafe
      | ok _ =>
        rw [if_pos rfl] at hchanged
        obtain ⟨handle, rt, hold, hserves, hlive⟩ := hchanged
        refine wp_mono (ih (hsteady.sessions hs) hrest) fun t' out' w₃ h => ?_
        obtain ⟨hsteady', stopped, hout, hrepinned⟩ := h
        exact ⟨hsteady.trans hsteady', stopped, hout, hrepinned.rebuilt hold hlive hserves⟩
      | err e =>
        refine wp_bind.mpr (wp_mono (applyRmEnv_serves cfg name) ?_)
        intro t' out' w₃ hgone
        obtain ⟨hsteady₃, rfl, hlive⟩ := hgone
        rw [show w₂.live = w₁.live from hchanged] at hlive
        have hs₃ := hsteady₃.sessions (hsteady.sessions hs)
        refine wp_bind.mpr (wp_mono (ih hs₃ hrest) fun t'' out'' w₄ h => ?_)
        obtain ⟨hsteady', stopped, rfl, hrepinned⟩ := h
        refine wp_halt.mpr ⟨(hsteady.trans hsteady₃).trans hsteady', (name, e) :: stopped, rfl, ?_⟩
        exact hrepinned.removed hmem hlive
    · simp only [hmem, decide_false]
      refine wp_mono (ih hs hrest) fun t out w₂ h => ?_
      obtain ⟨hsteady, stopped, hout, hrepinned⟩ := h
      exact ⟨hsteady, stopped, hout, hrepinned.skipped hmem⟩

/-! ## The requests -/

/-- What a refused update leaves: everything as it was. -/
def Refused (deps : DaemonDeps) (w : World) (out : Outcome String Response) (w' : World) : Prop :=
  w'.stored deps = w.stored deps ∧ w'.live = w.live ∧ ∃ msg, out = .ok (.error msg)

/-- The update is stored, and the configuration could not be read back. -/
def NotReloaded (t : List DaemonEvent) (w : World) (out : Outcome String Response) (w' : World) :
    Prop :=
  w'.live = w.live ∧ (∃ e, ⟨.loadConfig, .error e⟩ ∈ t) ∧ ∃ msg, out = .ok (.error msg)

theorem emit_wp {event : AdminEvent} {resp : Response}
    {Q : List DaemonEvent → Outcome String Response → World → Prop}
    (h : Q [⟨.emit event, ()⟩] (.ok resp) w) :
    wp (settledSem deps) ((ask (.emit event)).bind fun _ => .halt (.ok resp)) Q w := by
  refine wp_call.mpr fun _ w' hemit => wp_halt.mpr ?_
  obtain rfl : w' = w := hemit.1
  exact h

theorem persist_wp (hseals : deps.seals.Lawful) {change : Mutate.Change}
    {f : Except Store.StateError change.Out → DaemonProg Response}
    {Q : List DaemonEvent → Outcome String Response → World → Prop}
    (hstored : w.stored deps = some cfg)
    (herr : ∀ e w', w'.stored deps = w.stored deps → w' = { w with store := w'.store } →
      wp (settledSem deps) (f (.error e)) (fun t => Q (⟨.persist change, .error e⟩ :: t)) w')
    (hok : ∀ a cfg' w', Persisted deps change a cfg cfg' w w' →
      wp (settledSem deps) (f (.ok a)) (fun t => Q (⟨.persist change, .ok a⟩ :: t)) w') :
    wp (settledSem deps) ((ask (.persist change)).bind f) Q w := by
  refine wp_ask_bind fun r w' h => ?_
  obtain ⟨⟨⟨t, hexec⟩, hsame⟩, hsettled⟩ := h
  cases r with
  | error e => exact herr e w' hsettled hsame
  | ok a =>
    obtain ⟨cfg₀, cfg', hbefore, hran, hafter⟩ := Store.withConfig_stored hseals hexec
    obtain rfl : cfg = cfg₀ := Option.some.inj (hstored.symm.trans hbefore)
    exact hok a cfg' w' ⟨hbefore, hran, hafter, hsame⟩

theorem reload_wp {f : Except Store.StateError Config → DaemonProg Response}
    {Q : List DaemonEvent → Outcome String Response → World → Prop}
    (hstored : w.stored deps = some cfg)
    (herr : ∀ e, wp (settledSem deps) (f (.error e)) (fun t => Q (⟨.loadConfig, .error e⟩ :: t)) w)
    (hok : wp (settledSem deps) (f (.ok cfg)) (fun t => Q (⟨.loadConfig, .ok cfg⟩ :: t)) w) :
    wp (settledSem deps) ((ask .loadConfig).bind f) Q w := by
  refine wp_ask_bind fun loaded w' hload => ?_
  obtain ⟨rfl, hcfg⟩ := loadConfig_step hload.1
  cases loaded with
  | error e => exact herr e
  | ok cfg₀ =>
    obtain rfl : cfg = cfg₀ := Option.some.inj (hstored.symm.trans (hcfg cfg₀ rfl))
    exact hok

/-- What a rotation can end in. -/
inductive RotationEnd (deps : DaemonDeps) (name password : String) (w : World)
    (t : List DaemonEvent) (out : Outcome String Response) (w' : World) : Prop
  | refused : Refused deps w out w' → RotationEnd deps name password w t out w'
  | unread (cfg : Config) (cred : Credential) : w'.stored deps = some cfg →
      cfg.credentials[name]? = some cred → cred.backendPassword = password →
      NotReloaded t w out w' → RotationEnd deps name password w t out w'
  | rotated (cfg : Config) (cred : Credential) (done left : List String) :
      w'.stored deps = some cfg → cfg.credentials[name]? = some cred →
      cred.backendPassword = password →
      Mutate.usersOf cfg (fun e => e.credential == name) = done ++ left →
      RotatedUpTo deps cfg done w w' →
      ((left = [] ∧ out = .ok .ok) ∨ ∃ n rest e, left = n :: rest ∧
        out = .ok (.error ("config persisted but env " ++ n ++ " could not be applied live " ++
          "(restart the service to finish applying): " ++ e))) →
      RotationEnd deps name password w t out w'

theorem rotateCredReq_exact (hseals : deps.seals.Lawful) (peer : PeerIdentity)
    (name password : String) (hstored : w.stored deps = some cfg) (hs : SessionsOf deps cfg w) :
    wp (settledSem deps) (rotateCredReq deps peer name password)
      (fun t out w' => RotationEnd deps name password w t out w') w := by
  refine persist_wp hseals hstored (fun e w' hsettled hsame => ?_) fun a cfg' w' hp => ?_
  · exact emit_wp (.refused ⟨hsettled, by rw [hsame], _, rfl⟩)
  obtain ⟨c, hc, hcfg'⟩ := Mutate.rotateCred_spec.of_exec hp.ran
  have hlive : w'.live = w.live := by rw [hp.same]
  have hcred : cfg'.credentials[name]? = some { c with backendPassword := password } := by
    simp [hcfg']
  have hs' : SessionsOf deps cfg' w' :=
    (hs.of_sessions (by rw [hp.same])).of_bastions (by rw [hcfg'])
  refine reload_wp hp.after (fun e => emit_wp ?_) ?_
  · exact .unread cfg' _ hp.after hcred rfl ⟨hlive, ⟨e, by simp⟩, _, rfl⟩
  have hnames : ∀ n ∈ Mutate.usersOf cfg' (fun e => e.credential == name), n ∈ cfg'.envs := by
    intro n hn
    obtain ⟨env, henv, -⟩ := Mutate.mem_usersOf_iff.mp hn
    exact Tables.mem_of_getElem? henv
  refine wp_bind.mpr (wp_mono (rebuildEnvs_exact _ hs' hnames) fun t out w₂ h => ?_)
  obtain ⟨hsteady, done, left, husers, hrotated, hend⟩ := h
  have hrotated : RotatedUpTo deps cfg' done w w₂ :=
    ⟨hrotated.rotated, fun n hn => by rw [hrotated.kept n hn, hlive]⟩
  have hafter := hsteady.stored.trans hp.after
  rcases hend with ⟨hleft, rfl⟩ | ⟨n, rest, e, hleft, rfl⟩
  · exact emit_wp (.rotated cfg' _ done left hafter hcred rfl husers hrotated (Or.inl ⟨hleft, rfl⟩))
  · exact emit_wp (.rotated cfg' _ done left hafter hcred rfl husers hrotated
      (Or.inr ⟨n, rest, e, hleft, rfl⟩))

/-- What a new fingerprint can end in. -/
inductive RepinEnd (deps : DaemonDeps) (bastion : String) (fingerprint : HostKeyFingerprint) (w : World)
    (t : List DaemonEvent) (out : Outcome String Response) (w' : World) : Prop
  | refused : Refused deps w out w' → RepinEnd deps bastion fingerprint w t out w'
  | unread (cfg : Config) (entry : Bastion) : w'.stored deps = some cfg →
      cfg.bastions[bastion]? = some entry → entry.pinnedHostKeys = [fingerprint] →
      NotReloaded t w out w' → RepinEnd deps bastion fingerprint w t out w'
  | repinned (cfg : Config) (entry : Bastion) (stopped : List (String × String)) :
      w'.stored deps = some cfg → cfg.bastions[bastion]? = some entry →
      entry.pinnedHostKeys = [fingerprint] →
      Repinned deps cfg (Mutate.usersOf cfg fun e => e.bastion == some bastion)
        (stopped.map Prod.fst) w w' →
      ((stopped = [] ∧ out = .ok .ok) ∨ stopped ≠ [] ∧ out = .ok (.error
        ("new fingerprint saved for bastion " ++ bastion ++ ", but " ++ toString stopped.length ++
          " env(s) could not " ++ "reconnect under it and were STOPPED rather than left on the old, " ++
          "now-untrusted tunnel: " ++
          "; ".intercalate (stopped.map fun s => s.1 ++ ": " ++ s.2) ++
          ". Verify the bastion's real host key, then " ++
          "re-add or restart to bring them back."))) →
      RepinEnd deps bastion fingerprint w t out w'

theorem setFingerprintReq_exact (hseals : deps.seals.Lawful) (peer : PeerIdentity)
    (bastion : String) (fingerprint : HostKeyFingerprint) (hstored : w.stored deps = some cfg)
    (hs : SessionsOf deps cfg w) :
    wp (settledSem deps) (setFingerprintReq deps peer bastion fingerprint)
      (fun t out w' => RepinEnd deps bastion fingerprint w t out w') w := by
  refine persist_wp hseals hstored (fun e w' hsettled hsame => ?_) fun a cfg' w' hp => ?_
  · exact emit_wp (.refused ⟨hsettled, by rw [hsame], _, rfl⟩)
  obtain ⟨b, hb, hcfg'⟩ := Mutate.setFingerprint_spec.of_exec hp.ran
  have hlive : w'.live = w.live := by rw [hp.same]
  have hentry : cfg'.bastions[bastion]? = some { b with pinnedHostKeys := [fingerprint] } := by
    simp [hcfg']
  refine wp_ask_bind fun evicted w₁ hevict => ?_
  have hw₁ : w₁ = { w' with sessions := w'.sessions.erase bastion } := hevict.1.2
  have hstored₁ : w₁.stored deps = some cfg' := (stored_of_store (by rw [hw₁])).trans hp.after
  have hlive₁ : w₁.live = w.live := by rw [hw₁, hlive]
  have hs₁ : SessionsOf deps cfg' w₁ := by
    intro n s hn
    rw [hw₁] at hn
    obtain ⟨hne, hn⟩ := Tables.getElem?_erase_eq_some.mp hn
    obtain ⟨x, hx, hopened⟩ := hs n s (by rw [hp.same] at hn; exact hn)
    refine ⟨x, ?_, hopened⟩
    rw [hcfg']
    exact Tables.getElem?_insert_eq_some.mpr (Or.inr ⟨hne, hx⟩)
  refine reload_wp hstored₁ (fun e => emit_wp ?_) ?_
  · exact .unread cfg' _ hstored₁ hentry rfl ⟨hlive₁, ⟨e, by simp⟩, _, rfl⟩
  have hnames : ∀ n ∈ Mutate.usersOf cfg' (fun e => e.bastion == some bastion), n ∈ cfg'.envs := by
    intro n hn
    obtain ⟨env, henv, -⟩ := Mutate.mem_usersOf_iff.mp hn
    exact Tables.mem_of_getElem? henv
  refine wp_bind.mpr (wp_mono (repinEnvs_exact _ hs₁ hnames) fun t out w₂ h => ?_)
  obtain ⟨hsteady, stopped, rfl, hrepinned⟩ := h
  have hafter := hsteady.stored.trans hstored₁
  have hrepinned : Repinned deps cfg' (Mutate.usersOf cfg' fun e => e.bastion == some bastion)
      (stopped.map Prod.fst) w w₂ := by
    refine ⟨fun n => ?_, fun n hn => hlive₁ ▸ hrepinned.subset n hn, hrepinned.repinned, fun n hn => ?_⟩
    · rw [hrepinned.stopped_iff, hlive₁]
    · rw [hrepinned.kept n hn, hlive₁]
  cases stopped with
  | nil => exact emit_wp (.repinned cfg' _ [] hafter hentry rfl hrepinned (Or.inl ⟨rfl, rfl⟩))
  | cons first rest =>
    refine emit_wp (.repinned cfg' _ (first :: rest) hafter hentry rfl hrepinned (Or.inr ⟨nofun, ?_⟩))
    simp only [List.length_map]

/-- What a request for a token can end in. A verifier that is stored and whose token is lost is
possible only where the configuration could not be read back. -/
inductive TokenEnd (deps : DaemonDeps) (name : String) (w : World) (t : List DaemonEvent)
    (out : Outcome String Response) (w' : World) : Prop
  | refused : Refused deps w out w' → TokenEnd deps name w t out w'
  | unread (cfg : Config) (env : Env) (token : String) : w'.stored deps = some cfg →
      cfg.envs[name]? = some env →
      env.clientAuth = Token.clientAuthFor deps.mutate.hashes env.engine token →
      NotReloaded t w out w' → TokenEnd deps name w t out w'
  | issued (cfg : Config) (env : Env) (dto : NewEnvOutputDto) : w'.stored deps = some cfg →
      cfg.envs[name]? = some env →
      env.clientAuth = Token.clientAuthFor deps.mutate.hashes env.engine dto.token →
      dto.listenPort = env.listenPort → out = .ok (.token dto) →
      ((dto.note = none ∧ ∃ handle, w'.live[name]? = some handle ∧
          handle.runtime.clientAuth = env.clientAuth) ∨
        (dto.note ≠ none ∧ w'.live = w.live)) →
      TokenEnd deps name w t out w'

theorem TokenEnd.of_output {env : Env} {o : Mutate.NewEnvOutput} (note : Option String)
    {t : List DaemonEvent} (hstored : w'.stored deps = some cfg) (hentry : cfg.envs[name]? = some env)
    (hauth : env.clientAuth = Token.clientAuthFor deps.mutate.hashes env.engine o.token)
    (hport : o.listenPort = env.listenPort)
    (hend : (note = none ∧ ∃ handle, w'.live[name]? = some handle ∧
      handle.runtime.clientAuth = env.clientAuth) ∨ (note ≠ none ∧ w'.live = w.live)) :
    TokenEnd deps name w t (.ok (.token { NewEnvOutputDto.ofOutput o with note := note })) w' :=
  .issued cfg env _ hstored hentry hauth hport rfl hend

theorem tokenButNotLive_wp {action target : String} {o : Mutate.NewEnvOutput} {e : String}
    {Q : List DaemonEvent → Outcome String Response → World → Prop}
    (h : ∀ event note,
      Q [⟨.emit event, ()⟩] (.ok (.token { NewEnvOutputDto.ofOutput o with note := some note })) w) :
    wp (settledSem deps) (tokenButNotLive peer action target o e) Q w := by
  refine wp_call.mpr fun _ w' hemit => wp_halt.mpr ?_
  obtain rfl : w' = w := hemit.1
  exact h _ _

theorem addEnvReq_exact (hseals : deps.seals.Lawful) (peer : PeerIdentity) (dto : EnvInputDto)
    (hstored : w.stored deps = some cfg) (hs : SessionsOf deps cfg w) :
    wp (settledSem deps) (addEnvReq deps peer dto)
      (fun t out w' => TokenEnd deps dto.name w t out w') w := by
  refine wp_ask_bind fun raw w₀ hraw => ?_
  obtain rfl : w₀ = w := hraw.1
  refine persist_wp hseals hstored (fun e w' hsettled hsame => ?_) fun out cfg' w' hp => ?_
  · exact emit_wp (.refused ⟨hsettled, by rw [hsame], _, rfl⟩)
  have hspec : (Mutate.addEnv deps.mutate raw dto.args).Atomic cfg fun out cfg' => ∃ (p : UInt16) (env : Env),
      out = ⟨Token.generateToken raw, p, dto.engine, dto.database⟩ ∧
      env = dto.args.env deps.mutate (Token.generateToken raw) p ∧
      cfg' = { cfg with envs := cfg.envs.insert dto.name env } :=
    Mutate.addEnv_spec fun p _ _ _ _ _ => ⟨p, _, rfl, rfl, rfl⟩
  obtain ⟨p, env, hout, henv, hcfg'⟩ := hspec.of_exec hp.ran
  have hauth : env.clientAuth = Token.clientAuthFor deps.mutate.hashes env.engine out.token := by
    rw [henv, hout]
    rfl
  have hport : out.listenPort = env.listenPort := by
    rw [henv, hout]
    rfl
  have hentry : cfg'.envs[dto.name]? = some env := by simp [hcfg']
  have hlive : w'.live = w₀.live := by rw [hp.same]
  have hs' : SessionsOf deps cfg' w' :=
    (hs.of_sessions (by rw [hp.same])).of_bastions (by rw [hcfg'])
  refine reload_wp hp.after (fun e => emit_wp ?_) ?_
  · exact .unread cfg' env _ hp.after hentry hauth ⟨hlive, ⟨e, by simp⟩, _, rfl⟩
  simp only [hentry]
  refine wp_bind.mpr (wp_attempt.mpr (wp_mono (applyAddEnv_serves hs' hentry) fun t out w₂ h => ?_))
  obtain ⟨hsteady, hsafe, hchanged⟩ := h
  have hafter := hsteady.stored.trans hp.after
  cases out with
  | panic => exact absurd rfl hsafe
  | err e =>
    refine tokenButNotLive_wp fun event note => ?_
    exact .of_output (some note) hafter hentry hauth hport
      (Or.inr ⟨Option.some_ne_none _, Eq.trans hchanged hlive⟩)
  | ok _ =>
    rw [if_pos rfl] at hchanged
    obtain ⟨handle, hserves, hlive₂⟩ := hchanged
    obtain ⟨env', henv', hof, -⟩ := hserves.entry
    obtain rfl : env = env' := Option.some.inj (hentry.symm.trans henv')
    refine emit_wp (.of_output none hafter hentry hauth hport (Or.inl ⟨rfl, handle, ?_, ?_⟩))
    · simp [hlive₂]
    · exact hof.clientAuth

theorem grantReq_exact (hseals : deps.seals.Lawful) (peer : PeerIdentity) (name : String)
    (hstored : w.stored deps = some cfg) :
    wp (settledSem deps) (grantReq deps peer name)
      (fun t out w' => TokenEnd deps name w t out w') w := by
  refine wp_ask_bind fun raw w₀ hraw => ?_
  obtain rfl : w₀ = w := hraw.1
  refine persist_wp hseals hstored (fun e w' hsettled hsame => ?_) fun out cfg' w' hp => ?_
  · exact emit_wp (.refused ⟨hsettled, by rw [hsame], _, rfl⟩)
  have hspec : (Mutate.grantEnv deps.mutate raw name).Atomic cfg fun out cfg' => ∃ (env : Env) (auth : ClientAuth),
      auth = Token.clientAuthFor deps.mutate.hashes env.engine (Token.generateToken raw) ∧
      out = ⟨Token.generateToken raw, env.listenPort, env.engine, env.defaultDatabase⟩ ∧
      cfg' = { cfg with envs := cfg.envs.insert name { env with clientAuth := auth } } :=
    Mutate.grantEnv_spec fun env _ => ⟨env, _, rfl, rfl, rfl⟩
  obtain ⟨env, auth, hauth, hout, hcfg'⟩ := hspec.of_exec hp.ran
  have hport : out.listenPort = env.listenPort := by rw [hout]
  have htoken : Token.generateToken raw = out.token := by rw [hout]
  rw [htoken] at hauth
  have hentry : cfg'.envs[name]? = some { env with clientAuth := auth } := by simp [hcfg']
  have hlive : w'.live = w₀.live := by rw [hp.same]
  refine reload_wp hp.after (fun e => emit_wp ?_) ?_
  · exact .unread cfg' _ _ hp.after hentry hauth ⟨hlive, ⟨e, by simp⟩, _, rfl⟩
  simp only [hentry]
  refine wp_bind.mpr (wp_attempt.mpr (wp_mono (swapRuntime_serves cfg' _) fun t out w₂ h => ?_))
  obtain ⟨hsteady, hsafe, hchanged⟩ := h
  have hafter := hsteady.stored.trans hp.after
  cases out with
  | panic => exact absurd rfl hsafe
  | err e =>
    rw [if_neg nofun] at hchanged
    refine tokenButNotLive_wp fun event note => ?_
    exact .of_output (some note) hafter hentry hauth hport
      (Or.inr ⟨Option.some_ne_none _, hchanged.2.trans hlive⟩)
  | ok _ =>
    rw [if_pos rfl] at hchanged
    obtain ⟨handle, -, hlive₂⟩ := hchanged
    let handle' : Handle := { handle with runtime := { handle.runtime with clientAuth := auth } }
    refine emit_wp (.of_output none hafter hentry hauth hport (Or.inl ⟨rfl, handle', ?_, rfl⟩))
    rw [hlive₂, ExtTreeMap.getElem?_insert_self]

/-! ## From any state that a run reaches -/

theorem ReachedBy.sessions {idleTimeoutSecs : Option UInt32} (hseals : deps.seals.Lawful)
    (h : ReachedBy deps Reloads idleTimeoutSecs w) :
    ∃ cfg, w.stored deps = some cfg ∧ SessionsOf deps cfg w := by
  obtain ⟨cfg, hw⟩ : ∃ cfg, Serving deps False (idleTimeoutSecs = none) cfg w :=
    h.serving hseals fun req t out hreloads => Or.inr ⟨id, hreloads⟩
  exact ⟨cfg, hw.stored, hw.sessions⟩

/-- The requests that issue a token for an environment. -/
def Issues (req : Request) (name : String) : Prop :=
  req = .grant name ∨ ∃ dto : EnvInputDto, req = .addEnv dto ∧ dto.name = name

/-- An update that the transform does not refuse. -/
theorem exec_persist {change : Mutate.Change} {a : change.Out} (hseals : deps.seals.Lawful)
    (hstored : w.stored deps = some cfg)
    (hrun : (change.run deps.mutate).exec cfg = (.ok a, cfg')) (hvalid : cfg'.Valid)
    (hseal : ∀ salt nonce, ∃ blob, deps.seals.seal salt nonce cfg' w.store.key [] = .ok blob) :
    ∃ s, settledSem deps w (.persist change) (.ok a) { w with store := s } ∧
      ({ w with store := s } : World).stored deps = some cfg' := by
  obtain ⟨t, s, hexec⟩ := Store.withConfig_succeeds hstored hrun hvalid hseal
  obtain ⟨cfg₀, cfg₁, hbefore, hran, hafter⟩ := Store.withConfig_stored hseals hexec
  obtain rfl : cfg = cfg₀ := Option.some.inj (hstored.symm.trans hbefore)
  obtain rfl : cfg' = cfg₁ := congrArg Prod.snd (hrun.symm.trans hran)
  exact ⟨s, ⟨⟨⟨t, hexec⟩, rfl⟩, trivial⟩, hafter⟩

def rotatedSample : Config :=
  { sampleConfig with credentials := sampleConfig.credentials.insert "c" ⟨"u", "new"⟩ }

/-- The pool of an environment without a tunnel may be refused. -/
theorem rebuild_refused {env : Env} {cred : Credential} (hbastion : env.bastion = none)
    (hcred : cfg.credentials[env.credential]? = some cred) :
    ∃ t e, Exec (settledSem deps) (applyRebuildBackend deps cfg env name) w t (.err e) w := by
  have hbuild : settledSem deps w
      (.buildBackend env.engine (.fromEnvCredential env cred) (max env.pool.maxSize 1))
      (.error "refused") w := ⟨⟨rfl, fun _ => ⟨_, rfl⟩⟩, trivial⟩
  unfold applyRebuildBackend buildEnvRuntime establishBackend openTunnel orContext ask perform
  simp only [hbastion, hcred, bind_eq, pure_eq, halt_ok_bind, call_bind]
  exact ⟨_, _, .call hbuild (.halt _ _)⟩

theorem exec_emit (event : AdminEvent) (resp : Response) (w : World) :
    Exec (settledSem deps) ((ask (.emit event)).bind fun _ => .halt (.ok resp)) w
      [⟨.emit event, ()⟩] (.ok resp) w :=
  .call ⟨rfl, trivial⟩ (.halt _ _)

theorem exec_rotation_refused {password n : String} {rest : List String} {env : Env}
    {cred : Credential} (peer : PeerIdentity)
    (hpersist : settledSem deps w (.persist (.rotateCred name password)) (.ok ()) w')
    (hstored : w'.stored deps = some cfg)
    (husers : Mutate.usersOf cfg (fun e => e.credential == name) = n :: rest)
    (henv : cfg.envs[n]? = some env) (hbastion : env.bastion = none)
    (hcred : cfg.credentials[env.credential]? = some cred) :
    ∃ t msg, Exec (settledSem deps) (rotateCredReq deps peer name password) w t (.ok (.error msg)) w' := by
  have hbuild : ∃ t e, Exec (settledSem deps) (applyRebuildBackend deps cfg env n) w' t (.err e) w' :=
    rebuild_refused hbastion hcred
  obtain ⟨t, e, hrefused⟩ := hbuild
  have hloop : Exec (settledSem deps) (rebuildEnvs deps cfg (n :: rest)) w' (t ++ [])
      (.ok (some (n, e))) w' := by
    unfold rebuildEnvs
    rw [henv]
    exact (Exec.attempt hrefused).bind (.halt _ _)
  apply Exists.intro
  apply Exists.intro
  apply Exec.call hpersist
  apply Exec.call (exec_loadConfig hstored)
  change Exec _ ((rebuildEnvs deps cfg (Mutate.usersOf cfg fun e => e.credential == name)).bind _) _ _ _ _
  rw [husers]
  exact hloop.bind (exec_emit _ _ _)

theorem sampleServing_stored {cfgs : List Config} (hmem : sampleConfig ∈ cfgs)
    (hschema : ∀ cfg ∈ cfgs, cfg.schemaVersion = 2) :
    (sampleServing cfgs).stored (sampleDaemon cfgs) = some sampleConfig :=
  stored_storeOf hschema hmem (by decide)

def grantedAuth : ClientAuth :=
  Token.clientAuthFor Store.sampleMutateDeps.hashes .mySql (Token.generateToken (List.replicate 32 0))

def grantedConfig : Config :=
  { sampleConfig with
    envs := sampleConfig.envs.insert "app" { sampleEnv with clientAuth := grantedAuth } }

theorem exec_grant {raw : Bytes} {o : Mutate.NewEnvOutput} {env : Env} {handle : Handle}
    (peer : PeerIdentity) (hpersist : settledSem deps w (.persist (.grantEnv raw name)) (.ok o) w')
    (hstored : w'.stored deps = some cfg) (henv : cfg.envs[name]? = some env)
    (hlive : w'.live[name]? = some handle) :
    ∃ t w'' dto, Exec (settledSem deps) (grantReq deps peer name) w t (.ok (.token dto)) w'' := by
  let rt : EnvRuntime := { handle.runtime with clientAuth := env.clientAuth }
  let w'' : World := { w' with live := w'.live.insert name { handle with runtime := rt } }
  have hcurrent : settledSem deps w' (.currentRuntime name) (some handle.runtime) w' := by
    refine ⟨⟨?_, rfl⟩, trivial⟩
    rw [hlive]
    rfl
  have hpublish : settledSem deps w' (.publish name rt) true w'' := by
    refine ⟨?_, trivial⟩
    simp only [daemonSem, hlive]
    exact ⟨trivial, rfl⟩
  have hraw : settledSem deps w (.randomBytes Token.tokenRandBytes) raw w := ⟨rfl, trivial⟩
  have hswap : Exec (settledSem deps) (applySwapAuthz name env.clientAuth) w' _ (.ok ()) w'' :=
    .call hcurrent (.call hpublish (.halt _ _))
  apply Exists.intro
  refine ⟨w'', ?_⟩
  apply Exists.intro
  apply Exec.call hraw
  apply Exec.call hpersist
  apply Exec.call (exec_loadConfig hstored)
  simp only [halt_ok_bind, henv]
  exact (Exec.attempt hswap).bind (exec_emit _ _ _)

/-- The bastion's host key under a fingerprint. -/
def sampleBastion (fingerprint : String) : Bastion where
  host := "bastion"
  port := 22
  sshUser := "ops"
  auth := .password "pw"
  pinnedHostKeys := [⟨"ssh-ed25519", fingerprint⟩]

def tunnelEnv : Env := { sampleEnv with bastion := some "b" }

def tunnelConfig (fingerprint : String) : Config where
  bastions := (∅ : Table Bastion).insert "b" (sampleBastion fingerprint)
  credentials := (∅ : Table Credential).insert "c" ⟨"u", "pw"⟩
  envs := (∅ : Table Env).insert "app" tunnelEnv

section
variable {b : String} {bastion : Bastion} {env : Env} {cred : Credential} {addr : SocketAddr}
  {session : BastionSession}

theorem exec_build_tunnelled {w₁ : World} (hbastion : env.bastion = some b)
    (hentry : cfg.bastions[b]? = some bastion) (hengine : env.engine ≠ .msSql)
    (hcred : cfg.credentials[env.credential]? = some cred)
    (haddr : deps.parseSocketAddr (deps.listenHost ++ ":" ++ toString env.listenPort.toNat) = .ok addr)
    (hopen : settledSem deps w (.getOrOpen b bastion deps.allowTofu) (.ok session) w₁) :
    ∃ t rt, Exec (settledSem deps) (buildEnvRuntime deps name env cfg) w t (.ok rt) w₁ ∧
      rt.name = name := by
  have hforward : settledSem deps w₁
      (.startForward session env.backendHost env.backendPort) (.ok 40000) w₁ := ⟨rfl, trivial⟩
  have hbuild (opts : BackendOpts) : settledSem deps w₁
      (.buildBackend env.engine opts (max env.pool.maxSize 1)) (.ok 0) w₁ :=
    ⟨⟨rfl, fun h => absurd h hengine⟩, trivial⟩
  unfold buildEnvRuntime establishBackend openTunnel openBastion orContext ask perform
  simp only [hbastion, hentry, hcred, haddr, Except.mapError, ofExcept_ok, bind_eq, pure_eq,
    halt_ok_bind, call_bind, Bool.false_eq_true, if_false]
  refine ⟨_, _, .call hopen (.call hforward (.call (hbuild _) (.halt _ _))), rfl⟩

/-- The bastion no longer shows the key that is pinned. -/
theorem exec_rebuild_unopened (hbastion : env.bastion = some b)
    (hentry : cfg.bastions[b]? = some bastion) (hcred : cfg.credentials[env.credential]? = some cred)
    (hclosed : w.sessions[b]? = none) :
    ∃ t e, Exec (settledSem deps) (applyRebuildBackend deps cfg env name) w t (.err e) w := by
  have hopen : settledSem deps w (.getOrOpen b bastion deps.allowTofu) (.error "host key mismatch") w := by
    refine ⟨?_, trivial⟩
    simp only [daemonSem, hclosed]
    exact Or.inl ⟨_, rfl, trivial⟩
  unfold applyRebuildBackend buildEnvRuntime establishBackend openTunnel openBastion orContext ask perform
  simp only [hbastion, hentry, hcred, bind_eq, pure_eq, halt_ok_bind, call_bind, Bool.false_eq_true,
    if_false]
  exact ⟨_, _, .call hopen (.halt _ _)⟩

theorem exec_start_tunnelled {store : Store.World}
    (hstored : (idleWorld store).stored deps = some cfg) (henvs : cfg.envs.toList = [(name, env)])
    (hengine : env.engine = .mySql) (hbastion : env.bastion = some b)
    (hentry : cfg.bastions[b]? = some bastion) (hopened : Opened bastion deps.allowTofu session)
    (hcred : cfg.credentials[env.credential]? = some cred)
    (haddr : deps.parseSocketAddr (deps.listenHost ++ ":" ++ toString env.listenPort.toNat) =
      .ok addr) :
    ∃ t w, Exec (settledSem deps) (run deps none) (idleWorld store) t (.ok ()) w ∧
      w.store = store ∧ w.sessions = (∅ : Table BastionSession).insert b session ∧ name ∈ w.live := by
  let w₁ : World := { idleWorld store with sessions := (∅ : Table BastionSession).insert b session }
  have hopen : settledSem deps (idleWorld store) (.getOrOpen b bastion deps.allowTofu) (.ok session) w₁ := by
    refine ⟨?_, trivial⟩
    have hnone : (idleWorld store).sessions[b]? = none := by simp [idleWorld]
    simp only [daemonSem, hnone]
    exact Or.inr ⟨session, rfl, hopened, rfl⟩
  have hne : env.engine ≠ .msSql := by simp [hengine]
  obtain ⟨t, rt, hbuild, hname⟩ := exec_build_tunnelled hbastion hentry hne hcred haddr hopen
  let w₂ : World := { w₁ with loops := [(0, rt.name)] }
  let w₃ : World := { w₂ with live := (∅ : Table Handle).insert name ⟨rt, 0⟩ }
  have hlisten : settledSem deps w₁ (.bindListener rt.listenAddr) (.ok 0) w₁ := ⟨rfl, trivial⟩
  have hspawn : settledSem deps w₁ (.spawnLoop rt 0) 0 w₂ :=
    ⟨⟨by simp [w₁, idleWorld], rfl⟩, trivial⟩
  have hinsert : settledSem deps w₂ (.insertEnv name rt 0) () w₃ := by
    refine ⟨?_, trivial⟩
    simp [daemonSem, w₃, w₂, w₁, idleWorld]
  have hserve : Exec (settledSem deps) (serveRuntime name rt) w₁ _ (.ok ()) w₃ :=
    .call hlisten (.call hspawn (.call hinsert (.halt _ _)))
  have hbind : bindEnv deps cfg name env =
      (buildEnvRuntime deps name env cfg).bind fun rt => serveRuntime name rt := by
    simp [bindEnv, hengine]
  have hrun : ∃ t, Exec (settledSem deps) (bindEnvs deps cfg [(name, env)]) (idleWorld store) t
      (.ok ()) w₃ := by
    unfold bindEnvs
    rw [hbind]
    exact ⟨_, (hbuild.bind hserve).bind (.halt _ _)⟩
  obtain ⟨t', hrun⟩ := hrun
  refine ⟨⟨.loadConfig, .ok cfg⟩ :: t', w₃, .call (exec_loadConfig hstored) ?_, rfl, rfl, by simp [w₃]⟩
  change Exec _ (bindEnvs deps cfg cfg.envs.toList) _ _ _ _
  rw [henvs]
  exact hrun

theorem exec_repin_stopped {fingerprint : HostKeyFingerprint} (peer : PeerIdentity)
    (hpersist : settledSem deps w (.persist (.setFingerprint b fingerprint)) (.ok ()) w')
    (hstored : w'.stored deps = some cfg)
    (husers : Mutate.usersOf cfg (fun e => e.bastion == some b) = [name])
    (henv : cfg.envs[name]? = some env) (hbastion : env.bastion = some b)
    (hentry : cfg.bastions[b]? = some bastion) (hcred : cfg.credentials[env.credential]? = some cred)
    (hlive : name ∈ w'.live) :
    ∃ t w'' msg, Exec (settledSem deps) (setFingerprintReq deps peer b fingerprint) w t
      (.ok (.error msg)) w'' := by
  let w₁ : World := { w' with sessions := w'.sessions.erase b }
  have hevict : settledSem deps w' (.evict b) (decide (b ∈ w'.sessions)) w₁ := ⟨⟨rfl, rfl⟩, trivial⟩
  have hstored₁ : w₁.stored deps = some cfg := hstored
  have hhas : settledSem deps w₁ (.hasEnv name) true w₁ := ⟨⟨by simp [w₁, hlive], rfl⟩, trivial⟩
  have hbuild : ∃ t e, Exec (settledSem deps) (applyRebuildBackend deps cfg env name) w₁ t (.err e) w₁ :=
    exec_rebuild_unopened hbastion hentry hcred (by simp [w₁])
  obtain ⟨t, e, hrefused⟩ := hbuild
  obtain ⟨handle, hhandle⟩ := Tables.exists_of_mem hlive
  let w₂ : World := { w₁ with live := w₁.live.erase name }
  let w₃ : World := { w₂ with loops := w₂.loops.filter fun l => l.1 ≠ handle.loop }
  have hremove : settledSem deps w₁ (.removeEnv name) (some handle.loop) w₂ := by
    refine ⟨⟨?_, rfl⟩, trivial⟩
    simp [w₁, hhandle]
  have habort : settledSem deps w₂ (.abortLoop handle.loop) () w₃ := ⟨rfl, trivial⟩
  have hrm : Exec (settledSem deps) (applyRmEnv name) w₁ _ (.ok ()) w₃ :=
    .call hremove (.call habort (.halt _ _))
  have hloop : ∃ t, Exec (settledSem deps) (repinEnvs deps cfg [name]) w₁ t
      (.ok [name ++ ": " ++ e]) w₃ := by
    unfold repinEnvs
    rw [henv]
    exact ⟨_, .call hhas ((Exec.attempt hrefused).bind (hrm.bind (.halt _ _)))⟩
  obtain ⟨t', hloop⟩ := hloop
  apply Exists.intro
  refine ⟨w₃, ?_⟩
  apply Exists.intro
  apply Exec.call hpersist
  apply Exec.call hevict
  apply Exec.call (exec_loadConfig hstored₁)
  change Exec _ ((repinEnvs deps cfg (Mutate.usersOf cfg fun e => e.bastion == some b)).bind _) _ _ _ _
  rw [husers]
  exact hloop.bind (exec_emit _ _ _)

end

end MiddleWhere.Daemon
