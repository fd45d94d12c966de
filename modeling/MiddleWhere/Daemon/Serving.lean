import MiddleWhere.Core.MutateExact
import MiddleWhere.Daemon.RegistryRuns

/-!
# What a live environment runs with

`Serves` compares the runtime of a live environment with the stored entry of its name: the
engine, the policy, the verifier and the address of the entry, a tunnel opened under the bastion
entry that is stored now, and, where the environment is fresh, the stored credential. Building a
runtime gives all of it. The loops that rebuild or add environments are followed name by name.
-/

namespace MiddleWhere.Daemon
open Prog
open Std (ExtTreeMap)

/-! ## Runtimes and entries -/

section
variable (deps : DaemonDeps)

/-- Every cached session was opened under the entry that its bastion has in `cfg`. -/
def SessionsOf (cfg : Config) (w : World) : Prop :=
  ∀ (name : String) (s : BastionSession), w.sessions[name]? = some s →
    ∃ bastion, cfg.bastions[name]? = some bastion ∧ Opened bastion deps.allowTofu s

/-- No bastion and no tunnel, or one tunnel through a session opened under the bastion's entry. -/
def Tunnelled (cfg : Config) (env : Env) (forwards : List LocalForward) : Prop :=
  (env.bastion = none ∧ forwards = []) ∨
    ∃ name bastion forward, env.bastion = some name ∧ cfg.bastions[name]? = some bastion ∧
      forwards = [forward] ∧ Opened bastion deps.allowTofu forward.session ∧
      forward.host = env.backendHost ∧ forward.port = env.backendPort

structure OfEntry (cfg : Config) (env : Env) (rt : EnvRuntime) : Prop where
  engine : rt.engine = env.engine
  supported : env.engine ≠ .msSql
  policy : rt.policy = env.policy
  clientAuth : rt.clientAuth = env.clientAuth
  addr : deps.parseSocketAddr (deps.listenHost ++ ":" ++ toString env.listenPort.toNat) =
    .ok rt.listenAddr
  tunnel : Tunnelled deps cfg env rt.forwards

/-- What the pool dials: the backend, or the local end of the tunnel. -/
def dialed (opts : BackendOpts) : List LocalForward → BackendOpts
  | [] => opts
  | forward :: _ => { opts with host := "127.0.0.1", port := forward.localPort }

def Dials (cfg : Config) (env : Env) (rt : EnvRuntime) : Prop :=
  ∃ cred, cfg.credentials[env.credential]? = some cred ∧
    rt.backend.opts = dialed (.fromEnvCredential env cred) rt.forwards ∧
    rt.backend.maxSize = max env.pool.maxSize 1

/-- `fresh` asks for the stored credential too, and `plain` for the stored idle timeout. -/
structure Serves (fresh plain : Prop) (cfg : Config) (name : String) (rt : EnvRuntime) : Prop where
  named : rt.name = name
  entry : ∃ env, cfg.envs[name]? = some env ∧ OfEntry deps cfg env rt ∧
    (fresh → Dials cfg env rt) ∧ (plain → rt.idleTimeout = env.pool.idleTimeoutSecs)

end

/-- What holds of the runtime of every live environment. -/
def World.AllLive (w : World) (P : String → EnvRuntime → Prop) : Prop :=
  ∀ (name : String) (h : Handle), w.live[name]? = some h → P name h.runtime

/-- The daemon serves what `cfg`, the stored configuration, says. A fresh one leaves out none of
the environments that it can serve. -/
structure Serving (deps : DaemonDeps) (fresh plain : Prop) (cfg : Config) (w : World) : Prop where
  stored : w.stored deps = some cfg
  sessions : SessionsOf deps cfg w
  live : w.AllLive (Serves deps fresh plain cfg)
  complete : fresh → ∀ (name : String) (env : Env), cfg.envs[name]? = some env →
    env.engine ≠ .msSql → name ∈ w.live

variable {deps : DaemonDeps} {fresh plain : Prop} {cfg cfg' : Config} {w w' : World} {name : String}
  {rt : EnvRuntime} {P Q : String → EnvRuntime → Prop}

theorem World.AllLive.mono (h : w.AllLive P) (hPQ : ∀ n rt, P n rt → Q n rt) : w.AllLive Q :=
  fun n handle hn => hPQ n _ (h n handle hn)

theorem World.AllLive.of_live (h : w.AllLive P) (hlive : w'.live = w.live) : w'.AllLive P := by
  unfold World.AllLive
  rw [hlive]
  exact h

theorem World.AllLive.insert {handle : Handle} (h : w.AllLive fun n rt => n ≠ name → P n rt)
    (hname : P name handle.runtime) (hlive : w'.live = w.live.insert name handle) :
    w'.AllLive P := by
  intro n handle' hn
  rw [hlive] at hn
  rcases Tables.getElem?_insert_eq_some.mp hn with ⟨rfl, rfl⟩ | ⟨hne, hold⟩
  · exact hname
  · exact h n handle' hold fun heq => hne heq.symm

theorem World.AllLive.erase (h : w.AllLive fun n rt => n ≠ name → P n rt)
    (hlive : w'.live = w.live.erase name) : w'.AllLive P := by
  intro n handle hn
  rw [hlive, ExtTreeMap.getElem?_erase] at hn
  split_ifs at hn with hne
  exact h n handle hn fun heq => hne (by simp [heq])

theorem Serves.weaken {fresh' plain' : Prop} (h : Serves deps fresh plain cfg name rt)
    (hfresh : fresh' → fresh) (hplain : plain' → plain) : Serves deps fresh' plain' cfg name rt := by
  obtain ⟨env, henv, hof, hdials, hidle⟩ := h.entry
  exact ⟨h.named, env, henv, hof, fun hf => hdials (hfresh hf), fun hp => hidle (hplain hp)⟩

theorem Serves.any {fresh' : Prop} (h : Serves deps fresh plain cfg name rt) (hfresh : fresh' → fresh) :
    Serves deps fresh' plain cfg name rt :=
  h.weaken hfresh id

theorem Serves.mem (h : Serves deps fresh plain cfg name rt) : name ∈ cfg.envs := by
  obtain ⟨env, henv, -⟩ := h.entry
  exact Tables.mem_of_getElem? henv

/-- The entries that the environment's runtime was compared with are the same in `cfg'`. -/
theorem Serves.transfer (h : Serves deps fresh plain cfg name rt)
    (henvs : cfg'.envs[name]? = cfg.envs[name]?)
    (hbastions : ∀ env b bastion, cfg.envs[name]? = some env → env.bastion = some b →
      cfg.bastions[b]? = some bastion → cfg'.bastions[b]? = some bastion)
    (hcreds : fresh → ∀ env cred, cfg.envs[name]? = some env →
      cfg.credentials[env.credential]? = some cred → cfg'.credentials[env.credential]? = some cred) :
    Serves deps fresh plain cfg' name rt := by
  obtain ⟨env, henv, hof, hdials, hidle⟩ := h.entry
  refine ⟨h.named, env, henvs.trans henv, { hof with tunnel := ?_ }, fun hf => ?_, hidle⟩
  · rcases hof.tunnel with hnone | ⟨b, bastion, forward, hb, hentry, hrest⟩
    · exact Or.inl hnone
    · exact Or.inr ⟨b, bastion, forward, hb, hbastions env b bastion henv hb hentry, hrest⟩
  · obtain ⟨cred, hcred, hrest⟩ := hdials hf
    exact ⟨cred, hcreds hf env cred henv hcred, hrest⟩

/-! ## Building a runtime -/

theorem SessionsOf.of_sessions (h : SessionsOf deps cfg w) (hs : w'.sessions = w.sessions) :
    SessionsOf deps cfg w' := by
  unfold SessionsOf
  rw [hs]
  exact h

/-- A session that the registry hands out was opened under the entry asked for. -/
theorem getOrOpen_serves {b : String} {bastion : Bastion} (hentry : cfg.bastions[b]? = some bastion)
    (hs : SessionsOf deps cfg w) {r : Except String BastionSession}
    (h : daemonSem deps w (.getOrOpen b bastion deps.allowTofu) r w') :
    SessionsOf deps cfg w' ∧ ∀ s, r = .ok s → Opened bastion deps.allowTofu s := by
  simp only [daemonSem] at h
  cases hopen : w.sessions[b]? with
  | some s =>
    rw [hopen] at h
    obtain ⟨rfl, rfl⟩ := h
    refine ⟨hs, fun s' hr => ?_⟩
    obtain rfl : s = s' := Except.ok.inj hr
    obtain ⟨bastion', hb, hopened⟩ := hs b s hopen
    obtain rfl : bastion' = bastion := Option.some.inj (hb.symm.trans hentry)
    exact hopened
  | none =>
    rw [hopen] at h
    rcases h with ⟨e, rfl, rfl⟩ | ⟨s, rfl, hopened, rfl⟩
    · exact ⟨hs, fun s hr => absurd hr (by simp)⟩
    · refine ⟨fun n s' hn => ?_, fun s' hr => Except.ok.inj hr ▸ hopened⟩
      rcases Tables.getElem?_insert_eq_some.mp hn with ⟨rfl, rfl⟩ | ⟨-, hold⟩
      · exact ⟨bastion, hentry, hopened⟩
      · exact hs n s' hold

theorem wp_settled {α : Type} {p : DaemonProg α} {Q : List DaemonEvent → Outcome String α → World → Prop}
    (h : wp (daemonSem deps) p Q w) : wp (settledSem deps) p Q w :=
  fun t out w' hexec => h t out w' (hexec.mono fun _ _ _ _ hM => hM.1)

theorem wp_orContext_bind {α β : Type} {M : Sem daemonSig World} {context : String}
    {r : Except String α} {f : α → DaemonProg β}
    {Q : List DaemonEvent → Outcome String β → World → Prop}
    (herr : ∀ e, Q [] (.err e) w) (hok : ∀ a, r = .ok a → wp M (f a) Q w) :
    wp M ((orContext context r).bind f) Q w := by
  cases r with
  | error e => exact wp_halt.mpr (herr _)
  | ok a => exact hok a rfl

/-- What is stored stays, and the sessions stay those of `cfg`. -/
structure Steady (deps : DaemonDeps) (cfg : Config) (w w' : World) : Prop where
  stored : w'.stored deps = w.stored deps
  sessions : SessionsOf deps cfg w → SessionsOf deps cfg w'

theorem Steady.refl (w : World) : Steady deps cfg w w := ⟨rfl, id⟩

theorem Steady.trans {w₁ w₂ w₃ : World} (h : Steady deps cfg w₁ w₂) (h' : Steady deps cfg w₂ w₃) :
    Steady deps cfg w₁ w₃ :=
  ⟨h'.stored.trans h.stored, fun hs => h'.sessions (h.sessions hs)⟩

theorem Steady.of_same (hstore : w'.store = w.store) (hsessions : w'.sessions = w.sessions) :
    Steady deps cfg w w' :=
  ⟨stored_of_store hstore, fun hs => hs.of_sessions hsessions⟩

section
variable {env : Env}

theorem openTunnel_serves (opts : BackendOpts) (hs : SessionsOf deps cfg w) :
    wp (settledSem deps) (openTunnel deps false name env cfg opts) (fun _ out w' =>
      SessionsOf deps cfg w' ∧ out.Safe ∧ ∀ dialled forwards, out = .ok (dialled, forwards) →
        dialled = dialed opts forwards ∧ (opts.host = env.backendHost → opts.port = env.backendPort →
          Tunnelled deps cfg env forwards)) w := by
  unfold openTunnel
  cases hbastion : env.bastion with
  | none =>
    refine wp_halt.mpr ⟨hs, nofun, fun dialled forwards hout => ?_⟩
    obtain ⟨rfl, rfl⟩ : opts = dialled ∧ [] = forwards := by simpa using hout
    exact ⟨rfl, fun _ _ => Or.inl ⟨hbastion, rfl⟩⟩
  | some b =>
    dsimp only
    cases hentry : cfg.bastions[b]? with
    | none => exact wp_halt.mpr ⟨hs, nofun, nofun⟩
    | some bastion =>
      refine wp_ask_bind fun opened w₁ hopen => ?_
      obtain ⟨hs₁, hsession⟩ := getOrOpen_serves hentry hs hopen.1
      refine wp_orContext_bind (fun e => ⟨hs₁, nofun, nofun⟩) fun session hok => ?_
      refine wp_ask_bind fun answer w₂ hforward => ?_
      obtain rfl : w₂ = w₁ := hforward.1
      refine wp_orContext_bind (fun e => ⟨hs₁, nofun, nofun⟩) fun localPort _ => wp_halt.mpr ⟨hs₁, nofun, ?_⟩
      intro dialled forwards hout
      obtain ⟨rfl, rfl⟩ := Prod.mk.inj (Outcome.ok.inj hout)
      refine ⟨rfl, fun hhost hport => Or.inr ?_⟩
      exact ⟨b, bastion, _, hbastion, hentry, rfl, hsession session hok, hhost, hport⟩

/-- A runtime that was just built is that of its entry, credential and idle timeout included. -/
theorem buildEnvRuntime_serves (hs : SessionsOf deps cfg w) (henv : cfg.envs[name]? = some env) :
    wp (settledSem deps) (buildEnvRuntime deps name env cfg) (fun _ out w' => Builds w w' ∧
      SessionsOf deps cfg w' ∧ out.Safe ∧ ∀ rt, out = .ok rt → Serves deps True True cfg name rt) w := by
  refine wp_and (wp_settled (builds_of_uses (buildEnvRuntime_builds deps name env cfg) w)) ?_
  unfold buildEnvRuntime establishBackend
  cases hcred : cfg.credentials[env.credential]? with
  | none => exact wp_halt.mpr ⟨hs, nofun, nofun⟩
  | some cred =>
    simp only [bind_eq, bind_assoc]
    refine wp_bind.mpr (wp_mono (openTunnel_serves (.fromEnvCredential env cred) hs) ?_)
    intro t out w₁ htunnel
    obtain ⟨hs₁, hsafe, htunnel⟩ := htunnel
    cases out with
    | err e => exact ⟨hs₁, nofun, nofun⟩
    | panic => exact absurd rfl hsafe
    | ok tunnel =>
      obtain ⟨hdialed, htunnelled⟩ := htunnel tunnel.1 tunnel.2 rfl
      refine wp_ask_bind fun answer w₂ hbuild => ?_
      obtain ⟨rfl, hunsupported⟩ : w₂ = w₁ ∧ (env.engine = .msSql → ∃ e, answer = .error e) :=
        hbuild.1
      refine wp_orContext_bind (fun e => ⟨hs₁, nofun, nofun⟩) fun pool hpool => ?_
      refine wp_orContext_bind (fun e => ⟨hs₁, nofun, nofun⟩) fun addr haddr => wp_halt.mpr ⟨hs₁, nofun, ?_⟩
      rintro rt hrt
      obtain rfl := Outcome.ok.inj hrt
      have hsupported : env.engine ≠ .msSql := by
        intro hengine
        obtain ⟨e, he⟩ := hunsupported hengine
        rw [hpool] at he
        cases he
      refine ⟨rfl, env, henv, ?_, fun _ => ⟨cred, hcred, hdialed, rfl⟩, fun _ => rfl⟩
      exact ⟨rfl, hsupported, rfl, rfl, haddr, htunnelled rfl rfl⟩

theorem Builds.steady (h : Builds w w') (hs : SessionsOf deps cfg w → SessionsOf deps cfg w') :
    Steady deps cfg w w' :=
  ⟨stored_of_store (by rw [h.same]), hs⟩

theorem Builds.live (h : Builds w w') : w'.live = w.live := by rw [h.same]

end

/-! ## Changes to one environment -/

section
variable {env : Env}

theorem applyRebuildBackend_serves (hs : SessionsOf deps cfg w) (henv : cfg.envs[name]? = some env) :
    wp (settledSem deps) (applyRebuildBackend deps cfg env name) (fun _ out w' =>
      Steady deps cfg w w' ∧ out.Safe ∧ if out = .ok () then
          ∃ handle rt, w.live[name]? = some handle ∧ Serves deps True True cfg name rt ∧
            w'.live = w.live.insert name { handle with runtime := rt }
        else w'.live = w.live) w := by
  refine wp_bind.mpr (wp_mono (buildEnvRuntime_serves hs henv) ?_)
  intro t out w₁ hbuilt
  obtain ⟨hbuilds, hs₁, hsafe, hserves⟩ := hbuilt
  have hsteady : Steady deps cfg w w₁ := hbuilds.steady fun _ => hs₁
  cases out with
  | err e => exact ⟨hsteady, nofun, hbuilds.live⟩
  | panic => exact absurd rfl hsafe
  | ok rt =>
    refine wp_ask_bind fun published w₂ hpublish => ?_
    rcases publish_cases hpublish.1 with ⟨-, rfl, rfl⟩ | ⟨handle, hhandle, rfl, rfl⟩
    · exact wp_halt.mpr ⟨hsteady, nofun, hbuilds.live⟩
    · refine wp_halt.mpr ⟨hsteady.trans (.of_same rfl rfl), nofun, ?_⟩
      rw [if_pos rfl]
      rw [hbuilds.live] at hhandle
      exact ⟨handle, rt, hhandle, hserves rt rfl, by simp only [hbuilds.live]⟩

theorem applyRmEnv_serves (cfg : Config) (name : String) :
    wp (settledSem deps) (applyRmEnv name) (fun _ out w' => Steady deps cfg w w' ∧ out = .ok () ∧
      w'.live = w.live.erase name) w := by
  refine wp_ask_bind fun removed w₁ hremove => ?_
  obtain ⟨-, rfl⟩ := hremove.1
  cases removed with
  | none => exact wp_halt.mpr ⟨.of_same rfl rfl, rfl, rfl⟩
  | some loop =>
    refine wp_call.mpr fun _ w₂ habort => wp_halt.mpr ?_
    obtain rfl : w₂ = _ := habort.1
    exact ⟨.of_same rfl rfl, rfl, rfl⟩

theorem applyAddEnv_serves (hs : SessionsOf deps cfg w) (henv : cfg.envs[name]? = some env) :
    wp (settledSem deps) (applyAddEnv deps cfg env name) (fun _ out w' =>
      Steady deps cfg w w' ∧ out.Safe ∧ if out = .ok () then
          ∃ handle, Serves deps True True cfg name handle.runtime ∧
            w'.live = w.live.insert name handle
        else w'.live = w.live) w := by
  refine wp_bind.mpr (wp_mono (buildEnvRuntime_serves hs henv) ?_)
  intro t out w₁ hbuilt
  obtain ⟨hbuilds, hs₁, hsafe, hserves⟩ := hbuilt
  have hsteady : Steady deps cfg w w₁ := hbuilds.steady fun _ => hs₁
  cases out with
  | err e => exact ⟨hsteady, nofun, hbuilds.live⟩
  | panic => exact absurd rfl hsafe
  | ok rt =>
    refine wp_call.mpr fun answer w₂ hlisten => ?_
    obtain rfl : w₂ = w₁ := hlisten.1
    cases answer with
    | error e => exact wp_halt.mpr ⟨hsteady, nofun, hbuilds.live⟩
    | ok listener =>
      refine wp_call.mpr fun id w₃ hspawn => wp_call.mpr fun _ w₄ hinsert => wp_halt.mpr ?_
      obtain ⟨-, rfl⟩ := hspawn.1
      obtain rfl : w₄ = _ := hinsert.1
      refine ⟨hsteady.trans (.of_same rfl rfl), nofun, ?_⟩
      rw [if_pos rfl]
      exact ⟨⟨rt, id⟩, hserves rt rfl, by simp only [hbuilds.live]⟩

/-- A swap changes one published runtime, in place. -/
theorem swapRuntime_serves (cfg : Config) (mutate : EnvRuntime → EnvRuntime) :
    wp (settledSem deps) (swapRuntime name mutate) (fun _ out w' =>
      Steady deps cfg w w' ∧ out.Safe ∧ if out = .ok () then
          ∃ handle, w.live[name]? = some handle ∧
            w'.live = w.live.insert name { handle with runtime := mutate handle.runtime }
        else name ∉ w.live ∧ w'.live = w.live) w := by
  refine wp_ask_bind fun current w₁ hcurrent => ?_
  obtain ⟨rfl, rfl⟩ := hcurrent.1
  cases hlive : w₁.live[name]? with
  | none =>
    refine wp_halt.mpr ⟨Steady.refl _, nofun, fun hmem => ?_, rfl⟩
    obtain ⟨handle, hhandle⟩ := Tables.exists_of_mem hmem
    rw [hlive] at hhandle
    cases hhandle
  | some handle =>
    refine wp_ask_bind fun published w₂ hpublish => wp_halt.mpr ?_
    rcases publish_cases hpublish.1 with ⟨hnone, -, -⟩ | ⟨handle', hhandle, -, rfl⟩
    · rw [hlive] at hnone
      cases hnone
    · obtain rfl : handle = handle' := Option.some.inj (hlive.symm.trans hhandle)
      refine ⟨.of_same rfl rfl, nofun, ?_⟩
      rw [if_pos rfl]
      exact ⟨handle, rfl, rfl⟩

end

/-! ## Loops over environments -/

/-- The same names are live. -/
def SameNames (w w' : World) : Prop := ∀ name, name ∈ w'.live ↔ name ∈ w.live

theorem SameNames.of_live (h : w'.live = w.live) : SameNames w w' := by simp [SameNames, h]

theorem SameNames.trans {w₁ w₂ w₃ : World} (h : SameNames w₁ w₂) (h' : SameNames w₂ w₃) :
    SameNames w₁ w₃ :=
  fun n => (h' n).trans (h n)

theorem SameNames.update {handle handle' : Handle} (h : w.live[name]? = some handle)
    (hlive : w'.live = w.live.insert name handle') : SameNames w w' := by
  intro n
  rw [hlive, ExtTreeMap.mem_insert]
  refine or_iff_right_of_imp fun hn => ?_
  obtain rfl : name = n := by simpa using hn
  exact Tables.mem_of_getElem? h

/-- The loop of a rotation. The names that it has still to visit may run with a credential that
is no longer stored. -/
theorem rebuildEnvs_serves (names : List String) (hs : SessionsOf deps cfg w)
    (hlive : w.AllLive fun n => Serves deps (fresh ∧ n ∉ names) plain cfg n) :
    wp (settledSem deps) (rebuildEnvs deps cfg names) (fun _ out w' => Steady deps cfg w w' ∧
      SameNames w w' ∧ w'.AllLive fun n => Serves deps (fresh ∧ out = .ok none) plain cfg n) w := by
  induction names generalizing w with
  | nil =>
    refine wp_halt.mpr ⟨Steady.refl w, .of_live rfl, hlive.mono fun n rt h => ?_⟩
    exact h.any fun hf => ⟨hf.1, List.not_mem_nil⟩
  | cons name rest ih =>
    unfold rebuildEnvs
    cases henv : cfg.envs[name]? with
    | none =>
      refine ih hs (hlive.mono fun n rt h => h.any fun hf => ⟨hf.1, ?_⟩)
      rw [List.mem_cons, not_or]
      refine ⟨fun heq => ?_, hf.2⟩
      obtain ⟨env, hsome, -⟩ := h.entry
      rw [heq, henv] at hsome
      cases hsome
    | some env =>
      refine wp_bind.mpr (wp_attempt.mpr (wp_mono (applyRebuildBackend_serves hs henv) ?_))
      intro t out w₁ hbuilt
      obtain ⟨hsteady, hsafe, hchanged⟩ := hbuilt
      have hfailed (hsame : w₁.live = w.live) : w₁.AllLive fun n => Serves deps False plain cfg n :=
        (hlive.of_live hsame).mono fun n rt h => h.any False.elim
      cases out with
      | panic => exact absurd rfl hsafe
      | err e =>
        refine wp_halt.mpr ⟨hsteady, .of_live hchanged, ?_⟩
        exact (hfailed hchanged).mono fun n rt h => h.any (by simp)
      | ok _ =>
        rw [if_pos rfl] at hchanged
        obtain ⟨handle, rt, hhandle, hserves, hlive₁⟩ := hchanged
        have hnext : w₁.AllLive fun n => Serves deps (fresh ∧ n ∉ rest) plain cfg n := by
          refine World.AllLive.insert (hlive.mono fun n rt' h hne => ?_) ?_ hlive₁
          · exact h.any fun hf => ⟨hf.1, by simp [hne, hf.2]⟩
          · exact hserves.weaken (fun _ => trivial) fun _ => trivial
        refine wp_mono (ih (hsteady.sessions hs) hnext) fun t' out' w₂ h => ?_
        exact ⟨hsteady.trans h.1, (SameNames.update hhandle hlive₁).trans h.2.1, h.2.2⟩

/-- The loop of a new fingerprint fails closed: what it could not rebuild is no longer live. -/
theorem repinEnvs_serves (names : List String) (hs : SessionsOf deps cfg w)
    (hnames : ∀ n ∈ names, n ∈ cfg.envs)
    (hlive : w.AllLive fun n rt => n ∉ names → Serves deps fresh plain cfg n rt) :
    wp (settledSem deps) (repinEnvs deps cfg names) (fun _ out w' => Steady deps cfg w w' ∧
      w'.AllLive (Serves deps fresh plain cfg) ∧ (out = .ok [] → SameNames w w')) w := by
  induction names generalizing w with
  | nil =>
    refine wp_halt.mpr ⟨Steady.refl w, hlive.mono fun n rt h => ?_, fun _ => .of_live rfl⟩
    exact h List.not_mem_nil
  | cons name rest ih =>
    obtain ⟨hname, hrest⟩ := List.forall_mem_cons.mp hnames
    obtain ⟨env, henv⟩ := Tables.exists_of_mem hname
    have hothers : w.AllLive fun n rt => n ≠ name → n ∉ rest → Serves deps fresh plain cfg n rt :=
      hlive.mono fun n rt h hne hn => h (by simp [hne, hn])
    unfold repinEnvs
    rw [henv]
    refine wp_ask_bind fun present w₁ hhas => ?_
    obtain ⟨rfl, rfl⟩ := hhas.1
    by_cases hmem : name ∈ w₁.live
    · simp only [hmem, decide_true, if_true]
      refine wp_bind.mpr (wp_attempt.mpr (wp_mono (applyRebuildBackend_serves hs henv) ?_))
      intro t out w₂ hbuilt
      obtain ⟨hsteady, hsafe, hchanged⟩ := hbuilt
      cases out with
      | panic => exact absurd rfl hsafe
      | ok _ =>
        rw [if_pos rfl] at hchanged
        obtain ⟨handle, rt, hhandle, hserves, hlive₂⟩ := hchanged
        have hnext : w₂.AllLive fun n rt => n ∉ rest → Serves deps fresh plain cfg n rt :=
          hothers.insert (fun _ => hserves.weaken (fun _ => trivial) fun _ => trivial) hlive₂
        refine wp_mono (ih (hsteady.sessions hs) hrest hnext) fun t' out' w₃ h => ?_
        refine ⟨hsteady.trans h.1, h.2.1, fun hout => ?_⟩
        exact (SameNames.update hhandle hlive₂).trans (h.2.2 hout)
      | err e =>
        refine wp_bind.mpr (wp_mono (applyRmEnv_serves cfg name) ?_)
        intro t' out' w₃ hgone
        obtain ⟨hsteady₃, rfl, hlive₃⟩ := hgone
        have hnext : w₃.AllLive fun n rt => n ∉ rest → Serves deps fresh plain cfg n rt :=
          (hothers.of_live hchanged).erase hlive₃
        have hs₃ := hsteady₃.sessions (hsteady.sessions hs)
        refine wp_bind.mpr (wp_mono (ih hs₃ hrest hnext) fun t'' out'' w₄ h => ?_)
        have hsteady₄ := (hsteady.trans hsteady₃).trans h.1
        cases out'' with
        | ok stopped => exact wp_halt.mpr ⟨hsteady₄, h.2.1, by simp⟩
        | err e => exact ⟨hsteady₄, h.2.1, by simp⟩
        | panic => exact ⟨hsteady₄, h.2.1, by simp⟩
    · simp only [hmem, decide_false]
      refine wp_mono (ih hs hrest ?_) fun t out w₂ h => h
      intro n handle hn
      refine hothers n handle hn fun heq => ?_
      rw [heq] at hn
      exact hmem (Tables.mem_of_getElem? hn)

/-- The loop of an import. -/
theorem addEnvs_serves (names : List String) (hs : SessionsOf deps cfg w)
    (hlive : w.AllLive (Serves deps fresh plain cfg)) :
    wp (settledSem deps) (addEnvs deps cfg names) (fun _ out w' => Steady deps cfg w w' ∧
      w'.AllLive (Serves deps fresh plain cfg) ∧ (∀ n ∈ w.live, n ∈ w'.live) ∧
      (out = .ok none → ∀ n ∈ names, n ∈ cfg.envs → n ∈ w'.live)) w := by
  induction names generalizing w with
  | nil => exact wp_halt.mpr ⟨Steady.refl w, hlive, fun _ => id, by simp⟩
  | cons name rest ih =>
    unfold addEnvs
    cases henv : cfg.envs[name]? with
    | none =>
      refine wp_mono (ih hs hlive) fun t out w' h => ⟨h.1, h.2.1, h.2.2.1, fun hout => ?_⟩
      refine List.forall_mem_cons.mpr ⟨fun hmem => ?_, h.2.2.2 hout⟩
      obtain ⟨env, hsome⟩ := Tables.exists_of_mem hmem
      rw [henv] at hsome
      cases hsome
    | some env =>
      refine wp_bind.mpr (wp_attempt.mpr (wp_mono (applyAddEnv_serves hs henv) ?_))
      intro t out w₁ hadded
      obtain ⟨hsteady, hsafe, hchanged⟩ := hadded
      cases out with
      | panic => exact absurd rfl hsafe
      | err e =>
        exact wp_halt.mpr ⟨hsteady, hlive.of_live hchanged, fun n hn => hchanged ▸ hn, by simp⟩
      | ok _ =>
        rw [if_pos rfl] at hchanged
        obtain ⟨handle, hserves, hlive₁⟩ := hchanged
        have hnext : w₁.AllLive (Serves deps fresh plain cfg) := by
          refine World.AllLive.insert (hlive.mono fun n rt h _ => h) ?_ hlive₁
          exact hserves.weaken (fun _ => trivial) fun _ => trivial
        have hkept : ∀ n ∈ w.live, n ∈ w₁.live := by
          intro n hn
          rw [hlive₁]
          exact ExtTreeMap.mem_insert.mpr (Or.inr hn)
        have hadded : name ∈ w₁.live := by simp [hlive₁]
        refine wp_mono (ih (hsteady.sessions hs) hnext) fun t' out' w₂ h => ?_
        refine ⟨hsteady.trans h.1, h.2.1, fun n hn => h.2.2.1 n (hkept n hn), fun hout => ?_⟩
        exact List.forall_mem_cons.mpr ⟨fun _ => h.2.2.1 name hadded, h.2.2.2 hout⟩

end MiddleWhere.Daemon
