import MiddleWhere.Daemon.Serving

/-!
# The live table over whole runs

A request that is answered as done, or that stores nothing, leaves the live table as a restart
would build it. A request that is answered with an error may leave an environment out or on a
credential that was rotated away, and no more than that: as long as the configuration can be read
back, whatever else fails, what is live has the stored policy, verifier and address, and its
tunnel goes through the bastion that is stored now.
-/

namespace MiddleWhere.Daemon
open Prog
open Std (ExtTreeMap)

/-- The answer reports that the request is done. -/
def Response.done : Response → Bool
  | .error _ => false
  | .token dto => dto.note.isNone
  | _ => true

def DaemonOp.storedAnew : (o : DaemonOp) → o.Res → Bool
  | .persist _, .ok _ => true
  | _, _ => false

def DaemonOp.failedReload : (o : DaemonOp) → o.Res → Bool
  | .loadConfig, .error _ => true
  | _, _ => false

/-- The configuration was read back whenever a request asked for it. -/
def Reloads (_ : Request) (t : List DaemonEvent) (_ : Outcome String Response) : Prop :=
  ∀ e ∈ t, e.op.failedReload e.res = false

/-- The request is answered as done, or it stored nothing. -/
def Settles (_ : Request) (t : List DaemonEvent) (out : Outcome String Response) : Prop :=
  (∃ resp, out = .ok resp ∧ resp.done = true) ∨ ∀ e ∈ t, e.op.storedAnew e.res = false

/-- The states between requests that all went as `Fine` says. -/
inductive ReachedBy (deps : DaemonDeps)
    (Fine : Request → List DaemonEvent → Outcome String Response → Prop)
    (idleTimeoutSecs : Option UInt32) : World → Prop
  | started {w₀ w : World} {t : List DaemonEvent} :
      w₀.live = ∅ → w₀.loops = [] → w₀.sessions = ∅ → w₀.replaced = [] →
      Exec (settledSem deps) (run deps idleTimeoutSecs) w₀ t (.ok ()) w →
      ReachedBy deps Fine idleTimeoutSecs w
  | served {w w' : World} {t : List DaemonEvent} {out : Outcome String Response}
      (peer : PeerIdentity) (req : Request) : ReachedBy deps Fine idleTimeoutSecs w →
      Exec (settledSem deps) (dispatch deps peer req) w t out w' → Fine req t out →
      ReachedBy deps Fine idleTimeoutSecs w'

/-- What a request has to be like for the table to stay in step with the store. -/
def InStep (fresh : Prop) (t : List DaemonEvent) (out : Outcome String Response) : Prop :=
  ((∃ resp, out = .ok resp ∧ resp.done = true) ∨ ∀ e ∈ t, e.op.storedAnew e.res = false) ∨
    (¬ fresh ∧ ∀ e ∈ t, e.op.failedReload e.res = false)

/-- The same once something is stored. -/
def InStepAfter (fresh : Prop) (t : List DaemonEvent) (out : Outcome String Response) : Prop :=
  (∃ resp, out = .ok resp ∧ resp.done = true) ∨
    (¬ fresh ∧ ∀ e ∈ t, e.op.failedReload e.res = false)

variable {deps : DaemonDeps} {fresh plain : Prop} {cfg cfg' : Config} {w w' : World} {name : String}
  {peer : PeerIdentity}

/-! ## The start -/

theorem Serves.of_overrideIdle {secs : Option UInt32} {rt : EnvRuntime}
    (h : Serves deps fresh True (overrideIdle secs cfg) name rt) :
    Serves deps fresh (secs = none) cfg name rt := by
  cases secs with
  | none => exact h.weaken id fun _ => trivial
  | some secs =>
    obtain ⟨env, henv, hof, hdials, -⟩ := h.entry
    have hstored : (overrideIdle (some secs) cfg).envs[name]? =
        (cfg.envs[name]?).map fun env => { env with pool := { env.pool with idleTimeoutSecs := secs } } := by
      simp [overrideIdle]
    rw [henv] at hstored
    obtain ⟨env₀, henv₀, rfl⟩ := Option.map_eq_some_iff.mp hstored.symm
    refine ⟨h.named, env₀, henv₀, ?_, hdials, nofun⟩
    exact ⟨hof.engine, hof.supported, hof.policy, hof.clientAuth, hof.addr, hof.tunnel⟩

/-- A start that goes through has every environment of a supported engine. -/
theorem bindEnvs_serves (entries : List (String × Env)) (hs : SessionsOf deps cfg w)
    (hentries : ∀ e ∈ entries, cfg.envs[e.1]? = some e.2)
    (hlive : w.AllLive (Serves deps True True cfg)) :
    wp (settledSem deps) (bindEnvs deps cfg entries) (fun _ out w' => Steady deps cfg w w' ∧
      (∀ n ∈ w.live, n ∈ w'.live) ∧ (out = .ok () → w'.AllLive (Serves deps True True cfg) ∧
        ∀ e ∈ entries, e.2.engine ≠ .msSql → e.1 ∈ w'.live)) w := by
  induction entries generalizing w with
  | nil => exact wp_halt.mpr ⟨Steady.refl w, fun _ => id, fun _ => ⟨hlive, by simp⟩⟩
  | cons entry rest ih =>
    obtain ⟨name, env⟩ := entry
    obtain ⟨henv, hrest⟩ := List.forall_mem_cons.mp hentries
    unfold bindEnvs bindEnv
    by_cases hengine : env.engine = .msSql
    · simp only [if_pos hengine, pure_eq, bind_eq, halt_ok_bind]
      refine wp_mono (ih hs hrest hlive) fun t out w' h => ⟨h.1, h.2.1, fun hout => ?_⟩
      obtain ⟨hserves, hall⟩ := h.2.2 hout
      exact ⟨hserves, List.forall_mem_cons.mpr ⟨fun hne => absurd hengine hne, hall⟩⟩
    · simp only [if_neg hengine]
      split_ifs with hexposed
      · exact wp_halt.mpr ⟨Steady.refl w, fun _ => id, fun h => absurd h (by simp)⟩
      · refine wp_bind.mpr (wp_mono (applyAddEnv_serves hs henv) ?_)
        intro t out w₁ hadded
        obtain ⟨hsteady, hsafe, hchanged⟩ := hadded
        cases out with
        | err e => exact ⟨hsteady, fun n hn => hchanged ▸ hn, fun h => absurd h (by simp)⟩
        | panic => exact absurd rfl hsafe
        | ok _ =>
          rw [if_pos rfl] at hchanged
          obtain ⟨handle, hserves, hlive₁⟩ := hchanged
          have hnext : w₁.AllLive (Serves deps True True cfg) :=
            World.AllLive.insert (hlive.mono fun n rt h _ => h) hserves hlive₁
          have hkept : ∀ n ∈ w.live, n ∈ w₁.live := by
            intro n hn
            rw [hlive₁]
            exact ExtTreeMap.mem_insert.mpr (Or.inr hn)
          have hadded : name ∈ w₁.live := by simp [hlive₁]
          refine wp_mono (ih (hsteady.sessions hs) hrest hnext) fun t' out' w₂ h => ?_
          refine ⟨hsteady.trans h.1, fun n hn => h.2.1 n (hkept n hn), fun hout => ?_⟩
          obtain ⟨hserves₂, hall⟩ := h.2.2 hout
          exact ⟨hserves₂, List.forall_mem_cons.mpr ⟨fun _ => h.2.1 name hadded, hall⟩⟩

theorem SessionsOf.of_bastions (h : SessionsOf deps cfg w) (hb : cfg'.bastions = cfg.bastions) :
    SessionsOf deps cfg' w := by
  unfold SessionsOf
  rw [hb]
  exact h

theorem overrideIdle_bastions (secs : Option UInt32) (cfg : Config) :
    (overrideIdle secs cfg).bastions = cfg.bastions := by
  cases secs <;> rfl

theorem overrideIdle_entry {env : Env} (secs : Option UInt32) (h : cfg.envs[name]? = some env) :
    ∃ env', (overrideIdle secs cfg).envs[name]? = some env' ∧ env'.engine = env.engine := by
  cases secs with
  | none => exact ⟨env, h, rfl⟩
  | some secs =>
    refine ⟨{ env with pool := { env.pool with idleTimeoutSecs := secs } }, ?_, rfl⟩
    simp [overrideIdle, h]

theorem run_serving {idleTimeoutSecs : Option UInt32} (hlive : w.live = ∅) (hsessions : w.sessions = ∅) :
    wp (settledSem deps) (run deps idleTimeoutSecs) (fun _ out w' => out = .ok () →
      ∃ cfg, w.stored deps = some cfg ∧ Serving deps True (idleTimeoutSecs = none) cfg w') w := by
  refine wp_ask_bind fun loaded w₁ hload => ?_
  obtain ⟨rfl, hcfg⟩ := loadConfig_step hload.1
  cases loaded with
  | error e => exact wp_halt.mpr nofun
  | ok cfg =>
    have hs : SessionsOf deps cfg w₁ := by simp [SessionsOf, hsessions]
    have hs' := hs.of_bastions (overrideIdle_bastions idleTimeoutSecs cfg)
    have hnone : w₁.AllLive (Serves deps True True (overrideIdle idleTimeoutSecs cfg)) := by
      simp [World.AllLive, hlive]
    refine wp_mono (bindEnvs_serves _ hs' (fun e he => ?_) hnone) fun t out w₂ h hout => ?_
    · exact ExtTreeMap.mem_toList_iff_getElem?_eq_some.mp he
    · obtain ⟨hsteady, -, hdone⟩ := h
      obtain ⟨hserves, hall⟩ := hdone hout
      refine ⟨cfg, hcfg cfg rfl, hsteady.stored.trans (hcfg cfg rfl), ?_, ?_,
        fun _ n env henv hengine => ?_⟩
      · exact (hsteady.sessions hs').of_bastions (overrideIdle_bastions idleTimeoutSecs cfg).symm
      · exact hserves.mono fun n rt h => h.of_overrideIdle
      · obtain ⟨env', henv', hsame⟩ := overrideIdle_entry idleTimeoutSecs henv
        have hmem := ExtTreeMap.mem_toList_iff_getElem?_eq_some.mpr henv'
        exact hall (n, env') hmem (by simpa [hsame] using hengine)

/-! ## Answers -/

/-- Calls that leave the world as it is. -/
def DaemonOp.inert : DaemonOp → Bool
  | .persist _ | .getOrOpen _ _ _ | .evict _ | .spawnLoop _ _ | .abortLoop _ | .insertEnv _ _ _
  | .removeEnv _ | .publish _ _ => false
  | _ => true

abbrev InertProg {α : Type} (p : DaemonProg α) : Prop := p.Uses (DaemonOp.inert · = true)

theorem inert_step {o : DaemonOp} {r : o.Res} (ho : o.inert = true) (h : daemonSem deps w o r w') :
    w' = w := by
  cases o with
  | loadConfig => exact (loadConfig_step h).1
  | openFresh name bastion allowTofu => exact h.1
  | buildBackend engine opts maxSize => exact h.1
  | hasEnv name => exact h.2
  | currentRuntime name => exact h.2
  | randomBytes len => exact h
  | emit event => exact h
  | startForward session host port => exact h
  | probeBackend engine backend => exact h
  | bindListener addr => exact h
  | auditDirExists => exact h
  | readAuditDir => exact h
  | readAuditFile name => exact h
  | _ => cases ho

theorem inert_of_uses {α : Type} {p : DaemonProg α} (hp : InertProg p) (w : World) :
    wp (settledSem deps) p (fun _ _ w' => w' = w) w :=
  related_of_uses (R := fun w w' => w' = w) (fun _ => rfl) (fun _ _ _ h h' => h'.trans h)
    (fun _ _ _ _ ho hM => inert_step ho hM.1) hp w

theorem ask_inert {o : DaemonOp} (ho : o.inert = true) : InertProg (ask o) :=
  ⟨ho, fun _ => uses_halt _⟩

theorem allowed_inert (action target : String) (resp : Response) :
    InertProg (allowed peer action target resp) :=
  uses_bind (ask_inert rfl) fun _ => uses_halt _

theorem failMsg_inert (action target msg : String) : InertProg (failMsg peer action target msg) :=
  uses_bind (ask_inert rfl) fun _ => uses_halt _

/-- Whatever the request went like, the table is as the store says if `InStep` holds of it. -/
abbrev ServedPost (deps : DaemonDeps) (fresh plain : Prop)
    (Fine : List DaemonEvent → Outcome String Response → Prop) (t : List DaemonEvent)
    (out : Outcome String Response) (w' : World) : Prop :=
  Fine t out → ∃ cfg, Serving deps fresh plain cfg w'

theorem inert_serves {Fine : List DaemonEvent → Outcome String Response → Prop}
    {p : DaemonProg Response} (hp : InertProg p) (hw : Serving deps fresh plain cfg w) :
    wp (settledSem deps) p (ServedPost deps fresh plain Fine) w :=
  wp_mono (inert_of_uses hp w) fun _ _ _ hsame _ => ⟨cfg, hsame ▸ hw⟩

/-- Nothing is promised of a fresh table when a request fails after it has stored something. -/
theorem failMsg_serves (action target msg : String) (hw : ¬ fresh → Serving deps fresh plain cfg w) :
    wp (settledSem deps) (failMsg peer action target msg)
      (ServedPost deps fresh plain (InStepAfter fresh)) w := by
  refine wp_call.mpr fun _ w' hemit => wp_halt.mpr fun hin => ?_
  obtain rfl : w' = w := hemit.1
  rcases hin with ⟨resp, hresp, hdone⟩ | ⟨hstale, -⟩
  · obtain rfl := Outcome.ok.inj hresp
    cases hdone
  · exact ⟨cfg, hw hstale⟩

theorem tokenButNotLive_serves (action target : String) (out : Mutate.NewEnvOutput) (e : String)
    (hw : ¬ fresh → Serving deps fresh plain cfg w) :
    wp (settledSem deps) (tokenButNotLive peer action target out e)
      (ServedPost deps fresh plain (InStepAfter fresh)) w := by
  refine wp_call.mpr fun _ w' hemit => wp_halt.mpr fun hin => ?_
  obtain rfl : w' = w := hemit.1
  rcases hin with ⟨resp, hresp, hdone⟩ | ⟨hstale, -⟩
  · obtain rfl := Outcome.ok.inj hresp
    cases hdone
  · exact ⟨cfg, hw hstale⟩

/-- A failed update stores nothing and is answered with an error. -/
theorem persist_serves (hseals : deps.seals.Lawful) {change : Mutate.Change}
    {f : Except Store.StateError change.Out → DaemonProg Response}
    (hw : Serving deps fresh plain cfg w) (herr : ∀ e, InertProg (f (.error e)))
    (hok : ∀ a cfg' w', Persisted deps change a cfg cfg' w w' →
      wp (settledSem deps) (f (.ok a)) (ServedPost deps fresh plain (InStepAfter fresh)) w') :
    wp (settledSem deps) ((ask (.persist change)).bind f)
      (ServedPost deps fresh plain (InStep fresh)) w := by
  refine wp_ask_bind fun r w' h => ?_
  obtain ⟨⟨⟨t, hexec⟩, hsame⟩, hsettled⟩ := h
  cases r with
  | error e =>
    refine wp_mono (inert_of_uses (herr e) w') fun t' out w'' hinert _ => ⟨cfg, ?_⟩
    subst hinert
    have hlive : w''.live = w.live := by rw [hsame]
    refine ⟨hsettled.trans hw.stored, hw.sessions.of_sessions (by rw [hsame]), hw.live.of_live hlive, ?_⟩
    rw [hlive]
    exact hw.complete
  | ok a =>
    obtain ⟨cfg₀, cfg', hbefore, hran, hafter⟩ := Store.withConfig_stored hseals hexec
    obtain rfl : cfg = cfg₀ := Option.some.inj (hw.stored.symm.trans hbefore)
    refine wp_mono (hok a cfg' w' ⟨hbefore, hran, hafter, hsame⟩) fun t' out w'' hpost hin => hpost ?_
    rcases hin with (hdone | hnone) | ⟨hstale, hreloads⟩
    · exact Or.inl hdone
    · cases hnone ⟨.persist change, .ok a⟩ List.mem_cons_self
    · exact Or.inr ⟨hstale, fun e he => hreloads e (List.mem_cons_of_mem _ he)⟩

theorem serves_append {t : List DaemonEvent} {p : DaemonProg Response}
    (h : wp (settledSem deps) p (ServedPost deps fresh plain (InStepAfter fresh)) w) :
    wp (settledSem deps) p (fun t' => ServedPost deps fresh plain (InStepAfter fresh) (t ++ t')) w :=
  wp_mono h fun _ _ _ hpost hin => hpost <|
    hin.imp_right fun h => ⟨h.1, fun e he => h.2 e (List.mem_append_right _ he)⟩

/-- A part that does not answer yet, and what goes on from its result. -/
theorem part_serves {α : Type} {p : DaemonProg α} {f : α → DaemonProg Response}
    {R : Outcome String α → World → Prop} (hp : wp (settledSem deps) p (fun _ => R) w)
    (hok : ∀ a w', R (.ok a) w' →
      wp (settledSem deps) (f a) (ServedPost deps fresh plain (InStepAfter fresh)) w')
    (hbad : ∀ out w', R out w' → ¬ fresh → ∃ cfg, Serving deps fresh plain cfg w') :
    wp (settledSem deps) (p.bind f) (ServedPost deps fresh plain (InStepAfter fresh)) w := by
  refine wp_bind.mpr (wp_mono hp fun t out w' hR => ?_)
  cases out with
  | ok a => exact serves_append (hok a w' hR)
  | err e => exact fun hin => hbad _ w' hR (hin.resolve_left (by simp)).1
  | panic => exact fun hin => hbad _ w' hR (hin.resolve_left (by simp)).1

theorem attempt_serves {α : Type} {p : DaemonProg α} {f : Except String α → DaemonProg Response}
    {R : Outcome String α → World → Prop}
    (hp : wp (settledSem deps) p (fun _ => R) w) (hsafe : ∀ out w', R out w' → out.Safe)
    (hok : ∀ a w', R (.ok a) w' →
      wp (settledSem deps) (f (.ok a)) (ServedPost deps fresh plain (InStepAfter fresh)) w')
    (herr : ∀ e w', R (.err e) w' →
      wp (settledSem deps) (f (.error e)) (ServedPost deps fresh plain (InStepAfter fresh)) w') :
    wp (settledSem deps) (p.attempt.bind f) (ServedPost deps fresh plain (InStepAfter fresh)) w := by
  refine wp_bind.mpr (wp_attempt.mpr (wp_mono hp fun t out w' hR => ?_))
  cases out with
  | ok a => exact serves_append (hok a w' hR)
  | err e => exact serves_append (herr e w' hR)
  | panic => exact absurd rfl (hsafe _ w' hR)

theorem random_serves {len : ℕ} {f : Bytes → DaemonProg Response}
    (h : ∀ raw, wp (settledSem deps) (f raw) (ServedPost deps fresh plain (InStep fresh)) w) :
    wp (settledSem deps) ((ask (.randomBytes len)).bind f)
      (ServedPost deps fresh plain (InStep fresh)) w := by
  refine wp_ask_bind fun raw w' hraw => ?_
  obtain rfl : w' = w := hraw.1
  refine wp_mono (h raw) fun t out w'' hpost hin => hpost ?_
  rcases hin with (hdone | hnone) | ⟨hstale, hreloads⟩
  · exact Or.inl (Or.inl hdone)
  · exact Or.inl (Or.inr fun e he => hnone e (List.mem_cons_of_mem _ he))
  · exact Or.inr ⟨hstale, fun e he => hreloads e (List.mem_cons_of_mem _ he)⟩

theorem reload_serves {f : Except Store.StateError Config → DaemonProg Response}
    (hstored : w.stored deps = some cfg)
    (herr : ∀ e, ∃ action target msg, f (.error e) = failMsg peer action target msg)
    (hok : wp (settledSem deps) (f (.ok cfg)) (ServedPost deps fresh plain (InStepAfter fresh)) w) :
    wp (settledSem deps) ((ask .loadConfig).bind f)
      (ServedPost deps fresh plain (InStepAfter fresh)) w := by
  refine wp_ask_bind fun loaded w' hload => ?_
  obtain ⟨rfl, hcfg⟩ := loadConfig_step hload.1
  cases loaded with
  | ok cfg₀ =>
    obtain rfl : cfg = cfg₀ := Option.some.inj (hstored.symm.trans (hcfg cfg₀ rfl))
    refine wp_mono hok fun t out w'' hpost hin => hpost ?_
    exact hin.imp_right fun h => ⟨h.1, fun e he => h.2 e (List.mem_cons_of_mem _ he)⟩
  | error e =>
    obtain ⟨action, target, msg, hf⟩ := herr e
    rw [hf]
    refine wp_call.mpr fun _ w'' hemit => wp_halt.mpr fun hin => ?_
    rcases hin with ⟨resp, hresp, hdone⟩ | ⟨-, hreloads⟩
    · obtain rfl := Outcome.ok.inj hresp
      cases hdone
    · cases hreloads ⟨.loadConfig, .error e⟩ List.mem_cons_self

/-! ## Requests -/

/-- The store has grown, or has lost what no environment uses. -/
theorem Serving.of_persisted {change : Mutate.Change} {a : change.Out}
    (h : Serving deps fresh plain cfg w) (hp : Persisted deps change a cfg cfg' w w')
    (henvs : cfg'.envs = cfg.envs)
    (hbastions : ∀ (b : String) (bastion : Bastion), cfg.bastions[b]? = some bastion →
      cfg'.bastions[b]? = some bastion)
    (hcreds : ∀ (n : String) (env : Env) (cred : Credential), cfg.envs[n]? = some env →
      cfg.credentials[env.credential]? = some cred → cfg'.credentials[env.credential]? = some cred) :
    Serving deps fresh plain cfg' w' := by
  have hlive : w'.live = w.live := by rw [hp.same]
  refine ⟨hp.after, fun n s hn => ?_, (h.live.of_live hlive).mono fun n rt hserves => ?_, ?_⟩
  · obtain ⟨bastion, hb, hopened⟩ := h.sessions n s (by rw [hp.same] at hn; exact hn)
    exact ⟨bastion, hbastions n bastion hb, hopened⟩
  · exact hserves.transfer (by rw [henvs]) (fun _ b bastion _ _ => hbastions b bastion)
      fun _ env cred => hcreds n env cred
  · rw [hlive, henvs]
    exact h.complete

section
variable (hseals : deps.seals.Lawful) (peer : PeerIdentity)
include hseals

theorem addBastionReq_serves (dto : BastionInputDto) (hw : Serving deps fresh plain cfg w) :
    wp (settledSem deps) (addBastionReq deps peer dto)
      (ServedPost deps fresh plain (InStep fresh)) w := by
  refine persist_serves hseals hw (fun e => failMsg_inert ..) fun a cfg' w' hp => ?_
  obtain ⟨hnew, b, rfl⟩ := Mutate.addBastion_spec.of_exec hp.ran
  refine inert_serves (allowed_inert ..) (hw.of_persisted hp rfl (fun n bastion hn => ?_) ?_)
  · refine Tables.getElem?_insert_eq_some.mpr (Or.inr ⟨fun heq => ?_, hn⟩)
    exact hnew (heq ▸ Tables.mem_of_getElem? hn)
  · exact fun _ _ _ _ h => h

theorem addCredReq_serves (dto : CredInputDto) (hw : Serving deps fresh plain cfg w) :
    wp (settledSem deps) (dispatch deps peer (.addCred dto))
      (ServedPost deps fresh plain (InStep fresh)) w := by
  refine persist_serves hseals hw (fun e => failMsg_inert ..) fun a cfg' w' hp => ?_
  obtain ⟨hnew, c, rfl⟩ := Mutate.addCred_spec.of_exec hp.ran
  refine inert_serves (allowed_inert ..) (hw.of_persisted hp rfl (fun _ _ h => h) ?_)
  intro n env cred _ hcred
  refine Tables.getElem?_insert_eq_some.mpr (Or.inr ⟨fun heq => ?_, hcred⟩)
  exact hnew (heq ▸ Tables.mem_of_getElem? hcred)

theorem rmCredReq_serves (name : String) (hw : Serving deps fresh plain cfg w) :
    wp (settledSem deps) (dispatch deps peer (.rmCred name))
      (ServedPost deps fresh plain (InStep fresh)) w := by
  refine persist_serves hseals hw (fun e => failMsg_inert ..) fun a cfg' w' hp => ?_
  obtain ⟨hfree, rfl⟩ := Mutate.rmCred_spec.of_exec hp.ran
  refine inert_serves (allowed_inert ..) (hw.of_persisted hp rfl (fun _ _ h => h) ?_)
  intro n env cred henv hcred
  exact Tables.getElem?_erase_eq_some.mpr ⟨fun heq => hfree n env henv heq.symm, hcred⟩

/-- Between the removal and the eviction the session of the removed bastion is still cached. -/
theorem rmBastionReq_serves (name : String) (hw : Serving deps fresh plain cfg w) :
    wp (settledSem deps) (rmBastionReq deps peer name)
      (ServedPost deps fresh plain (InStep fresh)) w := by
  unfold rmBastionReq simpleMutation
  simp only [bind_eq, bind_assoc]
  refine persist_serves hseals hw (fun e => ⟨rfl, fun _ => trivial⟩) fun a cfg' w' hp => ?_
  obtain ⟨hfree, rfl⟩ := Mutate.rmBastion_spec.of_exec hp.ran
  refine wp_call.mpr fun _ w₁ hemit => wp_call.mpr fun _ w₂ hevict => wp_halt.mpr fun _ => ?_
  obtain rfl : w₁ = w' := hemit.1
  obtain ⟨-, rfl⟩ := hevict.1
  have hlive : w₁.live = w.live := by rw [hp.same]
  have hsessions : w₁.sessions = w.sessions := by rw [hp.same]
  refine ⟨_, hp.after, fun n s hn => ?_, ?_, ?_⟩
  · obtain ⟨hne, hn⟩ := Tables.getElem?_erase_eq_some.mp hn
    obtain ⟨bastion, hb, hopened⟩ := hw.sessions n s (hsessions ▸ hn)
    exact ⟨bastion, Tables.getElem?_erase_eq_some.mpr ⟨hne, hb⟩, hopened⟩
  · refine (hw.live.of_live hlive).mono fun n rt hserves => ?_
    refine hserves.transfer rfl (fun env b bastion henv hb hbastion => ?_) fun _ _ _ _ h => h
    refine Tables.getElem?_erase_eq_some.mpr ⟨fun heq => ?_, hbastion⟩
    exact hfree n env henv (heq ▸ hb)
  · intro hf n env henv
    simpa only [hlive] using hw.complete hf n env henv

theorem rmEnvReq_serves (name : String) (hw : Serving deps fresh plain cfg w) :
    wp (settledSem deps) (rmEnvReq deps peer name)
      (ServedPost deps fresh plain (InStep fresh)) w := by
  refine persist_serves hseals hw (fun e => failMsg_inert ..) fun a cfg' w' hp => ?_
  obtain rfl := Mutate.rmEnv_spec.of_exec hp.ran
  refine wp_bind.mpr (wp_mono (applyRmEnv_serves cfg name) ?_)
  intro t out w₁ hgone
  obtain ⟨hsteady, rfl, hlive₁⟩ := hgone
  have hlive : w'.live = w.live := by rw [hp.same]
  refine wp_mono (inert_of_uses (allowed_inert ..) w₁) fun t' out' w₂ hsame _ => ?_
  subst hsame
  refine ⟨_, hsteady.stored.trans hp.after, ?_, ?_, ?_⟩
  · exact hsteady.sessions (hw.sessions.of_sessions (by rw [hp.same]))
  · refine World.AllLive.erase ((hw.live.of_live hlive).mono fun n rt hserves hne => ?_) hlive₁
    refine hserves.transfer ?_ (fun _ _ _ _ _ h => h) fun _ _ _ _ h => h
    simp [ExtTreeMap.getElem?_erase, hne.symm]
  · intro hf n env henv hengine
    obtain ⟨hne, henv⟩ := Tables.getElem?_erase_eq_some.mp henv
    rw [hlive₁, hlive]
    exact ExtTreeMap.mem_erase.mpr ⟨by simpa using hne, hw.complete hf n env henv hengine⟩

end

/-- The other environments run with what they ran with. -/
theorem Serves.of_insert {env : Env} {n : String} {rt : EnvRuntime}
    (h : Serves deps fresh plain cfg n rt) (hne : n ≠ name) :
    Serves deps fresh plain { cfg with envs := cfg.envs.insert name env } n rt := by
  refine h.transfer ?_ (fun _ _ _ _ _ h => h) fun _ _ _ _ h => h
  have hne' : ¬ name = n := fun heq => hne heq.symm
  simp [ExtTreeMap.getElem?_insert, hne']

/-- An environment that is stored anew is live with its new entry. -/
theorem Serving.insert {env : Env} {handle : Handle} (h : Serving deps fresh plain cfg w)
    (hstored : w'.stored deps = some { cfg with envs := cfg.envs.insert name env })
    (hsessions : SessionsOf deps cfg w') (hlive : w'.live = w.live.insert name handle)
    (hserves : Serves deps fresh plain { cfg with envs := cfg.envs.insert name env } name
      handle.runtime) :
    Serving deps fresh plain { cfg with envs := cfg.envs.insert name env } w' := by
  refine ⟨hstored, hsessions, World.AllLive.insert ?_ hserves hlive, fun hf n env' henv' hengine => ?_⟩
  · exact h.live.mono fun n rt hn hne => hn.of_insert hne
  · rw [hlive]
    rcases Tables.getElem?_insert_eq_some.mp henv' with ⟨rfl, -⟩ | ⟨-, henv⟩
    · exact ExtTreeMap.mem_insert_self
    · exact ExtTreeMap.mem_insert.mpr (Or.inr (h.complete hf n env' henv hengine))

/-- It is not live, and nothing is promised of that. -/
theorem Serving.left_out {env : Env} (h : Serving deps fresh plain cfg w) (hstale : ¬ fresh)
    (hstored : w'.stored deps = some { cfg with envs := cfg.envs.insert name env })
    (hsessions : SessionsOf deps cfg w') (hlive : w'.live = w.live) (hnot : name ∉ w.live) :
    Serving deps fresh plain { cfg with envs := cfg.envs.insert name env } w' := by
  refine ⟨hstored, hsessions, fun n handle hn => ?_, fun hf => absurd hf hstale⟩
  rw [hlive] at hn
  exact (h.live n handle hn).of_insert fun heq => hnot (heq ▸ Tables.mem_of_getElem? hn)

/-- The runtime of an environment of which one field was changed on both sides. -/
theorem serves_swapped {env env' : Env} {rt rt' : EnvRuntime} (hentry : cfg.envs[name]? = some env)
    (h : Serves deps fresh plain cfg name rt)
    (henv : env'.engine = env.engine ∧ env'.bastion = env.bastion ∧
      env'.backendHost = env.backendHost ∧ env'.backendPort = env.backendPort ∧
      env'.listenPort = env.listenPort ∧ env'.credential = env.credential ∧
      env'.defaultDatabase = env.defaultDatabase ∧ env'.pool = env.pool)
    (hrt : rt' = { rt with policy := env'.policy, clientAuth := env'.clientAuth }) :
    Serves deps fresh plain { cfg with envs := cfg.envs.insert name env' } name rt' := by
  obtain ⟨env₀, henv₀, hof, hdials, hidle⟩ := h.entry
  obtain rfl : env = env₀ := Option.some.inj (hentry.symm.trans henv₀)
  obtain ⟨hengine, hbastion, hhost, hport, hlisten, hcred, hdb, hpool⟩ := henv
  subst hrt
  refine ⟨h.named, env', by simp, ⟨?_, ?_, rfl, rfl, ?_, ?_⟩, fun hf => ?_, fun hp => ?_⟩
  · exact hof.engine.trans hengine.symm
  · rw [hengine]
    exact hof.supported
  · rw [hlisten]
    exact hof.addr
  · unfold Tunnelled
    rw [hbastion, hhost, hport]
    exact hof.tunnel
  · obtain ⟨cred, hstored, hopts, hsize⟩ := hdials hf
    refine ⟨cred, by rw [hcred]; exact hstored, ?_, by rw [hpool]; exact hsize⟩
    unfold BackendOpts.fromEnvCredential at hopts ⊢
    rw [hhost, hport, hdb]
    exact hopts
  · rw [hpool]
    exact hidle hp

theorem swap_serves {change : Mutate.Change} {a : change.Out} {env env' : Env}
    {mutate : EnvRuntime → EnvRuntime} (hw : Serving deps fresh plain cfg w)
    (hentry : cfg.envs[name]? = some env)
    (hp : Persisted deps change a cfg { cfg with envs := cfg.envs.insert name env' } w w')
    (henv : env'.engine = env.engine ∧ env'.bastion = env.bastion ∧
      env'.backendHost = env.backendHost ∧ env'.backendPort = env.backendPort ∧
      env'.listenPort = env.listenPort ∧ env'.credential = env.credential ∧
      env'.defaultDatabase = env.defaultDatabase ∧ env'.pool = env.pool)
    (hmutate : ∀ rt, rt.policy = env.policy → rt.clientAuth = env.clientAuth →
      mutate rt = { rt with policy := env'.policy, clientAuth := env'.clientAuth }) :
    wp (settledSem deps) (swapRuntime name mutate) (fun _ out w'' => out.Safe ∧
      ((out = .ok () ∨ ¬ fresh) →
        Serving deps fresh plain { cfg with envs := cfg.envs.insert name env' } w'')) w' := by
  have hlive : w'.live = w.live := by rw [hp.same]
  have hsessions : SessionsOf deps cfg w' := hw.sessions.of_sessions (by rw [hp.same])
  refine wp_mono (swapRuntime_serves cfg mutate) fun t out w'' h => ⟨h.2.1, fun hgood => ?_⟩
  obtain ⟨hsteady, -, hchanged⟩ := h
  have hstored := hsteady.stored.trans hp.after
  by_cases hout : out = .ok ()
  · rw [if_pos hout, hlive] at hchanged
    obtain ⟨handle, hhandle, hlive''⟩ := hchanged
    have hserves := hw.live name handle hhandle
    obtain ⟨env₀, henv₀, hof, -⟩ := hserves.entry
    obtain rfl : env = env₀ := Option.some.inj (hentry.symm.trans henv₀)
    refine hw.insert hstored (hsteady.sessions hsessions) hlive'' ?_
    exact serves_swapped hentry hserves henv (hmutate _ hof.policy hof.clientAuth)
  · rw [if_neg hout, hlive] at hchanged
    obtain ⟨hnot, hlive''⟩ := hchanged
    exact hw.left_out (hgood.resolve_left hout) hstored (hsteady.sessions hsessions) hlive'' hnot

section
variable (hseals : deps.seals.Lawful) (peer : PeerIdentity)
include hseals

theorem grantReq_serves (env : String) (hw : Serving deps fresh plain cfg w) :
    wp (settledSem deps) (grantReq deps peer env)
      (ServedPost deps fresh plain (InStep fresh)) w := by
  refine random_serves fun raw => ?_
  refine persist_serves hseals hw (fun e => failMsg_inert ..) fun out cfg' w' hp => ?_
  have hspec : (Mutate.grantEnv deps.mutate raw env).Atomic cfg fun _ cfg' =>
      ∃ e auth, cfg.envs[env]? = some e ∧
        cfg' = { cfg with envs := cfg.envs.insert env { e with clientAuth := auth } } :=
    Mutate.grantEnv_spec fun e he => ⟨e, _, he, rfl⟩
  obtain ⟨e, auth, hentry, rfl⟩ := hspec.of_exec hp.ran
  refine reload_serves hp.after (fun err => ⟨_, _, _, rfl⟩) ?_
  simp only [ExtTreeMap.getElem?_insert_self]
  have hmutate (rt : EnvRuntime) (hpolicy : rt.policy = e.policy) (_ : rt.clientAuth = e.clientAuth) :
      { rt with clientAuth := auth } = { rt with policy := e.policy, clientAuth := auth } := by
    rw [← hpolicy]
  refine attempt_serves (swap_serves hw hentry hp (by simp) hmutate) (fun _ _ h => h.1)
    (fun _ w'' h => ?_) fun err w'' h => ?_
  · exact inert_serves (allowed_inert ..) (h.2 (Or.inl rfl))
  · exact tokenButNotLive_serves _ _ _ _ fun hstale => h.2 (Or.inr hstale)

theorem setPolicyReq_serves (env : String) (target : Mutate.PolicyTarget) (confirmUnsafe : Bool)
    (hw : Serving deps fresh plain cfg w) :
    wp (settledSem deps) (setPolicyReq deps peer env target confirmUnsafe)
      (ServedPost deps fresh plain (InStep fresh)) w := by
  unfold setPolicyReq
  by_cases hunsafe : target = .readWrite ∧ !confirmUnsafe
  · simp only [if_pos hunsafe]
    exact inert_serves (uses_bind (ask_inert rfl) fun _ => uses_halt _) hw
  · simp only [if_neg hunsafe]
    refine persist_serves hseals hw (fun e => failMsg_inert ..) fun out cfg' w' hp => ?_
    obtain ⟨e, hentry, rfl⟩ := Mutate.setPolicy_envs.of_exec hp.ran
    refine reload_serves hp.after (fun err => ⟨_, _, _, rfl⟩) ?_
    simp only [ExtTreeMap.getElem?_insert_self]
    have hmutate (rt : EnvRuntime) (_ : rt.policy = e.policy) (hauth : rt.clientAuth = e.clientAuth) :
        { rt with policy := target.policy } =
          { rt with policy := target.policy, clientAuth := e.clientAuth } := by
      rw [← hauth]
    refine attempt_serves (swap_serves hw hentry hp (by simp) hmutate) (fun _ _ h => h.1)
      (fun _ w'' h => ?_) fun err w'' h => ?_
    · exact inert_serves (allowed_inert ..) (h.2 (Or.inl rfl))
    · exact failMsg_serves _ _ _ fun hstale => h.2 (Or.inr hstale)

theorem addEnvReq_serves (dto : EnvInputDto) (hw : Serving deps fresh plain cfg w) :
    wp (settledSem deps) (addEnvReq deps peer dto)
      (ServedPost deps fresh plain (InStep fresh)) w := by
  refine random_serves fun raw => ?_
  refine persist_serves hseals hw (fun e => failMsg_inert ..) fun out cfg' w' hp => ?_
  have hspec : (Mutate.addEnv deps.mutate raw dto.args).Atomic cfg fun _ cfg' =>
      ∃ env, dto.name ∉ cfg.envs ∧ cfg' = { cfg with envs := cfg.envs.insert dto.name env } :=
    Mutate.addEnv_spec fun p _ hnew _ _ _ => ⟨_, hnew, rfl⟩
  obtain ⟨env, hnew, rfl⟩ := hspec.of_exec hp.ran
  refine reload_serves hp.after (fun err => ⟨_, _, _, rfl⟩) ?_
  simp only [ExtTreeMap.getElem?_insert_self]
  have hlive : w'.live = w.live := by rw [hp.same]
  have hsessions : SessionsOf deps cfg w' := hw.sessions.of_sessions (by rw [hp.same])
  have hnot : dto.name ∉ w.live := fun hmem => by
    obtain ⟨handle, hhandle⟩ := Tables.exists_of_mem hmem
    exact hnew (hw.live _ handle hhandle).mem
  have hs' : SessionsOf deps { cfg with envs := cfg.envs.insert dto.name env } w' :=
    hsessions.of_bastions rfl
  have hentry : ({ cfg with envs := cfg.envs.insert dto.name env } : Config).envs[dto.name]? =
      some env := by simp
  have hadd := applyAddEnv_serves hs' hentry
  refine attempt_serves hadd (fun _ _ h => h.2.1) ?_ ?_
  · rintro _ w'' ⟨hsteady, -, hchanged⟩
    rw [if_pos rfl, hlive] at hchanged
    obtain ⟨handle, hserves, hlive''⟩ := hchanged
    refine inert_serves (allowed_inert ..) (hw.insert (hsteady.stored.trans hp.after) ?_ hlive'' ?_)
    · exact (hsteady.sessions hs').of_bastions rfl
    · exact hserves.weaken (fun _ => trivial) fun _ => trivial
  · rintro err w'' ⟨hsteady, -, hchanged⟩
    have hs'' := (hsteady.sessions hs').of_bastions rfl
    exact tokenButNotLive_serves _ _ _ _ fun hstale =>
      hw.left_out hstale (hsteady.stored.trans hp.after) hs'' (hchanged.trans hlive) hnot

/-- What the bastion is used by is rebuilt or stopped; nothing else went through it. -/
theorem setFingerprintReq_serves (bastion : String) (fingerprint : HostKeyFingerprint)
    (hw : Serving deps fresh plain cfg w) :
    wp (settledSem deps) (setFingerprintReq deps peer bastion fingerprint)
      (ServedPost deps fresh plain (InStep fresh)) w := by
  refine persist_serves hseals hw (fun e => failMsg_inert ..) fun out cfg' w' hp => ?_
  obtain ⟨b, hb, hcfg'⟩ := Mutate.setFingerprint_spec.of_exec hp.ran
  have henvs : cfg'.envs = cfg.envs := by rw [hcfg']
  have hother (n : String) (hne : bastion ≠ n) : cfg'.bastions[n]? = cfg.bastions[n]? := by
    rw [hcfg']
    simp [ExtTreeMap.getElem?_insert, hne]
  have hlive : w'.live = w.live := by rw [hp.same]
  have hsessions : w'.sessions = w.sessions := by rw [hp.same]
  let w₁ : World := { w' with sessions := w'.sessions.erase bastion }
  have hs₁ : SessionsOf deps cfg' w₁ := by
    intro n s hn
    obtain ⟨hne, hn⟩ := Tables.getElem?_erase_eq_some.mp hn
    obtain ⟨x, hx, hopened⟩ := hw.sessions n s (hsessions ▸ hn)
    exact ⟨x, (hother n hne).trans hx, hopened⟩
  have hlive₁ : w₁.AllLive fun n rt => n ∉ Mutate.usersOf cfg' (fun e => e.bastion == some bastion) →
      Serves deps fresh plain cfg' n rt := by
    have hmoved : w₁.AllLive (Serves deps fresh plain cfg) := hw.live.of_live hlive
    refine hmoved.mono fun n rt hserves hunused => ?_
    refine hserves.transfer (by rw [henvs]) (fun env b' x henv hb' hx => ?_) fun _ _ _ _ h => ?_
    · refine (hother b' fun heq => hunused ?_).trans hx
      exact Mutate.mem_usersOf_iff.mpr ⟨env, by rw [henvs]; exact henv, by simp [hb', heq]⟩
    · rw [hcfg']
      exact h
  have hnames : ∀ n ∈ Mutate.usersOf cfg' (fun e => e.bastion == some bastion), n ∈ cfg'.envs := by
    intro n hn
    obtain ⟨env, henv, -⟩ := Mutate.mem_usersOf_iff.mp hn
    exact Tables.mem_of_getElem? henv
  refine wp_ask_bind fun evicted w'' hevict => ?_
  obtain rfl : w'' = w₁ := hevict.1.2
  refine serves_append (t := [_]) (reload_serves hp.after (fun err => ⟨_, _, _, rfl⟩) ?_)
  have hserving {w₂ : World} (hsteady : Steady deps cfg' w₁ w₂)
      (hserves : w₂.AllLive (Serves deps fresh plain cfg')) (hsame : fresh → SameNames w₁ w₂) :
      Serving deps fresh plain cfg' w₂ := by
    refine ⟨hsteady.stored.trans hp.after, hsteady.sessions hs₁, hserves, fun hf n env henv hengine => ?_⟩
    rw [henvs] at henv
    rw [hsame hf n]
    simpa only [w₁, hlive] using hw.complete hf n env henv hengine
  refine part_serves (repinEnvs_serves _ hs₁ hnames hlive₁) (fun stopped w₂ h => ?_)
    fun out w₂ h hstale => ⟨cfg', hserving h.1 h.2.1 fun hf => absurd hf hstale⟩
  obtain ⟨hsteady, hserves, hsame⟩ := h
  cases stopped with
  | nil => exact inert_serves (allowed_inert ..) (hserving hsteady hserves fun _ => hsame rfl)
  | cons first rest =>
    exact failMsg_serves _ _ _ fun hstale => hserving hsteady hserves fun hf => absurd hf hstale

/-- What uses the credential is rebuilt with it, or the request fails. -/
theorem rotateCredReq_serves (name password : String) (hw : Serving deps fresh plain cfg w) :
    wp (settledSem deps) (rotateCredReq deps peer name password)
      (ServedPost deps fresh plain (InStep fresh)) w := by
  refine persist_serves hseals hw (fun e => failMsg_inert ..) fun out cfg' w' hp => ?_
  obtain ⟨c, hc, hcfg'⟩ := Mutate.rotateCred_spec.of_exec hp.ran
  have henvs : cfg'.envs = cfg.envs := by rw [hcfg']
  have hbastions : cfg'.bastions = cfg.bastions := by rw [hcfg']
  have hother (n : String) (hne : name ≠ n) : cfg'.credentials[n]? = cfg.credentials[n]? := by
    rw [hcfg']
    simp [ExtTreeMap.getElem?_insert, hne]
  have hlive : w'.live = w.live := by rw [hp.same]
  have hs' : SessionsOf deps cfg' w' :=
    (hw.sessions.of_sessions (by rw [hp.same])).of_bastions hbastions
  have hlive' : w'.AllLive fun n =>
      Serves deps (fresh ∧ n ∉ Mutate.usersOf cfg' fun e => e.credential == name) plain cfg' n := by
    refine (hw.live.of_live hlive).mono fun n rt hserves => ?_
    refine (hserves.any And.left).transfer (by rw [henvs]) (fun _ b x _ _ hx => hbastions ▸ hx) ?_
    rintro ⟨-, hunused⟩ env cred henv hcred
    refine (hother _ fun heq => hunused ?_).trans hcred
    exact Mutate.mem_usersOf_iff.mpr ⟨env, by rw [henvs]; exact henv, by simp [heq]⟩
  have hserving {w₂ : World} (hsteady : Steady deps cfg' w' w₂) (hsame : SameNames w' w₂)
      (hserves : w₂.AllLive (Serves deps fresh plain cfg')) : Serving deps fresh plain cfg' w₂ := by
    refine ⟨hsteady.stored.trans hp.after, hsteady.sessions hs', hserves, fun hf n env henv hengine => ?_⟩
    rw [henvs] at henv
    rw [hsame n, hlive]
    exact hw.complete hf n env henv hengine
  have hstale {w₂ : World} {P : Prop} (h : ¬ fresh)
      (hserves : w₂.AllLive fun n => Serves deps (fresh ∧ P) plain cfg' n) :
      w₂.AllLive (Serves deps fresh plain cfg') :=
    hserves.mono fun n rt hn => hn.any fun hf => absurd hf h
  refine reload_serves hp.after (fun err => ⟨_, _, _, rfl⟩) ?_
  refine part_serves (rebuildEnvs_serves _ hs' hlive') (fun failed w₂ h => ?_)
    fun out w₂ h hs => ⟨cfg', hserving h.1 h.2.1 (hstale hs h.2.2)⟩
  obtain ⟨hsteady, hsame, hserves⟩ := h
  cases failed with
  | none =>
    refine inert_serves (allowed_inert ..) (hserving hsteady hsame (hserves.mono fun n rt hn => ?_))
    exact hn.any fun hf => ⟨hf, rfl⟩
  | some failure =>
    exact failMsg_serves _ _ _ fun hs => hserving hsteady hsame (hstale hs hserves)

theorem importReq_serves (fragment : Config) (hw : Serving deps fresh plain cfg w) :
    wp (settledSem deps) (importReq deps peer fragment)
      (ServedPost deps fresh plain (InStep fresh)) w := by
  refine persist_serves hseals hw (fun e => failMsg_inert ..) fun out cfg' w' hp => ?_
  have hmerged : Mutate.Merged cfg fragment cfg' :=
    (Mutate.mergeImport_atomic cfg fragment).of_exec hp.ran
  have hlive : w'.live = w.live := by rw [hp.same]
  have hbastions (b : String) (x : Bastion) (hx : cfg.bastions[b]? = some x) :
      cfg'.bastions[b]? = some x := (hmerged.bastions.lookup b x).mpr (Or.inl hx)
  have hs' : SessionsOf deps cfg' w' := by
    intro n s hn
    obtain ⟨x, hx, hopened⟩ := hw.sessions n s (by rw [hp.same] at hn; exact hn)
    exact ⟨x, hbastions n x hx, hopened⟩
  have hlive' : w'.AllLive (Serves deps fresh plain cfg') := by
    refine (hw.live.of_live hlive).mono fun n rt hserves => ?_
    obtain ⟨env, henv⟩ := Tables.exists_of_mem hserves.mem
    refine hserves.transfer ?_ (fun _ b x _ _ => hbastions b x) fun _ env cred _ hcred => ?_
    · rw [henv]
      exact (hmerged.envs.lookup n env).mpr (Or.inl henv)
    · exact (hmerged.credentials.lookup _ cred).mpr (Or.inl hcred)
  refine reload_serves hp.after (fun err => ⟨_, _, _, rfl⟩) ?_
  refine part_serves (addEnvs_serves _ hs' hlive') (fun failed w₂ h => ?_) fun out w₂ h hs => ?_
  · obtain ⟨hsteady, hserves, hkept, hadded⟩ := h
    have hstored := hsteady.stored.trans hp.after
    cases failed with
    | some failure =>
      exact failMsg_serves _ _ _ fun hs =>
        ⟨hstored, hsteady.sessions hs', hserves, fun hf => absurd hf hs⟩
    | none =>
      refine inert_serves (allowed_inert ..) ⟨hstored, hsteady.sessions hs', hserves, ?_⟩
      intro hf n env henv hengine
      rcases (hmerged.envs.lookup n env).mp henv with hold | hnew
      · exact hkept n (hlive ▸ hw.complete hf n env hold hengine)
      · refine hadded rfl n ?_ (Tables.mem_of_getElem? henv)
        exact ExtTreeMap.mem_keys.mpr (Tables.mem_of_getElem? hnew)
  · exact ⟨cfg', h.1.stored.trans hp.after, h.1.sessions hs', h.2.1, fun hf => absurd hf hs⟩

end

/-! ## Reads -/

section
variable (deps peer)

theorem listRows_inert (action : String) (rows : Config → List String) :
    InertProg (listRows deps peer action rows) := by
  refine uses_bind (ask_inert rfl) fun loaded => ?_
  cases loaded with
  | error e => exact failMsg_inert ..
  | ok cfg => exact allowed_inert ..

theorem auditTail_inert (n : ℕ) : InertProg (auditTail peer n) := by
  refine uses_bind (ask_inert rfl) fun found => ?_
  cases found with
  | false => exact uses_halt _
  | true =>
    refine uses_bind (ask_inert rfl) fun listed => ?_
    cases listed with
    | error e => exact failMsg_inert ..
    | ok entries =>
      dsimp only
      cases ((entries.filter (·.startsWith "audit.jsonl")).mergeSort).getLast? with
      | none => exact uses_halt _
      | some latest =>
        refine uses_bind (ask_inert rfl) fun body => ?_
        cases body with
        | error e => exact failMsg_inert ..
        | ok body => exact uses_halt _

/-- A probe opens its own sessions and leaves the cached ones alone. -/
theorem openTunnel_inert (name : String) (env : Env) (cfg : Config) (opts : BackendOpts) :
    InertProg (openTunnel deps true name env cfg opts) := by
  unfold openTunnel
  cases env.bastion with
  | none => exact uses_halt _
  | some b =>
    dsimp only
    cases cfg.bastions[b]? with
    | none => exact uses_halt _
    | some bastion =>
      refine uses_bind (ask_inert rfl) fun opened => uses_bind (uses_ofExcept _) fun session => ?_
      exact uses_bind (ask_inert rfl) fun answer => uses_bind (uses_ofExcept _) fun _ => uses_halt _

theorem probeBackend_inert (name : String) (env : Env) (cfg : Config) :
    InertProg (probeBackend deps name env cfg) := by
  have hestablish : InertProg (establishBackend deps true name env cfg) := by
    unfold establishBackend
    cases cfg.credentials[env.credential]? with
    | none => exact uses_halt _
    | some cred =>
      apply uses_bind (openTunnel_inert deps name env cfg _)
      intro tunnel
      refine uses_bind (ask_inert rfl) fun answer => ?_
      exact uses_bind (uses_ofExcept _) fun _ => uses_halt _
  apply uses_bind hestablish
  intro built
  exact uses_bind (ask_inert rfl) fun answer => uses_ofExcept answer

theorem probeEnvs_inert (cfg : Config) (names : List String) : InertProg (probeEnvs deps cfg names) := by
  induction names with
  | nil => exact uses_halt _
  | cons name rest ih =>
    refine uses_bind ?_ fun result => uses_bind ih fun results => uses_halt _
    unfold probeOneEnv
    cases cfg.envs[name]? with
    | none => exact uses_halt _
    | some env =>
      by_cases hengine : env.engine = .msSql
      · simp only [if_pos hengine]
        exact uses_halt _
      · simp only [if_neg hengine]
        refine uses_bind (uses_attempt (probeBackend_inert deps name env cfg)) fun result => ?_
        cases result with
        | ok _ => exact uses_halt _
        | error e => exact uses_halt _

theorem probeReq_inert (env : Option String) (all : Bool) : InertProg (probeReq deps peer env all) := by
  unfold probeReq
  dsimp only
  cases (if all = true then some Probe.all else env.map Probe.one) with
  | none => exact failMsg_inert ..
  | some which =>
    refine uses_bind (ask_inert rfl) fun loaded => ?_
    cases loaded with
    | error e => exact failMsg_inert ..
    | ok cfg => exact uses_bind (probeEnvs_inert deps cfg _) fun results => allowed_inert ..

end

/-! ## Runs -/

theorem dispatch_serves (hseals : deps.seals.Lawful) (peer : PeerIdentity) (req : Request)
    (hw : Serving deps fresh plain cfg w) :
    wp (settledSem deps) (dispatch deps peer req) (ServedPost deps fresh plain (InStep fresh)) w := by
  cases req with
  | hello version => exact wp_halt.mpr fun _ => ⟨cfg, hw⟩
  | addBastion dto => exact addBastionReq_serves hseals peer dto hw
  | rmBastion name => exact rmBastionReq_serves hseals peer name hw
  | setFingerprint bastion fingerprint => exact setFingerprintReq_serves hseals peer bastion fingerprint hw
  | addCred dto => exact addCredReq_serves hseals peer dto hw
  | rotateCred name password => exact rotateCredReq_serves hseals peer name password hw
  | rmCred name => exact rmCredReq_serves hseals peer name hw
  | addEnv dto => exact addEnvReq_serves hseals peer dto hw
  | rmEnv name => exact rmEnvReq_serves hseals peer name hw
  | grant env => exact grantReq_serves hseals peer env hw
  | setPolicy env target confirmUnsafe => exact setPolicyReq_serves hseals peer env target confirmUnsafe hw
  | import_ fragment => exact importReq_serves hseals peer fragment hw
  | listBastions => exact inert_serves (listRows_inert ..) hw
  | listCreds => exact inert_serves (listRows_inert ..) hw
  | listEnvs => exact inert_serves (listRows_inert ..) hw
  | auditTail n => exact inert_serves (auditTail_inert peer n) hw
  | probe env all => exact inert_serves (probeReq_inert deps peer env all) hw

theorem ReachedBy.serving {Fine : Request → List DaemonEvent → Outcome String Response → Prop}
    {idleTimeoutSecs : Option UInt32} (hseals : deps.seals.Lawful)
    (hfine : ∀ req t out, Fine req t out → InStep fresh t out) (h : ReachedBy deps Fine idleTimeoutSecs w) :
    ∃ cfg, Serving deps fresh (idleTimeoutSecs = none) cfg w := by
  induction h with
  | started hlive hloops hsessions hkept hexec =>
    obtain ⟨cfg, -, hw⟩ := run_serving hlive hsessions _ _ _ hexec rfl
    refine ⟨cfg, hw.stored, hw.sessions, hw.live.mono fun n rt h => h.any fun _ => trivial, fun _ => ?_⟩
    exact hw.complete trivial
  | served peer req _ hexec hgood ih =>
    obtain ⟨cfg, hw⟩ := ih
    exact dispatch_serves hseals peer req hw _ _ _ hexec (hfine _ _ _ hgood)

/-- A daemon that has started over one stored environment. -/
def sampleServing (cfgs : List Config) : World :=
  servingWorld (storeOf cfgs sampleConfig)
    ⟨directRuntime "app" sampleEnv ⟨"u", "pw"⟩ ("127.0.0.1:" ++ toString sampleEnv.listenPort.toNat) 0, 0⟩

theorem sample_start {cfgs : List Config} (hmem : sampleConfig ∈ cfgs)
    (hschema : ∀ cfg ∈ cfgs, cfg.schemaVersion = 2) :
    ∃ t, Exec (settledSem (sampleDaemon cfgs)) (run (sampleDaemon cfgs) none)
      (idleWorld (storeOf cfgs sampleConfig)) t (.ok ()) (sampleServing cfgs) := by
  have hvalid : sampleConfig.Valid := by decide
  have hstored : (idleWorld (storeOf cfgs sampleConfig)).stored (sampleDaemon cfgs) =
      some sampleConfig := stored_storeOf hschema hmem hvalid
  have henvs : sampleConfig.envs.toList = [("app", sampleEnv)] := by rfl
  have hcred : sampleConfig.credentials[sampleEnv.credential]? = some ⟨"u", "pw"⟩ := by rfl
  exact start_direct 0 0 hstored henvs rfl rfl hcred rfl

theorem sample_reached {cfgs : List Config} (hmem : sampleConfig ∈ cfgs)
    (hschema : ∀ cfg ∈ cfgs, cfg.schemaVersion = 2)
    (Fine : Request → List DaemonEvent → Outcome String Response → Prop) :
    ReachedBy (sampleDaemon cfgs) Fine none (sampleServing cfgs) := by
  obtain ⟨t, hexec⟩ := sample_start hmem hschema
  exact .started rfl rfl rfl rfl hexec

/-- What a runtime was built from, without the handles that the system has given it. -/
structure Setup where
  engine : EngineKind
  backend : BackendOpts
  maxSize : UInt32
  policy : Policy
  clientAuth : ClientAuth
  listenAddr : SocketAddr
  bastions : List Bastion
deriving DecidableEq

def EnvRuntime.setup (rt : EnvRuntime) : Setup where
  engine := rt.engine
  backend := match rt.forwards with
    | [] => rt.backend.opts
    | forward :: _ => { rt.backend.opts with host := forward.host, port := forward.port }
  maxSize := rt.backend.maxSize
  policy := rt.policy
  clientAuth := rt.clientAuth
  listenAddr := rt.listenAddr
  bastions := rt.forwards.map fun forward => forward.session.bastion

theorem setup_of_entry {env : Env} {cred : Credential} {rt : EnvRuntime}
    (hof : OfEntry deps cfg env rt) (hcred : cfg.credentials[env.credential]? = some cred)
    (hdials : Dials cfg env rt) : rt.setup = {
      engine := env.engine
      backend := .fromEnvCredential env cred
      maxSize := max env.pool.maxSize 1
      policy := env.policy
      clientAuth := env.clientAuth
      listenAddr := rt.listenAddr
      bastions := ((env.bastion.bind fun b => cfg.bastions[b]?).toList) } := by
  obtain ⟨cred', hcred', hopts, hsize⟩ := hdials
  obtain rfl : cred = cred' := Option.some.inj (hcred.symm.trans hcred')
  unfold EnvRuntime.setup
  rw [hof.engine, hof.policy, hof.clientAuth, hsize, hopts]
  rcases hof.tunnel with ⟨hnone, hforwards⟩ | ⟨b, bastion, forward, hb, hentry, hforwards, hopened, hhost, hport⟩
  · simp [hforwards, hnone, dialed]
  · simp [hforwards, hb, hentry, dialed, hopened.entry, hhost, hport, BackendOpts.fromEnvCredential]

theorem Serving.setup_eq {plain' : Prop} (h : Serving deps True plain cfg w)
    (h' : Serving deps True plain' cfg w') (name : String) :
    (w.live[name]?).map (·.runtime.setup) = (w'.live[name]?).map (·.runtime.setup) := by
  have hmem {w₁ w₂ : World} {p₁ p₂ : Prop} (h₁ : Serving deps True p₁ cfg w₁)
      (h₂ : Serving deps True p₂ cfg w₂) (hn : name ∈ w₁.live) : name ∈ w₂.live := by
    obtain ⟨handle, hlive⟩ := Tables.exists_of_mem hn
    obtain ⟨env, henv, hof, -⟩ := (h₁.live name handle hlive).entry
    exact h₂.complete trivial name env henv hof.supported
  by_cases hn : name ∈ w.live
  · obtain ⟨handle, hlive⟩ := Tables.exists_of_mem hn
    obtain ⟨handle', hlive'⟩ := Tables.exists_of_mem (hmem h h' hn)
    obtain ⟨env, henv, hof, hdials, -⟩ := (h.live name handle hlive).entry
    obtain ⟨env', henv', hof', hdials', -⟩ := (h'.live name handle' hlive').entry
    obtain rfl : env = env' := Option.some.inj (henv.symm.trans henv')
    obtain ⟨cred, hcred, -⟩ := hdials trivial
    have haddr : handle.runtime.listenAddr = handle'.runtime.listenAddr :=
      Except.ok.inj (hof.addr.symm.trans hof'.addr)
    rw [hlive, hlive', Option.map_some, Option.map_some, setup_of_entry hof hcred (hdials trivial),
      setup_of_entry hof' hcred (hdials' trivial), haddr]
  · have hn' : name ∉ w'.live := fun h₁ => hn (hmem h' h h₁)
    rw [ExtTreeMap.getElem?_eq_none hn, ExtTreeMap.getElem?_eq_none hn']

/-- After requests that were all answered as done or stored nothing, a restart that goes through
builds the environments that are live, from the same. -/
theorem restart_changes_nothing {idleTimeoutSecs : Option UInt32} {w₀ : World} {t : List DaemonEvent}
    (hseals : deps.seals.Lawful) (h : ReachedBy deps Settles idleTimeoutSecs w)
    (hstore : w₀.store = w.store) (hlive : w₀.live = ∅) (hsessions : w₀.sessions = ∅)
    (hexec : Exec (settledSem deps) (run deps idleTimeoutSecs) w₀ t (.ok ()) w') (name : String) :
    (w'.live[name]?).map (·.runtime.setup) = (w.live[name]?).map (·.runtime.setup) := by
  obtain ⟨cfg, hw⟩ : ∃ cfg, Serving deps True (idleTimeoutSecs = none) cfg w :=
    h.serving hseals fun req t out hsettles => Or.inl hsettles
  obtain ⟨cfg', hstored, hw'⟩ := run_serving hlive hsessions _ _ _ hexec rfl
  obtain rfl : cfg = cfg' := by
    rw [stored_of_store hstore, hw.stored] at hstored
    exact Option.some.inj hstored
  exact hw'.setup_eq hw name

theorem restart_changes_nothing_sample : ∃ w w' : World, "app" ∈ w.live ∧
    ∀ name : String,
      (w'.live[name]?).map (·.runtime.setup) = (w.live[name]?).map (·.runtime.setup) := by
  have hschema : ∀ cfg ∈ [sampleConfig], cfg.schemaVersion = 2 := by simp [sampleConfig]; rfl
  have hreached := sample_reached (List.mem_singleton_self _) hschema Settles
  obtain ⟨t, hexec⟩ := sample_start (List.mem_singleton_self _) hschema
  have hstore : (idleWorld (storeOf [sampleConfig] sampleConfig)).store =
      (sampleServing [sampleConfig]).store := rfl
  refine ⟨_, _, ?_, restart_changes_nothing (Store.listedSeals_lawful hschema) hreached hstore rfl rfl
    hexec⟩
  simp [sampleServing, servingWorld, directRuntime]

end MiddleWhere.Daemon
