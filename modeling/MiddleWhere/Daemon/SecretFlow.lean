import MiddleWhere.Core.StorePairs
import MiddleWhere.Daemon.AdminAudit
import MiddleWhere.Daemon.RegistryRuns

/-!
# Secrets and the outputs of the control channel

A request is run with every step on the record, those of the store included. Two runs whose
steps have the same outcomes, and whose worlds or requests differ only in secrets, emit the same
events and answer the same response.
-/

namespace MiddleWhere.Daemon
open Prog

/-! ## Runs with every step on the record -/

inductive Step
  | store (e : Event Store.storeSig)
  | daemon (e : DaemonEvent)

/-- The event that a step hands to the audit log. -/
def Step.emitted : Step → Option AdminEvent
  | .daemon ⟨.emit event, _⟩ => some event
  | _ => none

def emitted (l : List Step) : List AdminEvent := l.filterMap Step.emitted

/-- As `RunsStore`, with the steps of the store's program. -/
def RunsStoreBy {α : Type} (p : Store.StoreProg α) (w : World) (r : Except Store.StateError α)
    (l : List Step) (w' : World) : Prop :=
  (∃ t, Exec Store.storeSem p w.store t (match r with | .ok a => .ok a | .error e => .err e)
    w'.store ∧ l = t.map .store) ∧ w' = { w with store := w'.store }

/-- The world of `daemonSem`. The operations that go through the store put its steps on the
record, every other one itself. -/
def recordedSem (deps : DaemonDeps) : RecSem daemonSig World Step
  | w, .persist change, r, l, w' => RunsStoreBy (persistProg deps change) w r l w'
  | w, .loadConfig, r, l, w' =>
    RunsStoreBy (Store.loadConfig deps.seals deps.stateDir) w r l w'
  | w, o, r, l, w' => daemonSem deps w o r w' ∧ l = [.daemon ⟨o, r⟩]

section
variable {deps : DaemonDeps} {α : Type} {w w' : World}

theorem runsStore_iff {p : Store.StoreProg α} {r : Except Store.StateError α} :
    RunsStore p w r w' ↔ ∃ l, RunsStoreBy p w r l w' := by
  constructor
  · intro h
    obtain ⟨⟨t, ht⟩, hw⟩ := h
    exact ⟨t.map .store, ⟨t, ht, rfl⟩, hw⟩
  · intro h
    obtain ⟨l, ⟨t, ht, -⟩, hw⟩ := h
    exact ⟨⟨t, ht⟩, hw⟩

theorem emitted_store (t : List (Event Store.storeSig)) : emitted (t.map .store) = [] := by
  induction t with
  | nil => rfl
  | cons e t ih => exact ih

theorem emitted_append (l l' : List Step) : emitted (l ++ l') = emitted l ++ emitted l' :=
  List.filterMap_append

/-- A step of the recorded world is one of the world, and emits what its operation emits. -/
theorem recordedSem_sound {o : DaemonOp} {r : o.Res} {l : List Step}
    (h : recordedSem deps w o r l w') :
    daemonSem deps w o r w' ∧ emitted l = events [⟨o, r⟩] := by
  cases o with
  | persist change =>
    obtain ⟨⟨t, -, rfl⟩, -⟩ := id h
    exact ⟨runsStore_iff.mpr ⟨_, h⟩, emitted_store t⟩
  | loadConfig =>
    obtain ⟨⟨t, -, rfl⟩, -⟩ := id h
    exact ⟨runsStore_iff.mpr ⟨_, h⟩, emitted_store t⟩
  | _ =>
    obtain ⟨hM, rfl⟩ := h
    exact ⟨hM, rfl⟩

theorem recordedSem_complete {o : DaemonOp} {r : o.Res} (h : daemonSem deps w o r w') :
    ∃ l, recordedSem deps w o r l w' := by
  cases o with
  | persist change => exact runsStore_iff.mp h
  | loadConfig => exact runsStore_iff.mp h
  | _ => exact ⟨_, h, rfl⟩

/-- The recorded runs are the runs of the daemon. -/
theorem recorded_iff {p : DaemonProg α} {out : Outcome String α} {evs : List AdminEvent} :
    (∃ l, Recorded (recordedSem deps) p w l out w' ∧ emitted l = evs) ↔
      ∃ t, Exec (daemonSem deps) p w t out w' ∧ events t = evs := by
  induction p generalizing w evs with
  | halt o =>
    simp only [recorded_halt_iff, exec_halt_iff]
    constructor
    · intro h
      obtain ⟨l, ⟨rfl, hend⟩, hevs⟩ := h
      exact ⟨[], ⟨rfl, hend⟩, hevs⟩
    · intro h
      obtain ⟨t, ⟨rfl, hend⟩, hevs⟩ := h
      exact ⟨[], ⟨rfl, hend⟩, hevs⟩
  | call o k ih =>
    simp only [recorded_call_iff, exec_call_iff]
    constructor
    · intro h
      obtain ⟨l, ⟨r, now, w₁, rest, hM, hrest, rfl⟩, rfl⟩ := h
      obtain ⟨hcall, hnow⟩ := recordedSem_sound hM
      obtain ⟨t, ht, hevs⟩ := (ih r).mp ⟨rest, hrest, rfl⟩
      refine ⟨⟨o, r⟩ :: t, ⟨r, w₁, t, hcall, ht, rfl⟩, ?_⟩
      rw [emitted_append, hnow, ← hevs, ← events_append, List.singleton_append]
    · intro h
      obtain ⟨t, ⟨r, w₁, t', hcall, ht, rfl⟩, rfl⟩ := h
      obtain ⟨now, hM⟩ := recordedSem_complete hcall
      obtain ⟨rest, hrest, hevs⟩ := (ih r).mpr ⟨t', ht, rfl⟩
      refine ⟨now ++ rest, ⟨r, now, w₁, rest, hM, hrest, rfl⟩, ?_⟩
      rw [emitted_append, (recordedSem_sound hM).2, hevs, ← events_append, List.singleton_append]

end

/-! ## Two runs of the daemon -/

def daemonStepsAgree : DaemonEvent → DaemonEvent → Prop
  | ⟨.getOrOpen _ _ _, r₁⟩, ⟨.getOrOpen _ _ _, r₂⟩ => SameOutcome r₁ r₂
  | ⟨.startForward _ _ _, r₁⟩, ⟨.startForward _ _ _, r₂⟩ => SameOutcome r₁ r₂
  | ⟨.buildBackend _ _ _, r₁⟩, ⟨.buildBackend _ _ _, r₂⟩ => SameOutcome r₁ r₂
  | ⟨.publish _ _, found₁⟩, ⟨.publish _ _, found₂⟩ => found₁ = found₂
  | _, _ => True

/-- Two steps of one kind have the same outcome, whatever values they came with. -/
def OutcomesAgree : Step → Step → Prop
  | .store e₁, .store e₂ => Store.StepsAgree e₁ e₂
  | .daemon e₁, .daemon e₂ => daemonStepsAgree e₁ e₂
  | _, _ => True

def EmitAlike (e₁ e₂ : Step) : Prop := e₁.emitted = e₂.emitted

abbrev BothDaemon (deps : DaemonDeps) {α₁ α₂ : Type} (p₁ : DaemonProg α₁) (p₂ : DaemonProg α₂)
    (Q : α₁ → α₂ → World → World → Prop) (w₁ w₂ : World) : Prop :=
  Both (recordedSem deps) OutcomesAgree EmitAlike p₁ p₂ Q w₁ w₂

section
variable {deps : DaemonDeps} {α₁ α₂ β₁ β₂ : Type} {w w₁ w₂ : World}

theorem emitted_eq_of_alike {l₁ l₂ : List Step} (h : List.Forall₂ EmitAlike l₁ l₂) :
    emitted l₁ = emitted l₂ := by
  induction h with
  | nil => rfl
  | cons he _ ih =>
    unfold emitted at ih ⊢
    rw [List.filterMap_cons, List.filterMap_cons, ih, he]

/-- Two runs of the store that end alike inside two runs of the daemon. -/
theorem runs_both {p₁ : Store.StoreProg α₁} {p₂ : Store.StoreProg α₂}
    {Q : α₁ → α₂ → Store.World → Store.World → Prop}
    (h : Store.BothStore p₁ p₂ Q w₁.store w₂.store) {r₁ : Except Store.StateError α₁}
    {r₂ : Except Store.StateError α₂} {l₁ l₂ : List Step} {w₁' w₂' : World}
    (h₁ : RunsStoreBy p₁ w₁ r₁ l₁ w₁') (h₂ : RunsStoreBy p₂ w₂ r₂ l₂ w₂')
    (hE : Aligned OutcomesAgree l₁ l₂) :
    List.Forall₂ EmitAlike l₁ l₂ ∧ Alike (fun a₁ a₂ => Q a₁ a₂ w₁'.store w₂'.store) r₁ r₂ := by
  obtain ⟨⟨t₁, ht₁, rfl⟩, -⟩ := h₁
  obtain ⟨⟨t₂, ht₂, rfl⟩, -⟩ := h₂
  have hsteps : Aligned (fun e₁ e₂ => OutcomesAgree (.store e₁) (.store e₂)) t₁ t₂ :=
    aligned_map hE
  obtain ⟨hlength, hends⟩ :=
    h _ _ _ _ _ _ (recorded_iff_exec.mpr ht₁) (recorded_iff_exec.mpr ht₂) hsteps
  constructor
  · rw [List.forall₂_map_left_iff, List.forall₂_map_right_iff]
    exact hlength.imp fun _ _ _ => rfl
  · cases r₁ <;> cases r₂ <;> exact hends

/-- The two stores hold configurations that differ only in secrets. -/
def StoredAlike (deps : DaemonDeps) (w₁ w₂ : World) : Prop :=
  ∃ cfg₁ cfg₂, w₁.stored deps = some cfg₁ ∧ w₂.stored deps = some cfg₂ ∧
    cfg₁.redact = cfg₂.redact

theorem persist_both (hseals : deps.seals.Lawful) {change₁ change₂ : Mutate.Change}
    (hhides : Mutate.HidesSecret (change₁.run deps.mutate) (change₂.run deps.mutate))
    (hseal : ∀ cfg, w.stored deps = some cfg → Store.SealAlike deps.seals w.store.key
      ((change₁.run deps.mutate).exec cfg).2 ((change₂.run deps.mutate).exec cfg).2) :
    BothDaemon deps (ask (.persist change₁)) (ask (.persist change₂))
      (fun r₁ r₂ w₁' w₂' => Alike (fun _ _ => StoredAlike deps w₁' w₂') r₁ r₂) w w := by
  apply both_call
  intro r₁ l₁ w₁' r₂ l₂ w₂' h₁ h₂ hE
  obtain ⟨hemit, halike⟩ := runs_both (Store.withConfig_both hhides hseal) h₁ h₂ hE
  refine ⟨hemit, both_ok ?_⟩
  obtain ⟨⟨t₁, ht₁, -⟩, -⟩ := h₁
  obtain ⟨⟨t₂, ht₂, -⟩, -⟩ := h₂
  cases r₁ with
  | error e => cases r₂ <;> exact halike
  | ok a₁ =>
    cases r₂ with
    | error e => exact halike
    | ok a₂ =>
      obtain ⟨cfg, cfg₁, hcfg, hrun₁, hstored₁⟩ := Store.withConfig_stored hseals ht₁
      obtain ⟨cfg', cfg₂, hcfg', hrun₂, hstored₂⟩ := Store.withConfig_stored hseals ht₂
      obtain rfl : cfg = cfg' := Option.some.inj (hcfg.symm.trans hcfg')
      have hredact := (hhides cfg).2
      rw [hrun₁, hrun₂] at hredact
      exact ⟨cfg₁, cfg₂, hstored₁, hstored₂, hredact⟩

theorem loadConfig_both {cfg₁ cfg₂ : Config}
    (h₁ : Store.Sealed deps.seals deps.stateDir w₁.store cfg₁)
    (h₂ : Store.Sealed deps.seals deps.stateDir w₂.store cfg₂) (hsame : cfg₁.redact = cfg₂.redact) :
    BothDaemon deps (ask .loadConfig) (ask .loadConfig)
      (fun r₁ r₂ _ _ => Alike (fun c₁ c₂ => c₁.redact = c₂.redact) r₁ r₂) w₁ w₂ := by
  apply both_call
  intro r₁ l₁ w₁' r₂ l₂ w₂' hrun₁ hrun₂ hE
  obtain ⟨hemit, halike⟩ := runs_both (Store.loadConfig_both_sealed h₁ h₂ hsame) hrun₁ hrun₂ hE
  exact ⟨hemit, both_ok halike⟩

/-- An operation that goes on the record itself. -/
def Plain (deps : DaemonDeps) (o : DaemonOp) : Prop :=
  ∀ w r l w', recordedSem deps w o r l w' → l = [.daemon ⟨o, r⟩]

theorem ask_both {o₁ o₂ : DaemonOp} (ho₁ : Plain deps o₁) (ho₂ : Plain deps o₂)
    (hemit : ∀ r₁ r₂, EmitAlike (.daemon ⟨o₁, r₁⟩) (.daemon ⟨o₂, r₂⟩)) :
    BothDaemon deps (ask o₁) (ask o₂) (fun r₁ r₂ _ _ => daemonStepsAgree ⟨o₁, r₁⟩ ⟨o₂, r₂⟩) w₁ w₂ := by
  apply both_call
  intro r₁ l₁ w₁' r₂ l₂ w₂' h₁ h₂ hE
  rw [ho₁ _ _ _ _ h₁, ho₂ _ _ _ _ h₂] at hE ⊢
  have hagree : OutcomesAgree (.daemon ⟨o₁, r₁⟩) (.daemon ⟨o₂, r₂⟩) := aligned_singleton hE
  exact ⟨.cons (hemit r₁ r₂) .nil, both_ok hagree⟩

/-! ## Handlers -/

abbrev SameResponse (resp₁ resp₂ : Response) (_ _ : World) : Prop := resp₁ = resp₂

theorem plain_emit (event : AdminEvent) : Plain deps (.emit event) := fun _ _ _ _ h => h.2

/-- Every way out emits one event and answers. -/
theorem emit_both (event : AdminEvent) (resp : Response) :
    BothDaemon deps ((ask (.emit event)).bind fun _ => .halt (.ok resp))
      ((ask (.emit event)).bind fun _ => .halt (.ok resp)) SameResponse w₁ w₂ := by
  apply both_bind (ask_both (plain_emit event) (plain_emit event) fun _ _ => rfl)
  intro _ _ _ _ _
  exact both_ok rfl

theorem simpleMutation_both (hseals : deps.seals.Lawful) {peer : PeerIdentity}
    {action target : String} {change₁ change₂ : Mutate.Change}
    (hhides : Mutate.HidesSecret (change₁.run deps.mutate) (change₂.run deps.mutate))
    (hseal : ∀ cfg, w.stored deps = some cfg → Store.SealAlike deps.seals w.store.key
      ((change₁.run deps.mutate).exec cfg).2 ((change₂.run deps.mutate).exec cfg).2) :
    BothDaemon deps (simpleMutation deps peer action target change₁)
      (simpleMutation deps peer action target change₂) SameResponse w w := by
  apply both_bind (persist_both hseals hhides hseal)
  intro r₁ r₂ w₁' w₂' halike
  cases r₁ with
  | ok _ =>
    cases r₂ with
    | ok _ => exact emit_both _ _
    | error e => exact halike.elim
  | error e₁ =>
    cases r₂ with
    | ok _ => exact halike.elim
    | error e₂ =>
      obtain rfl : e₁ = e₂ := halike
      exact emit_both _ _

theorem listRows_both {peer : PeerIdentity} {action : String} {rows : Config → List String}
    (hrows : ∀ cfg, rows cfg.redact = rows cfg) {cfg₁ cfg₂ : Config}
    (h₁ : Store.Sealed deps.seals deps.stateDir w₁.store cfg₁)
    (h₂ : Store.Sealed deps.seals deps.stateDir w₂.store cfg₂) (hsame : cfg₁.redact = cfg₂.redact) :
    BothDaemon deps (listRows deps peer action rows) (listRows deps peer action rows)
      SameResponse w₁ w₂ := by
  apply both_bind (loadConfig_both h₁ h₂ hsame)
  intro r₁ r₂ w₁' w₂' halike
  cases r₁ with
  | error e₁ =>
    cases r₂ with
    | ok _ => exact halike.elim
    | error e₂ =>
      obtain rfl : e₁ = e₂ := halike
      exact emit_both _ _
  | ok c₁ =>
    cases r₂ with
    | error e => exact halike.elim
    | ok c₂ =>
      have hredact : c₁.redact = c₂.redact := halike
      have heq : rows c₁ = rows c₂ := by rw [← hrows, hredact, hrows]
      dsimp only
      rw [heq]
      exact emit_both _ _

/-! ## Rebuilding an environment -/

theorem orContext_both {context : String} {r₁ : Except String α₁} {r₂ : Except String α₂}
    (h : SameOutcome r₁ r₂) :
    BothDaemon deps (orContext context r₁) (orContext context r₂) (fun _ _ _ _ => True) w₁ w₂ :=
  both_ofExcept h.mapError

theorem openBastion_both {name : String} {b₁ b₂ : Bastion} :
    BothDaemon deps (openBastion deps false name b₁) (openBastion deps false name b₂)
      (fun r₁ r₂ _ _ => SameOutcome r₁ r₂) w₁ w₂ :=
  ask_both (fun _ _ _ _ h => h.2) (fun _ _ _ _ h => h.2) fun _ _ => rfl

theorem startForward_both {session₁ session₂ : BastionSession} {host₁ host₂ : String}
    {port₁ port₂ : UInt16} :
    BothDaemon deps (ask (.startForward session₁ host₁ port₁))
      (ask (.startForward session₂ host₂ port₂)) (fun r₁ r₂ _ _ => SameOutcome r₁ r₂) w₁ w₂ :=
  ask_both (fun _ _ _ _ h => h.2) (fun _ _ _ _ h => h.2) fun _ _ => rfl

theorem buildBackend_both {engine : EngineKind} {opts₁ opts₂ : BackendOpts} {maxSize : UInt32} :
    BothDaemon deps (ask (.buildBackend engine opts₁ maxSize))
      (ask (.buildBackend engine opts₂ maxSize)) (fun r₁ r₂ _ _ => SameOutcome r₁ r₂) w₁ w₂ :=
  ask_both (fun _ _ _ _ h => h.2) (fun _ _ _ _ h => h.2) fun _ _ => rfl

theorem publish_both {name : String} {runtime₁ runtime₂ : EnvRuntime} :
    BothDaemon deps (ask (.publish name runtime₁)) (ask (.publish name runtime₂))
      (fun found₁ found₂ _ _ => found₁ = found₂) w₁ w₂ :=
  ask_both (fun _ _ _ _ h => h.2) (fun _ _ _ _ h => h.2) fun _ _ => rfl

variable {cfg₁ cfg₂ : Config}

theorem openTunnel_both {name : String} {env₁ env₂ : Env} {opts₁ opts₂ : BackendOpts}
    (hcfg : cfg₁.redact = cfg₂.redact) (henv : env₁.bastion = env₂.bastion) :
    BothDaemon deps (openTunnel deps false name env₁ cfg₁ opts₁)
      (openTunnel deps false name env₂ cfg₂ opts₂) (fun _ _ _ _ => True) w₁ w₂ := by
  unfold openTunnel
  rw [henv]
  cases env₂.bastion with
  | none => exact both_ok trivial
  | some bastionName =>
    rcases Config.bastion_of_redact hcfg bastionName with
      ⟨h₁, h₂⟩ | ⟨b₁, b₂, h₁, h₂, -⟩
    · simp only [h₁, h₂]
      exact both_err
    · simp only [h₁, h₂]
      apply both_bind openBastion_both
      intro r₁ r₂ _ _ hopen
      apply both_bind (orContext_both hopen)
      intro session₁ session₂ _ _ _
      apply both_bind startForward_both
      intro r₁ r₂ _ _ hforward
      apply both_bind (orContext_both hforward)
      intro port₁ port₂ _ _ _
      exact both_ok trivial

theorem establishBackend_both {name : String} {env₁ env₂ : Env}
    (hcfg : cfg₁.redact = cfg₂.redact) (henv : env₁.redact = env₂.redact) :
    BothDaemon deps (establishBackend deps false name env₁ cfg₁)
      (establishBackend deps false name env₂ cfg₂) (fun _ _ _ _ => True) w₁ w₂ := by
  obtain ⟨auth, rfl⟩ := Env.fields_of_redact henv
  unfold establishBackend
  dsimp only
  rcases Config.credential_of_redact hcfg env₁.credential with
    ⟨h₁, h₂⟩ | ⟨c₁, c₂, h₁, h₂, -⟩
  · simp only [h₁, h₂]
    exact both_err
  · simp only [h₁, h₂]
    apply both_bind (openTunnel_both hcfg rfl)
    intro tunnel₁ tunnel₂ _ _ _
    apply both_bind buildBackend_both
    intro r₁ r₂ _ _ hbuild
    apply both_bind (orContext_both hbuild)
    intro pool₁ pool₂ _ _ _
    exact both_ok trivial

theorem buildEnvRuntime_both {name : String} {env₁ env₂ : Env}
    (hcfg : cfg₁.redact = cfg₂.redact) (henv : env₁.redact = env₂.redact) :
    BothDaemon deps (buildEnvRuntime deps name env₁ cfg₁) (buildEnvRuntime deps name env₂ cfg₂)
      (fun _ _ _ _ => True) w₁ w₂ := by
  have hport : env₁.listenPort = env₂.listenPort := by
    obtain ⟨auth, rfl⟩ := Env.fields_of_redact henv
    rfl
  apply both_bind (establishBackend_both hcfg henv)
  intro built₁ built₂ _ _ _
  dsimp only
  rw [hport]
  cases deps.parseSocketAddr (deps.listenHost ++ ":" ++ toString env₂.listenPort.toNat) with
  | error e => exact both_err
  | ok addr => exact both_ok trivial

theorem applyRebuildBackend_both {name : String} {env₁ env₂ : Env}
    (hcfg : cfg₁.redact = cfg₂.redact) (henv : env₁.redact = env₂.redact) :
    BothDaemon deps (applyRebuildBackend deps cfg₁ env₁ name)
      (applyRebuildBackend deps cfg₂ env₂ name) (fun _ _ _ _ => True) w₁ w₂ := by
  apply both_bind (buildEnvRuntime_both hcfg henv)
  intro runtime₁ runtime₂ _ _ _
  apply both_bind publish_both
  intro found₁ found₂ _ _ hfound
  obtain rfl : found₁ = found₂ := hfound
  cases found₁ with
  | false => exact both_err
  | true => exact both_ok trivial

/-- The loop stops at the same environment with the same text. -/
theorem rebuildEnvs_both (hcfg : cfg₁.redact = cfg₂.redact) (names : List String) :
    BothDaemon deps (rebuildEnvs deps cfg₁ names) (rebuildEnvs deps cfg₂ names)
      (fun failed₁ failed₂ _ _ => failed₁ = failed₂) w₁ w₂ := by
  induction names generalizing w₁ w₂ with
  | nil => exact both_ok rfl
  | cons name rest ih =>
    unfold rebuildEnvs
    rcases Config.env_of_redact hcfg name with ⟨h₁, h₂⟩ | ⟨env₁, env₂, h₁, h₂, henv⟩
    · simp only [h₁, h₂]
      exact ih
    · simp only [h₁, h₂]
      apply both_bind (applyRebuildBackend_both hcfg henv).attempt
      intro r₁ r₂ w₁' w₂' halike
      cases r₁ with
      | ok _ =>
        cases r₂ with
        | ok _ => exact ih
        | error e => exact halike.elim
      | error e₁ =>
        cases r₂ with
        | ok _ => exact halike.elim
        | error e₂ =>
          obtain rfl : e₁ = e₂ := halike
          exact both_ok rfl

theorem rotateCredReq_both (hseals : deps.seals.Lawful) {peer : PeerIdentity}
    {name p₁ p₂ : String}
    (hseal : ∀ cfg, w.stored deps = some cfg → Store.SealAlike deps.seals w.store.key
      ((Mutate.rotateCred deps.mutate name p₁).exec cfg).2
      ((Mutate.rotateCred deps.mutate name p₂).exec cfg).2) :
    BothDaemon deps (rotateCredReq deps peer name p₁) (rotateCredReq deps peer name p₂)
      SameResponse w w := by
  have hhides : Mutate.HidesSecret ((Mutate.Change.rotateCred name p₁).run deps.mutate)
      ((Mutate.Change.rotateCred name p₂).run deps.mutate) :=
    Mutate.rotateCred_hides deps.mutate name p₁ p₂
  apply both_bind (persist_both hseals hhides hseal)
  intro r₁ r₂ w₁ w₂ hpersisted
  cases r₁ with
  | error e₁ =>
    cases r₂ with
    | ok _ => exact hpersisted.elim
    | error e₂ =>
      obtain rfl : e₁ = e₂ := hpersisted
      exact emit_both _ _
  | ok _ =>
    cases r₂ with
    | error e => exact hpersisted.elim
    | ok _ =>
      obtain ⟨cfg₁, cfg₂, hstored₁, hstored₂, hsame⟩ := hpersisted
      apply both_bind (loadConfig_both (Store.sealed_of_stored hstored₁)
        (Store.sealed_of_stored hstored₂) hsame)
      intro r₁ r₂ w₁' w₂' hloaded
      cases r₁ with
      | error e₁ =>
        cases r₂ with
        | ok _ => exact hloaded.elim
        | error e₂ =>
          obtain rfl : e₁ = e₂ := hloaded
          exact emit_both _ _
      | ok c₁ =>
        cases r₂ with
        | error e => exact hloaded.elim
        | ok c₂ =>
          have hredact : c₁.redact = c₂.redact := hloaded
          have haffected : Mutate.usersOf c₁ (fun e => e.credential == name) =
              Mutate.usersOf c₂ fun e => e.credential == name := by
            rw [← Config.usersOf_redact _ fun _ => rfl, hredact, Config.usersOf_redact _ fun _ => rfl]
          dsimp only
          rw [haffected]
          apply both_bind (rebuildEnvs_both hredact _)
          intro failed₁ failed₂ _ _ hfailed
          obtain rfl : failed₁ = failed₂ := hfailed
          cases failed₁ with
          | none => exact emit_both _ _
          | some failure => exact emit_both _ _

end

/-! ## What the channel says -/

theorem bastionRow_redact (name : String) (b : Bastion) : bastionRow name b.redact = bastionRow name b := by
  unfold bastionRow Bastion.redact
  cases b.auth <;> rfl

/-- A listing made entry by entry from what the secrets leave. -/
theorem rows_redact {α : Type} (redact' : α → α) (row : String → α → String) (t : Table α)
    (hrow : ∀ name a, row name (redact' a) = row name a) :
    (t.map fun _ => redact').toList.map (fun e => row e.1 e.2) = t.toList.map fun e => row e.1 e.2 := by
  rw [Std.ExtTreeMap.toList_map, List.map_map]
  congr 1
  funext e
  exact hrow e.1 e.2

/-- A request that reads the configuration out. -/
inductive Listing : Request → Prop
  | bastions : Listing .listBastions
  | creds : Listing .listCreds
  | envs : Listing .listEnvs

/-- Two requests that differ in the secret they carry, and in nothing else. -/
inductive SameButSecret : Request → Request → Prop
  | addBastion (dto : BastionInputDto) {auth : Mutate.BastionAuthInput} : dto.auth.SameKind auth →
      SameButSecret (.addBastion dto) (.addBastion { dto with auth := auth })
  | addCred (dto : CredInputDto) (password : String) :
      SameButSecret (.addCred dto) (.addCred { dto with password := password })
  | rotateCred (name p₁ p₂ : String) : SameButSecret (.rotateCred name p₁) (.rotateCred name p₂)

/-- What the handler of a request that carries a secret persists. -/
def Request.change : Request → Option Mutate.Change
  | .addBastion dto =>
    some (.addBastion ⟨dto.name, dto.host, dto.port, dto.sshUser, dto.auth, dto.fingerprint⟩)
  | .addCred dto => some (.addCred dto.name dto.backendUser dto.password)
  | .rotateCred name password => some (.rotateCred name password)
  | _ => none

/-- The step that seals the changed configuration has the same outcome for both requests. -/
def SealingAgrees (deps : DaemonDeps) (w : World) (req₁ req₂ : Request) : Prop :=
  ∀ cfg change₁ change₂, w.stored deps = some cfg → req₁.change = some change₁ →
    req₂.change = some change₂ → Store.SealAlike deps.seals w.store.key
      ((change₁.run deps.mutate).exec cfg).2 ((change₂.run deps.mutate).exec cfg).2

/-- Runs of the two requests whose steps have the same outcomes emit the same events and end with
the same response. -/
def SameOutputs (deps : DaemonDeps) (peer : PeerIdentity) (req₁ req₂ : Request) (w₁ w₂ : World) :
    Prop :=
  ∀ l₁ out₁ w₁' l₂ out₂ w₂', Recorded (recordedSem deps) (dispatch deps peer req₁) w₁ l₁ out₁ w₁' →
    Recorded (recordedSem deps) (dispatch deps peer req₂) w₂ l₂ out₂ w₂' →
    Aligned OutcomesAgree l₁ l₂ → emitted l₁ = emitted l₂ ∧ out₁ = out₂

theorem sameOutputs_of_both {deps : DaemonDeps} {peer : PeerIdentity} {req₁ req₂ : Request}
    {w₁ w₂ : World} (h : BothDaemon deps (dispatch deps peer req₁) (dispatch deps peer req₂)
      SameResponse w₁ w₂) : SameOutputs deps peer req₁ req₂ w₁ w₂ := by
  intro l₁ out₁ w₁' l₂ out₂ w₂' h₁ h₂ hE
  obtain ⟨hemit, hends⟩ := h _ _ _ _ _ _ h₁ h₂ hE
  exact ⟨emitted_eq_of_alike hemit, hends.eq⟩

/-- Listings of two configurations that differ in secrets say the same, and so do two requests
that differ in the secret they carry, made in one state of the daemon. -/
theorem secrets_stay_inside (deps : DaemonDeps) (hseals : deps.seals.Lawful) (peer : PeerIdentity) :
    (∀ (req : Request) (w₁ w₂ : World) (cfg₁ cfg₂ : Config), Listing req →
      Store.Sealed deps.seals deps.stateDir w₁.store cfg₁ →
      Store.Sealed deps.seals deps.stateDir w₂.store cfg₂ → cfg₁.redact = cfg₂.redact →
      SameOutputs deps peer req req w₁ w₂) ∧
    ∀ (req₁ req₂ : Request) (w : World), SameButSecret req₁ req₂ → SealingAgrees deps w req₁ req₂ →
      SameOutputs deps peer req₁ req₂ w w := by
  constructor
  · intro req w₁ w₂ cfg₁ cfg₂ hreq h₁ h₂ hsame
    apply sameOutputs_of_both
    cases hreq with
    | bastions =>
      exact listRows_both (fun cfg => rows_redact Bastion.redact bastionRow cfg.bastions
        bastionRow_redact) h₁ h₂ hsame
    | creds =>
      exact listRows_both (fun cfg => rows_redact Credential.redact
        (fun name c => name ++ "\t" ++ c.backendUser) cfg.credentials fun _ _ => rfl) h₁ h₂ hsame
    | envs =>
      exact listRows_both (fun cfg => rows_redact Env.redact envRow cfg.envs fun _ _ => rfl)
        h₁ h₂ hsame
  · intro req₁ req₂ w hreq hseal
    apply sameOutputs_of_both
    cases hreq with
    | addBastion dto hauth =>
      exact simpleMutation_both hseals (Mutate.addBastion_hides deps.mutate _ hauth)
        fun cfg hcfg => hseal cfg _ _ hcfg rfl rfl
    | addCred dto password =>
      exact simpleMutation_both hseals (Mutate.addCred_hides deps.mutate _ _ _ _)
        fun cfg hcfg => hseal cfg _ _ hcfg rfl rfl
    | rotateCred name p₁ p₂ =>
      exact rotateCredReq_both hseals fun cfg hcfg => hseal cfg _ _ hcfg rfl rfl

/-- The sample configuration with another backend password. -/
def rotatedConfig (password : String) : Config :=
  { sampleConfig with credentials := sampleConfig.credentials.insert "c" ⟨"u", password⟩ }

def rotatedConfigs : List Config := [sampleConfig, rotatedConfig "old", rotatedConfig "new"]

def samplePeer : PeerIdentity := ⟨some 0, some 0, "root"⟩

theorem rotatedConfigs_schema : ∀ cfg ∈ rotatedConfigs, cfg.schemaVersion = 2 := by
  simp [rotatedConfigs, rotatedConfig, sampleConfig]
  rfl

theorem sealed_rotated {cfg : Config} (hmem : cfg ∈ rotatedConfigs) (hvalid : cfg.Valid) :
    (idleWorld (storeOf rotatedConfigs cfg)).stored (sampleDaemon rotatedConfigs) = some cfg :=
  stored_storeOf rotatedConfigs_schema hmem hvalid

theorem exec_rotateCred (password : String) :
    (Mutate.rotateCred Store.sampleMutateDeps "c" password).exec sampleConfig =
      (.ok (), rotatedConfig password) := by
  have hcred : sampleConfig.credentials["c"]? = some ⟨"u", "pw"⟩ := by rfl
  unfold Mutate.rotateCred
  simp only [Transform.exec_bind, Transform.exec_get, hcred]
  rfl

/-- The credentials of two stores with different passwords read alike, and rotating to one
password or another says the same. -/
theorem secrets_stay_inside_sample :
    SameOutputs (sampleDaemon rotatedConfigs) samplePeer .listCreds .listCreds
      (idleWorld (storeOf rotatedConfigs (rotatedConfig "old")))
      (idleWorld (storeOf rotatedConfigs (rotatedConfig "new"))) ∧
    SameOutputs (sampleDaemon rotatedConfigs) samplePeer (.rotateCred "c" "old")
      (.rotateCred "c" "new") (idleWorld (storeOf rotatedConfigs sampleConfig))
      (idleWorld (storeOf rotatedConfigs sampleConfig)) := by
  have hlawful : (sampleDaemon rotatedConfigs).seals.Lawful :=
    Store.listedSeals_lawful rotatedConfigs_schema
  have hold : rotatedConfig "old" ∈ rotatedConfigs := by simp [rotatedConfigs]
  have hnew : rotatedConfig "new" ∈ rotatedConfigs := by simp [rotatedConfigs]
  obtain ⟨hlist, hrotate⟩ := secrets_stay_inside (sampleDaemon rotatedConfigs) hlawful samplePeer
  constructor
  · apply hlist .listCreds _ _ (rotatedConfig "old") (rotatedConfig "new") .creds
    · exact Store.sealed_of_stored (sealed_rotated hold (by decide))
    · exact Store.sealed_of_stored (sealed_rotated hnew (by decide))
    · unfold rotatedConfig
      rw [Config.redact_insertCredential, Config.redact_insertCredential]
      rfl
  · apply hrotate _ _ _ (.rotateCred "c" "old" "new")
    intro cfg change₁ change₂ hcfg h₁ h₂ salt nonce
    have hstored := sealed_rotated (List.mem_cons_self : sampleConfig ∈ rotatedConfigs) (by decide)
    obtain rfl : cfg = sampleConfig := Option.some.inj (hcfg.symm.trans hstored)
    obtain rfl := Option.some.inj h₁
    obtain rfl := Option.some.inj h₂
    obtain ⟨blob₁, hblob₁⟩ := Store.listedSeals_seals hold Store.sampleKey salt nonce
    obtain ⟨blob₂, hblob₂⟩ := Store.listedSeals_seals hnew Store.sampleKey salt nonce
    change SameOutcome
      ((Store.listedSeals rotatedConfigs).seal salt nonce
        ((Mutate.rotateCred Store.sampleMutateDeps "c" "old").exec sampleConfig).2 Store.sampleKey [])
      ((Store.listedSeals rotatedConfigs).seal salt nonce
        ((Mutate.rotateCred Store.sampleMutateDeps "c" "new").exec sampleConfig).2 Store.sampleKey [])
    rw [exec_rotateCred, exec_rotateCred, hblob₁, hblob₂]
    trivial

end MiddleWhere.Daemon
