import MiddleWhere.Daemon.World
import MiddleWhere.Effects.Keeps

/-!
# One accept loop for each live environment

`Wired` ties the table of live environments to the accept loops that run. Most operations do
not touch either; an addition and a removal are each a few operations that keep the tie when
they are done. Between requests every live name is also a name of the stored configuration.
-/

namespace MiddleWhere.Daemon
open Prog

variable {deps : DaemonDeps} {w w' : World} {name : String}

def World.loopOf (w : World) (name : String) : Option LoopId := (w.live[name]?).map Handle.loop

def World.Configured (deps : DaemonDeps) (w : World) (name : String) : Prop :=
  ∃ cfg, w.stored deps = some cfg ∧ name ∈ cfg.envs

/-- The loops that run are those that the table knows, and no handle was ever overwritten. -/
structure Wired (w : World) : Prop where
  loop_iff : ∀ id name, (id, name) ∈ w.loops ↔ w.loopOf name = some id
  nodup : (w.loops.map Prod.fst).Nodup
  kept : w.replaced = []

structure Registered (deps : DaemonDeps) (w : World) : Prop where
  wired : Wired w
  configured : ∀ name, w.loopOf name ≠ none → w.Configured deps name

theorem mem_live_iff : name ∈ w.live ↔ w.loopOf name ≠ none := by
  rw [Std.ExtTreeMap.mem_iff_isSome_getElem?, Option.isSome_iff_ne_none, World.loopOf]
  exact not_congr Option.map_eq_none_iff.symm

theorem Wired.name_eq (h : Wired w) {id : LoopId} {name' : String} (hname : w.loopOf name = some id)
    (hname' : w.loopOf name' = some id) : name = name' := by
  have hmem : (id, name) ∈ w.loops := (h.loop_iff id name).mpr hname
  have hmem' : (id, name') ∈ w.loops := (h.loop_iff id name').mpr hname'
  exact congrArg Prod.snd (List.inj_on_of_nodup_map h.nodup hmem hmem' rfl)

theorem Wired.loops_of (h : Wired w) {id : LoopId} (hname : w.loopOf name = some id) :
    (w.loops.filter fun l => l.2 = name) = [(id, name)] := by
  have hmem : ∀ l ∈ w.loops.filter (fun l => l.2 = name), l = (id, name) := by
    intro l hl
    obtain ⟨hrun, hsnd⟩ := List.mem_filter.mp hl
    have hsnd : l.2 = name := by simpa using hsnd
    have hid : w.loopOf name = some l.1 := hsnd ▸ (h.loop_iff l.1 l.2).mp hrun
    rw [hname, Option.some.injEq] at hid
    rw [hid, ← hsnd]
  have hnodup : (w.loops.filter fun l => l.2 = name).Nodup := h.nodup.of_map.filter _
  have hself : (id, name) ∈ w.loops.filter fun l => l.2 = name :=
    List.mem_filter.mpr ⟨(h.loop_iff id name).mpr hname, by simp⟩
  rw [List.eq_replicate_of_mem hmem] at hnodup hself ⊢
  have hle := List.nodup_replicate.mp hnodup
  have hpos : (w.loops.filter fun l => l.2 = name).length ≠ 0 := (List.mem_replicate.mp hself).1
  rw [show (w.loops.filter fun l => l.2 = name).length = 1 by omega]
  rfl

theorem stored_of_store (h : w'.store = w.store) : w'.stored deps = w.stored deps := by
  unfold World.stored
  rw [h]

/-! ## What leaves the table alone -/

/-- Nothing is stored, and no environment is added, stopped or moved to another loop. -/
structure Still (deps : DaemonDeps) (w w' : World) : Prop where
  stored : w'.stored deps = w.stored deps
  loops : w'.loops = w.loops
  replaced : w'.replaced = w.replaced
  loopOf : ∀ name, w'.loopOf name = w.loopOf name

theorem Still.refl (w : World) : Still deps w w := ⟨rfl, rfl, rfl, fun _ => rfl⟩

theorem Still.of_eq (h : w' = w) : Still deps w w' := h ▸ Still.refl w'

theorem Still.trans {w₁ w₂ w₃ : World} (h : Still deps w₁ w₂) (h' : Still deps w₂ w₃) :
    Still deps w₁ w₃ where
  stored := h'.stored.trans h.stored
  loops := h'.loops.trans h.loops
  replaced := h'.replaced.trans h.replaced
  loopOf name := (h'.loopOf name).trans (h.loopOf name)

theorem Still.wired (h : Still deps w w') (hw : Wired w) : Wired w' where
  loop_iff id name := by rw [h.loops, h.loopOf, hw.loop_iff]
  nodup := by rw [h.loops]; exact hw.nodup
  kept := h.replaced.trans hw.kept

theorem Still.registered (h : Still deps w w') (hw : Registered deps w) : Registered deps w' where
  wired := h.wired hw.wired
  configured name hname := by
    rw [h.loopOf] at hname
    unfold World.Configured
    rw [h.stored]
    exact hw.configured name hname

def DaemonOp.still : DaemonOp → Bool
  | .persist _ | .spawnLoop _ _ | .abortLoop _ | .insertEnv _ _ _ | .removeEnv _ => false
  | _ => true

/-- Calls nothing that could change the table. -/
abbrev StillProg {α : Type} (p : DaemonProg α) : Prop := p.Uses (DaemonOp.still · = true)

theorem loadConfig_step {r : Except Store.StateError Config}
    (h : daemonSem deps w .loadConfig r w') :
    w' = w ∧ ∀ cfg, r = .ok cfg → w.stored deps = some cfg := by
  obtain ⟨⟨t, hexec⟩, hw'⟩ := h
  obtain ⟨hstore, -, hcfg⟩ := Store.loadConfig_frame _ _ _ hexec
  rw [hstore] at hw'
  refine ⟨hw', fun cfg hr => ?_⟩
  subst hr
  exact hcfg cfg rfl

theorem publish_cases {runtime : EnvRuntime} {r : Bool}
    (h : daemonSem deps w (.publish name runtime) r w') :
    (w.live[name]? = none ∧ r = false ∧ w' = w) ∨
      ∃ handle, w.live[name]? = some handle ∧ r = true ∧
        w' = { w with live := w.live.insert name { handle with runtime := runtime } } := by
  simp only [daemonSem] at h
  cases hlive : w.live[name]? with
  | none =>
    rw [hlive] at h
    exact Or.inl ⟨rfl, h⟩
  | some handle =>
    rw [hlive] at h
    exact Or.inr ⟨handle, rfl, h⟩

theorem publish_still {runtime : EnvRuntime} {r : Bool}
    (h : daemonSem deps w (.publish name runtime) r w') : Still deps w w' := by
  rcases publish_cases h with ⟨-, -, rfl⟩ | ⟨handle, hlive, -, rfl⟩
  · exact Still.refl _
  · refine ⟨rfl, rfl, rfl, fun n => ?_⟩
    unfold World.loopOf
    rw [Std.ExtTreeMap.getElem?_insert]
    by_cases hn : name = n
    · subst hn
      simp [hlive]
    · simp [hn]

theorem still_step {o : DaemonOp} {r : o.Res} (ho : o.still = true) (h : daemonSem deps w o r w') :
    Still deps w w' := by
  cases o with
  | persist change => cases ho
  | spawnLoop runtime listener => cases ho
  | abortLoop loop => cases ho
  | insertEnv name runtime loop => cases ho
  | removeEnv name => cases ho
  | loadConfig => exact .of_eq (loadConfig_step h).1
  | publish name runtime => exact publish_still h
  | getOrOpen name bastion allowTofu =>
    simp only [daemonSem] at h
    split at h
    · exact .of_eq h.2
    · rcases h with ⟨e, -, rfl⟩ | ⟨s, -, -, rfl⟩
      · exact Still.refl _
      · exact ⟨rfl, rfl, rfl, fun _ => rfl⟩
  | openFresh name bastion allowTofu => exact .of_eq h.1
  | evict name => exact h.2 ▸ ⟨rfl, rfl, rfl, fun _ => rfl⟩
  | buildBackend engine opts maxSize => exact .of_eq h.1
  | hasEnv name => exact .of_eq h.2
  | currentRuntime name => exact .of_eq h.2
  | randomBytes len => exact .of_eq h
  | emit event => exact .of_eq h
  | startForward session host port => exact .of_eq h
  | probeBackend engine backend => exact .of_eq h
  | bindListener addr => exact .of_eq h
  | auditDirExists => exact .of_eq h
  | readAuditDir => exact .of_eq h
  | readAuditFile name => exact .of_eq h

theorem still_of_uses {α : Type} {p : DaemonProg α} (hp : StillProg p) (w : World) :
    wp (settledSem deps) p (fun _ _ w' => Still deps w w') w :=
  related_of_uses Still.refl (fun _ _ _ => Still.trans) (fun _ _ _ _ ho hM => still_step ho hM.1) hp w

/-! ## Programs that leave the table alone -/

/-- Only SSH sessions are opened. -/
structure Builds (w w' : World) : Prop where
  same : w' = { w with sessions := w'.sessions }
  opened : ∀ (name : String) (session : BastionSession), w.sessions[name]? = some session →
    w'.sessions[name]? = some session

theorem Builds.refl (w : World) : Builds w w := ⟨rfl, fun _ _ h => h⟩

theorem Builds.of_eq (h : w' = w) : Builds w w' := h ▸ Builds.refl w'

theorem Builds.trans {w₁ w₂ w₃ : World} (h : Builds w₁ w₂) (h' : Builds w₂ w₃) : Builds w₁ w₃ where
  same := by rw [h'.same, h.same]
  opened name session hs := h'.opened name session (h.opened name session hs)

def DaemonOp.building : DaemonOp → Bool
  | .getOrOpen _ _ _ | .openFresh _ _ _ | .startForward _ _ _ | .buildBackend _ _ _
  | .probeBackend _ _ => true
  | _ => false

abbrev BuildProg {α : Type} (p : DaemonProg α) : Prop := p.Uses (DaemonOp.building · = true)

theorem getOrOpen_builds {bastion : Bastion} {allowTofu : Bool} {r : Except String BastionSession}
    (h : daemonSem deps w (.getOrOpen name bastion allowTofu) r w') : Builds w w' := by
  simp only [daemonSem] at h
  cases hopen : w.sessions[name]? with
  | some session =>
    rw [hopen] at h
    exact .of_eq h.2
  | none =>
    rw [hopen] at h
    rcases h with ⟨e, -, rfl⟩ | ⟨session, -, -, rfl⟩
    · exact Builds.refl _
    · refine ⟨rfl, fun n s hs => ?_⟩
      have hne : name ≠ n := by
        rintro rfl
        rw [hopen] at hs
        cases hs
      exact Tables.getElem?_insert_eq_some.mpr (Or.inr ⟨hne, hs⟩)

theorem builds_step {o : DaemonOp} {r : o.Res} (ho : o.building = true)
    (h : daemonSem deps w o r w') : Builds w w' := by
  cases o with
  | getOrOpen name bastion allowTofu => exact getOrOpen_builds h
  | openFresh name bastion allowTofu => exact .of_eq h.1
  | startForward session host port => exact .of_eq h
  | buildBackend engine opts maxSize => exact .of_eq h.1
  | probeBackend engine backend => exact .of_eq h
  | _ => cases ho

theorem builds_of_uses {α : Type} {p : DaemonProg α} (hp : BuildProg p) (w : World) :
    wp (daemonSem deps) p (fun _ _ w' => Builds w w') w :=
  related_of_uses Builds.refl (fun _ _ _ => Builds.trans) (fun _ _ _ _ ho hM => builds_step ho hM) hp w

theorem BuildProg.still {α : Type} {p : DaemonProg α} (hp : BuildProg p) : StillProg p :=
  uses_mono (fun o ho => by cases o <;> first | rfl | cases ho) hp

theorem ask_still {o : DaemonOp} (ho : o.still = true) : StillProg (ask o) :=
  ⟨ho, fun _ => uses_halt _⟩

theorem ask_builds {o : DaemonOp} (ho : o.building = true) : BuildProg (ask o) :=
  ⟨ho, fun _ => uses_halt _⟩

theorem orContext_builds {α : Type} (context : String) (r : Except String α) :
    BuildProg (orContext context r) :=
  uses_ofExcept _

section
variable (deps)

theorem openBastion_builds (fresh : Bool) (name : String) (bastion : Bastion) :
    BuildProg (openBastion deps fresh name bastion) := by
  cases fresh with
  | true => exact ask_builds rfl
  | false => exact ask_builds rfl

theorem openTunnel_builds (fresh : Bool) (name : String) (env : Env) (cfg : Config)
    (opts : BackendOpts) : BuildProg (openTunnel deps fresh name env cfg opts) := by
  unfold openTunnel
  cases env.bastion with
  | none => exact uses_halt _
  | some bastionName =>
    dsimp only
    cases cfg.bastions[bastionName]? with
    | none => exact uses_halt _
    | some bastion =>
      apply uses_bind (openBastion_builds deps fresh bastionName bastion)
      intro opened
      apply uses_bind (orContext_builds _ _)
      intro session
      refine uses_bind (ask_builds rfl) fun answer => ?_
      exact uses_bind (orContext_builds _ _) fun _ => uses_halt _

theorem establishBackend_builds (fresh : Bool) (name : String) (env : Env) (cfg : Config) :
    BuildProg (establishBackend deps fresh name env cfg) := by
  unfold establishBackend
  cases cfg.credentials[env.credential]? with
  | none => exact uses_halt _
  | some cred =>
    apply uses_bind (openTunnel_builds deps fresh name env cfg _)
    intro tunnel
    refine uses_bind (ask_builds rfl) fun answer => ?_
    exact uses_bind (orContext_builds _ _) fun _ => uses_halt _

theorem buildEnvRuntime_builds (name : String) (env : Env) (cfg : Config) :
    BuildProg (buildEnvRuntime deps name env cfg) := by
  apply uses_bind (establishBackend_builds deps false name env cfg)
  intro built
  exact uses_bind (orContext_builds _ _) fun _ => uses_halt _

theorem swapRuntime_still (name : String) (mutate : EnvRuntime → EnvRuntime) :
    StillProg (swapRuntime name mutate) := by
  refine uses_bind (ask_still rfl) fun current => ?_
  cases current with
  | none => exact uses_halt _
  | some runtime => exact uses_bind (ask_still rfl) fun _ => uses_halt _

theorem applyRebuildBackend_still (cfg : Config) (env : Env) (name : String) :
    StillProg (applyRebuildBackend deps cfg env name) := by
  apply uses_bind (buildEnvRuntime_builds deps name env cfg).still
  intro runtime
  refine uses_bind (ask_still rfl) fun published => ?_
  cases published with
  | true => exact uses_halt _
  | false => exact uses_halt _

theorem rebuildEnvs_still (cfg : Config) (names : List String) :
    StillProg (rebuildEnvs deps cfg names) := by
  induction names with
  | nil => exact uses_halt _
  | cons name rest ih =>
    unfold rebuildEnvs
    cases cfg.envs[name]? with
    | none => exact ih
    | some env =>
      refine uses_bind (uses_attempt (applyRebuildBackend_still deps cfg env name)) fun rebuilt => ?_
      cases rebuilt with
      | ok _ => exact ih
      | error e => exact uses_halt _

theorem probeOneEnv_still (cfg : Config) (name : String) :
    StillProg (probeOneEnv deps cfg name) := by
  unfold probeOneEnv
  cases cfg.envs[name]? with
  | none => exact uses_halt _
  | some env =>
    by_cases hengine : env.engine = .msSql
    · simp only [if_pos hengine]
      exact uses_halt _
    · simp only [if_neg hengine]
      have hprobe : StillProg (probeBackend deps name env cfg) := by
        apply uses_bind (establishBackend_builds deps true name env cfg).still
        intro built
        exact uses_bind (ask_still rfl) fun answer => uses_ofExcept answer
      refine uses_bind (uses_attempt hprobe) fun result => ?_
      cases result with
      | ok _ => exact uses_halt _
      | error e => exact uses_halt _

theorem probeEnvs_still (cfg : Config) (names : List String) :
    StillProg (probeEnvs deps cfg names) := by
  induction names with
  | nil => exact uses_halt _
  | cons name rest ih =>
    refine uses_bind (probeOneEnv_still deps cfg name) fun result => ?_
    exact uses_bind ih fun results => uses_halt _

end

/-! ## Additions and removals -/

/-- Beyond the names of `added`, nothing is stored and no environment is added or stopped. -/
structure Adds (deps : DaemonDeps) (added : List String) (w w' : World) : Prop where
  wired : Wired w'
  stored : w'.stored deps = w.stored deps
  frame : ∀ name, name ∉ added → w'.loopOf name = w.loopOf name

theorem Still.adds (h : Still deps w w') (hw : Wired w) (added : List String) : Adds deps added w w' where
  wired := h.wired hw
  stored := h.stored
  frame name _ := h.loopOf name

theorem buildEnvRuntime_spec {env : Env} {cfg : Config} (w : World) :
    wp (settledSem deps) (buildEnvRuntime deps name env cfg)
      (fun _ out w' => Still deps w w' ∧ ∀ runtime, out = .ok runtime → runtime.name = name) w := by
  refine wp_and (still_of_uses (buildEnvRuntime_builds deps name env cfg).still w) ?_
  refine wp_bind.mpr fun t out w₁ _ => ?_
  cases out with
  | err e => exact nofun
  | panic => exact nofun
  | ok built =>
    refine wp_bind.mpr fun t' out w₂ _ => ?_
    cases out with
    | err e => exact nofun
    | panic => exact nofun
    | ok addr =>
      refine wp_halt.mpr fun runtime hrt => ?_
      cases hrt
      rfl

theorem loopOf_insert {handle : Handle} (h : w'.live = w.live.insert name handle) (n : String) :
    w'.loopOf n = if name = n then some handle.loop else w.loopOf n := by
  unfold World.loopOf
  rw [h, Std.ExtTreeMap.getElem?_insert]
  by_cases hn : name = n
  · simp [hn]
  · simp [hn]

theorem loopOf_erase (h : w'.live = w.live.erase name) (n : String) :
    w'.loopOf n = if name = n then none else w.loopOf n := by
  unfold World.loopOf
  rw [h, Std.ExtTreeMap.getElem?_erase]
  by_cases hn : name = n
  · simp [hn]
  · simp [hn]

/-- A fresh loop that serves a name which has none. -/
theorem Wired.insert {handle : Handle} (hw : Wired w) (hfree : w.loopOf name = none)
    (hid : handle.loop ∉ w.loops.map Prod.fst) (hlive : w'.live = w.live.insert name handle)
    (hloops : w'.loops = (handle.loop, name) :: w.loops) (hkept : w'.replaced = w.replaced) :
    Wired w' where
  loop_iff id n := by
    rw [loopOf_insert hlive, hloops, List.mem_cons, hw.loop_iff]
    by_cases hn : name = n
    · subst hn
      simp [hfree, eq_comm]
    · have hne : ¬ n = name := fun h => hn h.symm
      simp [hn, hne]
  nodup := by rw [hloops]; exact List.nodup_cons.mpr ⟨hid, hw.nodup⟩
  kept := hkept.trans hw.kept

theorem Wired.erase {loop : LoopId} (hw : Wired w) (hname : w.loopOf name = some loop)
    (hlive : w'.live = w.live.erase name)
    (hloops : w'.loops = w.loops.filter fun l => l.1 ≠ loop) (hkept : w'.replaced = w.replaced) :
    Wired w' where
  loop_iff id n := by
    have hmem : (id, n) ∈ w'.loops ↔ w.loopOf n = some id ∧ id ≠ loop := by
      simp [hloops, List.mem_filter, hw.loop_iff]
    rw [hmem, loopOf_erase hlive]
    by_cases hn : name = n
    · subst hn
      simp only [hname, if_true, reduceCtorEq, iff_false, not_and, not_not]
      exact fun h => (Option.some.inj h).symm
    · simp only [if_neg hn, and_iff_left_iff_imp]
      intro hid heq
      exact hn (hw.name_eq hname (heq ▸ hid))
  nodup := by
    rw [hloops]
    exact List.Nodup.sublist (List.filter_sublist.map _) hw.nodup
  kept := hkept.trans hw.kept

theorem serveRuntime_adds {runtime : EnvRuntime} (hname : runtime.name = name) (hw : Wired w)
    (hfree : w.loopOf name = none) :
    wp (settledSem deps) (serveRuntime name runtime) (fun _ _ w' => Adds deps [name] w w') w := by
  refine wp_call.mpr fun answer w₁ hbind => ?_
  obtain rfl : w₁ = w := hbind.1
  cases answer with
  | error e => exact wp_halt.mpr ((Still.refl w₁).adds hw _)
  | ok listener =>
    refine wp_call.mpr fun id w₂ hspawn => wp_call.mpr fun _ w₃ hinsert => wp_halt.mpr ?_
    obtain ⟨hid, hw₂⟩ := hspawn.1
    have hw₃ : w₃ = _ := hinsert.1
    have hlive : w₃.live = w₁.live.insert name ⟨runtime, id⟩ := by rw [hw₃, hw₂]
    have hnot : name ∉ w₁.live := fun h => mem_live_iff.mp h hfree
    refine ⟨hw.insert hfree hid hlive ?_ ?_, ?_, fun n hn => ?_⟩
    · rw [hw₃, hw₂, hname]
    · rw [hw₃, hw₂]
      simp [hnot]
    · exact stored_of_store (by rw [hw₃, hw₂])
    · rw [loopOf_insert hlive, if_neg]
      intro h
      simp [h] at hn

theorem applyAddEnv_adds {cfg : Config} {env : Env} (hw : Wired w) (hfree : w.loopOf name = none) :
    wp (settledSem deps) (applyAddEnv deps cfg env name) (fun _ _ w' => Adds deps [name] w w') w := by
  refine wp_bind.mpr (wp_mono (buildEnvRuntime_spec w) ?_)
  intro t out w₁ hbuilt
  obtain ⟨hstill, hname⟩ := hbuilt
  cases out with
  | err e => exact hstill.adds hw _
  | panic => exact hstill.adds hw _
  | ok runtime =>
    have hfree₁ : w₁.loopOf name = none := by rw [hstill.loopOf, hfree]
    refine wp_mono (serveRuntime_adds (hname runtime rfl) (hstill.wired hw) hfree₁) ?_
    intro t' out' w₂ hadds
    exact ⟨hadds.wired, hadds.stored.trans hstill.stored,
      fun n hn => (hadds.frame n hn).trans (hstill.loopOf n)⟩

/-- One loop of additions goes on from what the first has left. -/
theorem Adds.cons {rest : List String} {w₁ w₂ : World} (h : Adds deps [name] w w₁)
    (h' : Adds deps rest w₁ w₂) : Adds deps (name :: rest) w w₂ where
  wired := h'.wired
  stored := h'.stored.trans h.stored
  frame n hn := by
    rw [List.mem_cons, not_or] at hn
    rw [h'.frame n hn.2, h.frame n (by simpa using hn.1)]

theorem Adds.mono {added added' : List String} (h : Adds deps added w w') (hsub : added ⊆ added') :
    Adds deps added' w w' :=
  ⟨h.wired, h.stored, fun n hn => h.frame n fun hmem => hn (hsub hmem)⟩

theorem addEnvs_adds (cfg : Config) {names : List String} (hnodup : names.Nodup) (hw : Wired w)
    (hfree : ∀ n ∈ names, w.loopOf n = none) :
    wp (settledSem deps) (addEnvs deps cfg names) (fun _ _ w' => Adds deps names w w') w := by
  induction names generalizing w with
  | nil => exact wp_halt.mpr ((Still.refl w).adds hw _)
  | cons name rest ih =>
    obtain ⟨hname, hrest⟩ := List.nodup_cons.mp hnodup
    rw [List.forall_mem_cons] at hfree
    unfold addEnvs
    cases cfg.envs[name]? with
    | none => exact wp_mono (ih hrest hw hfree.2) fun _ _ _ h => h.mono (List.subset_cons_self ..)
    | some env =>
      refine wp_bind.mpr (wp_attempt.mpr (wp_mono (applyAddEnv_adds hw hfree.1) ?_))
      intro t out w₁ hadds
      have hnext : wp (settledSem deps) (addEnvs deps cfg rest)
          (fun _ _ w' => Adds deps (name :: rest) w w') w₁ := by
        have hfree₁ : ∀ n ∈ rest, w₁.loopOf n = none := by
          intro n hn
          have hne : n ∉ [name] := by
            rw [List.mem_singleton]
            exact fun h => hname (h ▸ hn)
          rw [hadds.frame n hne, hfree.2 n hn]
        exact wp_mono (ih hrest hadds.wired hfree₁) fun _ _ _ h => hadds.cons h
      cases out with
      | ok _ => exact hnext
      | err e => exact wp_halt.mpr (hadds.mono (by simp))
      | panic => exact hadds.mono (by simp)

theorem applyRmEnv_spec (name : String) (hw : Wired w) :
    wp (settledSem deps) (applyRmEnv name) (fun _ _ w' => Wired w' ∧ w'.stored deps = w.stored deps ∧
      ∀ n, w'.loopOf n = if name = n then none else w.loopOf n) w := by
  refine wp_call.mpr fun removed w₁ hremove => ?_
  obtain ⟨hremoved, hw₁⟩ := hremove.1
  have hlive : w₁.live = w.live.erase name := by rw [hw₁]
  change removed = w.loopOf name at hremoved
  subst hremoved
  cases hname : w.loopOf name with
  | none =>
    have hgone (n : String) : w₁.loopOf n = w.loopOf n := by
      rw [loopOf_erase hlive]
      by_cases hn : name = n
      · rw [if_pos hn, ← hn, hname]
      · rw [if_neg hn]
    have hstill : Still deps w w₁ := ⟨stored_of_store (by rw [hw₁]), by rw [hw₁], by rw [hw₁], hgone⟩
    exact wp_halt.mpr ⟨hstill.wired hw, hstill.stored, loopOf_erase hlive⟩
  | some loop =>
    refine wp_call.mpr fun _ w₂ habort => wp_halt.mpr ?_
    have hw₂ : w₂ = _ := habort.1
    have hlive₂ : w₂.live = w.live.erase name := by rw [hw₂, hw₁]
    refine ⟨hw.erase hname hlive₂ ?_ ?_, ?_, loopOf_erase hlive₂⟩
    · rw [hw₂, hw₁]
    · rw [hw₂, hw₁]
    · exact stored_of_store (by rw [hw₂, hw₁])

end MiddleWhere.Daemon
