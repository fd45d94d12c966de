import MiddleWhere.Daemon.RegistryRuns

/-!
# Runtime snapshots

The watch channel of one environment, step by step: a client connects and takes a snapshot of
the published runtime, a session uses its snapshot, a session ends, and one request at a time
clones or builds a runtime and publishes it. Between any two steps of the request the clients
may take theirs.

Runtimes and lists of forwards are shared: a runtime is dropped with its last holder, and so
is a list of forwards, which closes its tunnels.
-/

namespace MiddleWhere.Daemon
open Std (ExtTreeMap)
open Prog

abbrev ArcId := ℕ
abbrev SessionId := ℕ
abbrev Heap (α : Type) := ExtTreeMap ArcId α compare

/-- What an `Arc<EnvRuntime>` points to; its forwards are behind another `Arc`. -/
structure RuntimeCell where
  runtime : EnvRuntime
  forwards : ArcId
deriving DecidableEq

inductive Mutation
  | swapAuthz (newClientAuth : ClientAuth)
  | swapPolicy (newPolicy : Policy)
  | rebuild (runtime : EnvRuntime)

def Mutation.apply : Mutation → EnvRuntime → EnvRuntime
  | .swapAuthz newClientAuth, rt => { rt with clientAuth := newClientAuth }
  | .swapPolicy newPolicy, rt => { rt with policy := newPolicy }
  | .rebuild runtime, _ => runtime

/-- `pending` is the runtime that the running request has made and not published yet. -/
structure Channel where
  runtimes : Heap RuntimeCell
  forwards : Heap (List LocalForward)
  current : ArcId
  pending : Option (Mutation × RuntimeCell)
  sessions : List (SessionId × ArcId)
  accepted : ℕ

namespace Channel

def holdsRuntime (c : Channel) (i : ArcId) : Bool :=
  c.current == i || c.sessions.any fun s => s.2 == i

def holdsForwards (c : Channel) (f : ArcId) : Bool :=
  (c.runtimes.toList.any fun e => e.2.forwards == f) || c.pending.any fun p => p.2.forwards == f

def dropForwards (c : Channel) (f : ArcId) : Channel :=
  if c.holdsForwards f then c else { c with forwards := c.forwards.erase f }

/-- One holder of the runtime at `i` is gone. -/
def dropRuntime (c : Channel) (i : ArcId) : Channel :=
  if c.holdsRuntime i then c
  else
    match c.runtimes[i]? with
    | none => c
    | some cell => dropForwards { c with runtimes := c.runtimes.erase i } cell.forwards

/-- `spawn_env` over a runtime that was just built. -/
def spawned (runtime : EnvRuntime) : Channel where
  runtimes := (∅ : Heap RuntimeCell).insert 0 ⟨runtime, 0⟩
  forwards := (∅ : Heap (List LocalForward)).insert 0 runtime.forwards
  current := 0
  pending := none
  sessions := []
  accepted := 0

end Channel

inductive Observation
  | accepted (session : SessionId) (runtime : EnvRuntime)
  | served (session : SessionId) (runtime : EnvRuntime)
  | ended (session : SessionId)
  | published (mutation : Mutation) (runtime : EnvRuntime)

/-- The steps of the accept loop, of sessions and of the one request that runs. -/
inductive ChannelStep : Channel → List Observation → Channel → Prop
  | accept {c : Channel} {cell : RuntimeCell} : c.runtimes[c.current]? = some cell →
      ChannelStep c [.accepted c.accepted cell.runtime]
        { c with sessions := (c.accepted, c.current) :: c.sessions, accepted := c.accepted + 1 }
  | serve {c : Channel} {sid : SessionId} {i : ArcId} {cell : RuntimeCell} :
      (sid, i) ∈ c.sessions → c.runtimes[i]? = some cell →
      ChannelStep c [.served sid cell.runtime] c
  | finish {c : Channel} {sid : SessionId} {i : ArcId} : (sid, i) ∈ c.sessions →
      ChannelStep c [.ended sid]
        (Channel.dropRuntime { c with sessions := c.sessions.filter fun s => s.1 ≠ sid } i)
  | clone {c : Channel} {cell : RuntimeCell} (mutation : Mutation) : c.pending = none →
      (∀ rt, mutation ≠ .rebuild rt) → c.runtimes[c.current]? = some cell →
      ChannelStep c []
        { c with pending := some (mutation, ⟨mutation.apply cell.runtime, cell.forwards⟩) }
  | build {c : Channel} (runtime : EnvRuntime) {f : ArcId} : c.pending = none → f ∉ c.forwards →
      ChannelStep c [] { c with
        forwards := c.forwards.insert f runtime.forwards
        pending := some (.rebuild runtime, ⟨runtime, f⟩) }
  | abandon {c : Channel} {mutation : Mutation} {cell : RuntimeCell} :
      c.pending = some (mutation, cell) →
      ChannelStep c [] (Channel.dropForwards { c with pending := none } cell.forwards)
  | publish {c : Channel} {mutation : Mutation} {cell : RuntimeCell} {i : ArcId} :
      c.pending = some (mutation, cell) → i ∉ c.runtimes →
      ChannelStep c [.published mutation cell.runtime]
        (Channel.dropRuntime { c with
          runtimes := c.runtimes.insert i cell
          current := i
          pending := none } c.current)

inductive ChannelRun (runtime : EnvRuntime) : List Observation → Channel → Prop
  | spawned : ChannelRun runtime [] (.spawned runtime)
  | step {log obs : List Observation} {c c' : Channel} : ChannelRun runtime log c →
      ChannelStep c obs c' → ChannelRun runtime (log ++ obs) c'

/-- The runtime that was published last, in a log that is read in order. -/
def latest (runtime : EnvRuntime) (log : List Observation) : EnvRuntime :=
  log.foldl (fun rt o => match o with
    | .published _ rt' => rt'
    | _ => rt) runtime

/-- What each observation must be after those of `pre`. -/
def Follows (runtime : EnvRuntime) (pre : List Observation) : Observation → Prop
  | .accepted sid rt => rt = latest runtime pre ∧ ∀ rt', .accepted sid rt' ∉ pre
  | .served sid rt => .accepted sid rt ∈ pre ∧ .ended sid ∉ pre
  | .ended sid => (∃ rt, .accepted sid rt ∈ pre) ∧ .ended sid ∉ pre
  | .published mutation rt => rt = mutation.apply (latest runtime pre)

/-! ## Drops -/

variable {c c' : Channel} {runtime : EnvRuntime} {log obs : List Observation}

/-- What is held is found, with its forwards. -/
structure Owned (c : Channel) : Prop where
  current : c.current ∈ c.runtimes
  sessions : ∀ s ∈ c.sessions, s.2 ∈ c.runtimes
  runtimes : ∀ (i : ArcId) (cell : RuntimeCell), c.runtimes[i]? = some cell →
    c.forwards[cell.forwards]? = some cell.runtime.forwards
  pending : ∀ (mutation : Mutation) (cell : RuntimeCell), c.pending = some (mutation, cell) →
    c.forwards[cell.forwards]? = some cell.runtime.forwards

theorem holdsForwards_eq_false {f : ArcId} (h : c.holdsForwards f = false) :
    (∀ (i : ArcId) (cell : RuntimeCell), c.runtimes[i]? = some cell → f ≠ cell.forwards) ∧
    ∀ (mutation : Mutation) (cell : RuntimeCell), c.pending = some (mutation, cell) → f ≠ cell.forwards := by
  unfold Channel.holdsForwards at h
  rw [Bool.or_eq_false_iff, List.any_eq_false] at h
  obtain ⟨hcells, hpending⟩ := h
  refine ⟨fun i cell hcell heq => ?_, fun mutation cell hcell heq => ?_⟩
  · have hmem : (i, cell) ∈ c.runtimes.toList := ExtTreeMap.mem_toList_iff_getElem?_eq_some.mpr hcell
    simpa [heq] using hcells (i, cell) hmem
  · simp [hcell, heq] at hpending

theorem dropForwards_keeps (c : Channel) (f : ArcId) :
    (c.dropForwards f).runtimes = c.runtimes ∧ (c.dropForwards f).current = c.current ∧
      (c.dropForwards f).pending = c.pending ∧ (c.dropForwards f).sessions = c.sessions ∧
      (c.dropForwards f).accepted = c.accepted := by
  unfold Channel.dropForwards
  split_ifs <;> simp

/-- A list of forwards that something still holds is not dropped. -/
theorem Owned.dropForwards (h : Owned c) (f : ArcId) : Owned (c.dropForwards f) := by
  obtain ⟨hruntimes, hcurrent, hpending, hsessions, -⟩ := dropForwards_keeps c f
  have hframe (g : ArcId) (fs : List LocalForward) (hg : c.forwards[g]? = some fs)
      (hheld : c.holdsForwards f = false → f ≠ g) : (c.dropForwards f).forwards[g]? = some fs := by
    unfold Channel.dropForwards
    by_cases hholds : c.holdsForwards f = true
    · rw [if_pos hholds]
      exact hg
    · rw [if_neg hholds]
      exact Tables.getElem?_erase_eq_some.mpr ⟨hheld (by simpa using hholds), hg⟩
  refine ⟨?_, ?_, ?_, ?_⟩
  · rw [hcurrent, hruntimes]
    exact h.current
  · rw [hsessions, hruntimes]
    exact h.sessions
  · intro i cell hcell
    rw [hruntimes] at hcell
    exact hframe _ _ (h.runtimes i cell hcell) fun hfree => (holdsForwards_eq_false hfree).1 i cell hcell
  · intro mutation cell hcell
    rw [hpending] at hcell
    exact hframe _ _ (h.pending mutation cell hcell)
      fun hfree => (holdsForwards_eq_false hfree).2 mutation cell hcell

theorem holdsRuntime_eq_false {i : ArcId} (h : c.holdsRuntime i = false) :
    c.current ≠ i ∧ ∀ s ∈ c.sessions, s.2 ≠ i := by
  unfold Channel.holdsRuntime at h
  rw [Bool.or_eq_false_iff, List.any_eq_false] at h
  simpa using h

theorem dropRuntime_pending (c : Channel) (i : ArcId) : (c.dropRuntime i).pending = c.pending := by
  unfold Channel.dropRuntime
  by_cases hholds : c.holdsRuntime i = true
  · rw [if_pos hholds]
  · rw [if_neg hholds]
    cases c.runtimes[i]? with
    | none => rfl
    | some cell => exact (dropForwards_keeps _ _).2.2.1

/-- What a drop leaves alone: the holders, and the runtimes that they hold. -/
structure Dropped (c c' : Channel) : Prop where
  current : c'.current = c.current
  pending : c'.pending = c.pending
  sessions : c'.sessions = c.sessions
  accepted : c'.accepted = c.accepted
  atCurrent : c'.runtimes[c.current]? = c.runtimes[c.current]?
  atSessions : ∀ s ∈ c.sessions, c'.runtimes[s.2]? = c.runtimes[s.2]?

theorem Owned.dropRuntime (h : Owned c) (i : ArcId) :
    Owned (c.dropRuntime i) ∧ Dropped c (c.dropRuntime i) := by
  have hsame : Dropped c c := ⟨rfl, rfl, rfl, rfl, rfl, fun _ _ => rfl⟩
  unfold Channel.dropRuntime
  by_cases hholds : c.holdsRuntime i = true
  · rw [if_pos hholds]
    exact ⟨h, hsame⟩
  · rw [if_neg hholds]
    obtain ⟨hcurrent, hsessions⟩ := holdsRuntime_eq_false (by simpa using hholds)
    cases hcell : c.runtimes[i]? with
    | none => exact ⟨h, hsame⟩
    | some cell =>
      have hkept (j : ArcId) (hj : j ≠ i) : (c.runtimes.erase i)[j]? = c.runtimes[j]? := by
        rw [ExtTreeMap.getElem?_erase]
        simp [hj.symm]
      have herased : Owned { c with runtimes := c.runtimes.erase i } := by
        refine ⟨?_, ?_, ?_, h.pending⟩
        · exact ExtTreeMap.mem_erase.mpr ⟨by simpa using hcurrent.symm, h.current⟩
        · intro s hs
          exact ExtTreeMap.mem_erase.mpr ⟨by simpa using (hsessions s hs).symm, h.sessions s hs⟩
        · intro j cell' hj
          exact h.runtimes j cell' (Tables.getElem?_erase_eq_some.mp hj).2
      obtain ⟨hrts, hcur, hpen, hses, hacc⟩ :=
        dropForwards_keeps { c with runtimes := c.runtimes.erase i } cell.forwards
      refine ⟨herased.dropForwards cell.forwards, hcur, hpen, hses, hacc, ?_, fun s hs => ?_⟩
      · rw [hrts]
        exact hkept _ hcurrent
      · rw [hrts]
        exact hkept _ (hsessions s hs)

/-! ## Steps -/

/-- The channel and what was observed of it so far. -/
structure Tracked (runtime : EnvRuntime) (log : List Observation) (c : Channel) : Prop where
  owned : Owned c
  current : ∀ cell : RuntimeCell, c.runtimes[c.current]? = some cell →
    cell.runtime = latest runtime log
  pending : ∀ (mutation : Mutation) (cell : RuntimeCell), c.pending = some (mutation, cell) →
    cell.runtime = mutation.apply (latest runtime log)
  sessions : ∀ s ∈ c.sessions, .ended s.1 ∉ log ∧
    ∀ cell : RuntimeCell, c.runtimes[s.2]? = some cell → .accepted s.1 cell.runtime ∈ log
  ongoing : ∀ sid rt, .accepted sid rt ∈ log → .ended sid ∉ log → ∃ i, (sid, i) ∈ c.sessions
  fresh : ∀ sid rt, .accepted sid rt ∈ log → sid < c.accepted
  started : ∀ sid, .ended sid ∈ log → ∃ rt, .accepted sid rt ∈ log

theorem tracked_spawned (runtime : EnvRuntime) : Tracked runtime [] (.spawned runtime) where
  owned := by
    refine ⟨?_, ?_, ?_, ?_⟩
    · simp [Channel.spawned]
    · simp [Channel.spawned]
    · intro i cell hcell
      rcases Tables.getElem?_insert_eq_some.mp hcell with ⟨-, rfl⟩ | ⟨-, hnone⟩
      · simp [Channel.spawned]
      · simp at hnone
    · simp [Channel.spawned]
  current cell hcell := by
    obtain rfl : ⟨runtime, 0⟩ = cell := by simpa [Channel.spawned] using hcell
    rfl
  pending := by simp [Channel.spawned]
  sessions := by simp [Channel.spawned]
  ongoing := by simp
  fresh := by simp
  started := by simp

theorem latest_append_published (mutation : Mutation) (rt : EnvRuntime) :
    latest runtime (log ++ [.published mutation rt]) = rt := by
  simp [latest]

theorem latest_append {o : Observation} (ho : ∀ mutation rt, o ≠ .published mutation rt) :
    latest runtime (log ++ [o]) = latest runtime log := by
  unfold latest
  rw [List.foldl_append]
  cases o with
  | published mutation rt => exact absurd rfl (ho mutation rt)
  | accepted sid rt => rfl
  | served sid rt => rfl
  | ended sid => rfl

theorem Tracked.accept (h : Tracked runtime log c) {cell : RuntimeCell}
    (hcell : c.runtimes[c.current]? = some cell) :
    Tracked runtime (log ++ [.accepted c.accepted cell.runtime])
      { c with sessions := (c.accepted, c.current) :: c.sessions, accepted := c.accepted + 1 } := by
  have hlatest : latest runtime (log ++ [.accepted c.accepted cell.runtime]) = latest runtime log :=
    latest_append (by simp)
  have hnew : .ended c.accepted ∉ log := by
    intro hended
    obtain ⟨rt, hrt⟩ := h.started _ hended
    exact absurd (h.fresh _ _ hrt) (lt_irrefl _)
  refine ⟨⟨h.owned.current, ?_, h.owned.runtimes, h.owned.pending⟩, ?_, ?_, ?_, ?_, ?_, ?_⟩
  · exact List.forall_mem_cons.mpr ⟨h.owned.current, h.owned.sessions⟩
  · rw [hlatest]
    exact h.current
  · rw [hlatest]
    exact h.pending
  · refine List.forall_mem_cons.mpr ⟨⟨by simpa using hnew, fun cell' hcell' => ?_⟩, fun s hs => ?_⟩
    · obtain rfl : cell = cell' := Option.some.inj (hcell.symm.trans hcell')
      simp
    · obtain ⟨hopen, htaken⟩ := h.sessions s hs
      exact ⟨by simpa using hopen, fun cell' hcell' => by simpa using Or.inl (htaken cell' hcell')⟩
  · intro sid rt hacc hended
    by_cases hsid : sid = c.accepted
    · exact ⟨c.current, by simp [hsid]⟩
    · have hold : .accepted sid rt ∈ log := by simpa [hsid] using hacc
      obtain ⟨i, hi⟩ := h.ongoing sid rt hold (by simpa using hended)
      exact ⟨i, List.mem_cons_of_mem _ hi⟩
  · intro sid rt hacc
    by_cases hsid : sid = c.accepted
    · exact hsid ▸ Nat.lt_succ_self _
    · have hold : .accepted sid rt ∈ log := by simpa [hsid] using hacc
      exact Nat.lt_succ_of_lt (h.fresh sid rt hold)
  · intro sid hended
    obtain ⟨rt, hrt⟩ := h.started sid (by simpa using hended)
    exact ⟨rt, List.mem_append_left _ hrt⟩

theorem Tracked.serve (h : Tracked runtime log c) (sid : SessionId) (rt : EnvRuntime) :
    Tracked runtime (log ++ [.served sid rt]) c where
  owned := h.owned
  current cell hcell := by
    rw [latest_append (by simp)]
    exact h.current cell hcell
  pending mutation cell hcell := by
    rw [latest_append (by simp)]
    exact h.pending mutation cell hcell
  sessions s hs := by simpa using h.sessions s hs
  ongoing sid' rt' := by simpa using h.ongoing sid' rt'
  fresh sid' rt' := by simpa using h.fresh sid' rt'
  started sid' := by simpa using h.started sid'

/-- The end of a session drops one holder; the other sessions keep theirs. -/
theorem Tracked.finish (h : Tracked runtime log c) {sid : SessionId} {i : ArcId}
    (hsid : (sid, i) ∈ c.sessions) :
    Tracked runtime (log ++ [.ended sid])
      (Channel.dropRuntime { c with sessions := c.sessions.filter fun s => s.1 ≠ sid } i) := by
  have hsub : ∀ s ∈ c.sessions.filter (fun s => s.1 ≠ sid), s ∈ c.sessions ∧ s.1 ≠ sid := by
    intro s hs
    simpa using List.mem_filter.mp hs
  have howned : Owned { c with sessions := c.sessions.filter fun s => s.1 ≠ sid } :=
    ⟨h.owned.current, fun s hs => h.owned.sessions s (hsub s hs).1, h.owned.runtimes,
      h.owned.pending⟩
  have hlatest : latest runtime (log ++ [.ended sid]) = latest runtime log := latest_append (by simp)
  obtain ⟨howned', hdrop⟩ := howned.dropRuntime i
  refine ⟨howned', ?_, ?_, ?_, ?_, ?_, ?_⟩
  · intro cell hcell
    rw [hdrop.current, hdrop.atCurrent] at hcell
    rw [hlatest]
    exact h.current cell hcell
  · intro mutation cell hcell
    rw [hdrop.pending] at hcell
    rw [hlatest]
    exact h.pending mutation cell hcell
  · intro s hs
    rw [hdrop.sessions] at hs
    obtain ⟨hmem, hne⟩ := hsub s hs
    obtain ⟨hopen, htaken⟩ := h.sessions s hmem
    refine ⟨by simp [hopen, hne], fun cell hcell => ?_⟩
    rw [hdrop.atSessions s hs] at hcell
    exact List.mem_append_left _ (htaken cell hcell)
  · intro sid' rt hacc hended
    have hopen : .ended sid' ∉ log ∧ sid' ≠ sid := by simpa [not_or] using hended
    obtain ⟨j, hj⟩ := h.ongoing sid' rt (by simpa using hacc) hopen.1
    refine ⟨j, ?_⟩
    rw [hdrop.sessions]
    simpa [hj] using hopen.2
  · intro sid' rt hacc
    rw [hdrop.accepted]
    exact h.fresh sid' rt (by simpa using hacc)
  · intro sid' hended
    by_cases hnew : sid' = sid
    · have hstart := h.owned.sessions _ hsid
      obtain ⟨cell, hcell⟩ := Tables.exists_of_mem hstart
      have hacc := (h.sessions _ hsid).2 cell hcell
      exact ⟨cell.runtime, List.mem_append_left _ (hnew ▸ hacc)⟩
    · obtain ⟨rt, hrt⟩ := h.started sid' (by simpa [hnew] using hended)
      exact ⟨rt, List.mem_append_left _ hrt⟩

/-- A runtime under way changes nothing that anyone else can see. -/
theorem Tracked.pend (h : Tracked runtime log c) (howned : Owned c')
    (hruntimes : c'.runtimes = c.runtimes) (hcurrent : c'.current = c.current)
    (hsessions : c'.sessions = c.sessions) (haccepted : c'.accepted = c.accepted)
    (hpending : ∀ (mutation : Mutation) (cell : RuntimeCell), c'.pending = some (mutation, cell) →
      cell.runtime = mutation.apply (latest runtime log)) : Tracked runtime log c' where
  owned := howned
  current := by rw [hruntimes, hcurrent]; exact h.current
  pending := hpending
  sessions := by rw [hsessions, hruntimes]; exact h.sessions
  ongoing := by rw [hsessions]; exact h.ongoing
  fresh := by rw [haccepted]; exact h.fresh
  started := h.started

/-- The clone of a swap shares the pool and the forwards of what it was cloned from. -/
theorem Tracked.clone (h : Tracked runtime log c) {mutation : Mutation} {cell : RuntimeCell}
    (hswap : ∀ rt, mutation ≠ .rebuild rt) (hcell : c.runtimes[c.current]? = some cell) :
    Tracked runtime log
      { c with pending := some (mutation, ⟨mutation.apply cell.runtime, cell.forwards⟩) } := by
  have hshared : (mutation.apply cell.runtime).forwards = cell.runtime.forwards := by
    cases mutation with
    | swapAuthz newClientAuth => rfl
    | swapPolicy newPolicy => rfl
    | rebuild rt => exact absurd rfl (hswap rt)
  refine h.pend ⟨h.owned.current, h.owned.sessions, h.owned.runtimes, ?_⟩ rfl rfl rfl rfl ?_
  · rintro mutation' cell' heq
    obtain ⟨rfl, rfl⟩ := Prod.mk.inj (Option.some.inj heq)
    simpa only [hshared] using h.owned.runtimes _ _ hcell
  · rintro mutation' cell' heq
    obtain ⟨rfl, rfl⟩ := Prod.mk.inj (Option.some.inj heq)
    rw [← h.current cell hcell]

theorem Tracked.build (h : Tracked runtime log c) (rt : EnvRuntime) {f : ArcId}
    (hf : f ∉ c.forwards) :
    Tracked runtime log { c with
      forwards := c.forwards.insert f rt.forwards
      pending := some (.rebuild rt, ⟨rt, f⟩) } := by
  refine h.pend ⟨h.owned.current, h.owned.sessions, fun i cell hcell => ?_, ?_⟩ rfl rfl rfl rfl ?_
  · have hold := h.owned.runtimes i cell hcell
    have hne : f ≠ cell.forwards := fun heq => hf (heq ▸ Tables.mem_of_getElem? hold)
    exact Tables.getElem?_insert_eq_some.mpr (Or.inr ⟨hne, hold⟩)
  · rintro mutation' cell' heq
    obtain ⟨rfl, rfl⟩ := Prod.mk.inj (Option.some.inj heq)
    simp
  · rintro mutation' cell' heq
    obtain ⟨rfl, rfl⟩ := Prod.mk.inj (Option.some.inj heq)
    rfl

theorem Tracked.abandon (h : Tracked runtime log c) {f : ArcId} :
    Tracked runtime log (Channel.dropForwards { c with pending := none } f) := by
  have howned : Owned { c with pending := none } :=
    ⟨h.owned.current, h.owned.sessions, h.owned.runtimes, by simp⟩
  obtain ⟨hruntimes, hcurrent, hpending, hsessions, haccepted⟩ :=
    dropForwards_keeps { c with pending := none } f
  refine h.pend (howned.dropForwards f) hruntimes hcurrent hsessions haccepted ?_
  intro mutation cell hcell
  rw [hpending] at hcell
  cases hcell

theorem Tracked.publish (h : Tracked runtime log c) {mutation : Mutation} {cell : RuntimeCell}
    {i : ArcId} (hpending : c.pending = some (mutation, cell)) (hi : i ∉ c.runtimes) :
    Tracked runtime (log ++ [.published mutation cell.runtime])
      (Channel.dropRuntime { c with
        runtimes := c.runtimes.insert i cell
        current := i
        pending := none } c.current) := by
  have hframe : ∀ j ∈ c.runtimes, (c.runtimes.insert i cell)[j]? = c.runtimes[j]? := by
    intro j hj
    have hne : i ≠ j := fun h => hi (h ▸ hj)
    rw [ExtTreeMap.getElem?_insert]
    simp [hne]
  have howned : Owned { c with
      runtimes := c.runtimes.insert i cell
      current := i
      pending := none } := by
    refine ⟨by simp, fun s hs => ?_, fun j cell' hj => ?_, by simp⟩
    · exact ExtTreeMap.mem_insert.mpr (Or.inr (h.owned.sessions s hs))
    · rcases Tables.getElem?_insert_eq_some.mp hj with ⟨-, rfl⟩ | ⟨-, hold⟩
      · exact h.owned.pending mutation cell hpending
      · exact h.owned.runtimes j cell' hold
  obtain ⟨howned', hdrop⟩ := howned.dropRuntime c.current
  refine ⟨howned', ?_, ?_, ?_, ?_, ?_, ?_⟩
  · intro cell' hcell'
    rw [hdrop.current, hdrop.atCurrent] at hcell'
    obtain rfl : cell = cell' := by simpa using hcell'
    exact (latest_append_published ..).symm
  · intro mutation' cell' hcell'
    rw [hdrop.pending] at hcell'
    cases hcell'
  · intro s hs
    rw [hdrop.sessions] at hs
    obtain ⟨hopen, htaken⟩ := h.sessions s hs
    refine ⟨by simpa using hopen, fun cell' hcell' => ?_⟩
    rw [hdrop.atSessions s hs, hframe _ (h.owned.sessions s hs)] at hcell'
    exact List.mem_append_left _ (htaken cell' hcell')
  · rw [hdrop.sessions]
    simpa using h.ongoing
  · rw [hdrop.accepted]
    simpa using h.fresh
  · simpa using h.started

/-- One step: what it shows follows from what was seen before, and the tie is kept. -/
theorem Tracked.step (h : Tracked runtime log c) (hstep : ChannelStep c obs c') :
    Tracked runtime (log ++ obs) c' ∧ ∀ o ∈ obs, Follows runtime log o := by
  cases hstep with
  | accept hcell =>
    refine ⟨h.accept hcell, List.forall_mem_singleton.mpr ⟨h.current _ hcell, fun rt' hrt' => ?_⟩⟩
    exact absurd (h.fresh _ _ hrt') (lt_irrefl _)
  | serve hsid hcell =>
    obtain ⟨hopen, htaken⟩ := h.sessions _ hsid
    exact ⟨h.serve _ _, List.forall_mem_singleton.mpr ⟨htaken _ hcell, hopen⟩⟩
  | finish hsid =>
    obtain ⟨hopen, htaken⟩ := h.sessions _ hsid
    obtain ⟨cell, hcell⟩ := Tables.exists_of_mem (h.owned.sessions _ hsid)
    exact ⟨h.finish hsid, List.forall_mem_singleton.mpr ⟨⟨_, htaken _ hcell⟩, hopen⟩⟩
  | clone mutation hidle hswap hcell =>
    rw [List.append_nil]
    exact ⟨h.clone hswap hcell, by simp⟩
  | build rt hidle hf =>
    rw [List.append_nil]
    exact ⟨h.build rt hf, by simp⟩
  | abandon hpending =>
    rw [List.append_nil]
    exact ⟨h.abandon, by simp⟩
  | publish hpending hi =>
    exact ⟨h.publish hpending hi, List.forall_mem_singleton.mpr (h.pending _ _ hpending)⟩

/-! ## Runs -/

/-- Where an element of a list with a last one can stand. -/
theorem append_singleton_cases {α : Type} {l pre post : List α} {a x : α}
    (h : l ++ [x] = pre ++ a :: post) :
    (pre = l ∧ a = x) ∨ ∃ post', l = pre ++ a :: post' := by
  induction post using List.reverseRecOn with
  | nil =>
    obtain ⟨hl, hx⟩ := List.append_inj' h rfl
    exact Or.inl ⟨hl.symm, (List.cons.inj hx).1.symm⟩
  | append_singleton post y _ =>
    rw [← List.cons_append, ← List.append_assoc] at h
    exact Or.inr ⟨post, (List.append_inj' h rfl).1⟩

theorem ChannelStep.obs_length (h : ChannelStep c obs c') : obs = [] ∨ ∃ o, obs = [o] := by
  cases h with
  | accept hcell => exact Or.inr ⟨_, rfl⟩
  | serve hsid hcell => exact Or.inr ⟨_, rfl⟩
  | finish hsid => exact Or.inr ⟨_, rfl⟩
  | clone mutation hidle hswap hcell => exact Or.inl rfl
  | build rt hidle hf => exact Or.inl rfl
  | abandon hpending => exact Or.inl rfl
  | publish hpending hi => exact Or.inr ⟨_, rfl⟩

theorem ChannelRun.tracked (h : ChannelRun runtime log c) : Tracked runtime log c ∧
    ∀ pre o post, log = pre ++ o :: post → Follows runtime pre o := by
  induction h with
  | spawned => exact ⟨tracked_spawned runtime, by simp⟩
  | @step log obs c c' _ hstep ih =>
    obtain ⟨htracked, hfollows⟩ := ih
    obtain ⟨htracked', hnew⟩ := htracked.step hstep
    refine ⟨htracked', fun pre o post heq => ?_⟩
    rcases hstep.obs_length with rfl | ⟨x, rfl⟩
    · exact hfollows pre o post (by simpa using heq)
    · rcases append_singleton_cases heq with ⟨rfl, rfl⟩ | ⟨post', hold⟩
      · exact hnew o (List.mem_singleton_self o)
      · exact hfollows pre o post' hold

/-- A session is accepted once. -/
theorem ChannelRun.accepted_unique (h : ChannelRun runtime log c) {sid : SessionId}
    {rt rt' : EnvRuntime} (hrt : .accepted sid rt ∈ log) (hrt' : .accepted sid rt' ∈ log) :
    rt = rt' := by
  obtain ⟨pre, post, rfl⟩ := List.append_of_mem hrt
  have hfirst : ∀ rt', .accepted sid rt' ∉ pre := (h.tracked.2 pre _ post rfl).2
  rcases List.mem_append.mp hrt' with hpre | hpost
  · exact absurd hpre (hfirst rt')
  · rcases List.mem_cons.mp hpost with heq | hpost
    · exact (Observation.accepted.inj heq).2.symm
    · obtain ⟨pre', post', rfl⟩ := List.append_of_mem hpost
      have hlater := h.tracked.2 (pre ++ .accepted sid rt :: pre') (.accepted sid rt') post' (by simp)
      exact absurd (by simp) (hlater.2 rt)

/-! ## The requests take these steps -/

/-- The channel is the one that the registry has under `name`, and no request is at it. -/
structure Shows (c : Channel) (w : World) (name : String) : Prop where
  idle : c.pending = none
  current : ∃ cell : RuntimeCell, c.runtimes[c.current]? = some cell ∧
    (w.live[name]?).map Handle.runtime = some cell.runtime

theorem exists_fresh {α : Type} (heap : Heap α) : ∃ i, i ∉ heap := by
  obtain ⟨i, hi⟩ := Infinite.exists_notMem_finset heap.keys.toFinset
  exact ⟨i, by simpa using hi⟩

theorem ChannelRun.publish (h : ChannelRun runtime log c) {mutation : Mutation}
    {cell : RuntimeCell} (hpending : c.pending = some (mutation, cell)) {name : String} {w : World}
    (hlive : (w.live[name]?).map Handle.runtime = some cell.runtime) :
    ∃ c', ChannelRun runtime (log ++ [.published mutation cell.runtime]) c' ∧ Shows c' w name := by
  obtain ⟨i, hi⟩ := exists_fresh c.runtimes
  have hrun := h.step (.publish hpending hi)
  obtain ⟨htracked, -⟩ := hrun.tracked
  refine ⟨_, hrun, dropRuntime_pending _ _, ?_⟩
  obtain ⟨cell', hcell'⟩ := Tables.exists_of_mem htracked.owned.current
  refine ⟨cell', hcell', ?_⟩
  rw [htracked.current cell' hcell', latest_append_published, hlive]

/-- A swap of a live environment clones what was published last and publishes the clone. -/
theorem swapRuntime_shows {deps : DaemonDeps} {w : World} {name : String} {mutation : Mutation}
    (h : ChannelRun runtime log c) (hshows : Shows c w name)
    (hswap : ∀ rt, mutation ≠ .rebuild rt) :
    wp (daemonSem deps) (swapRuntime name mutation.apply) (fun _ out w' => out = .ok () ∧
      ∃ c', ChannelRun runtime
        (log ++ [.published mutation (mutation.apply (latest runtime log))]) c' ∧
        Shows c' w' name) w := by
  obtain ⟨cell, hcell, hlive⟩ := hshows.current
  have hlatest : cell.runtime = latest runtime log := h.tracked.1.current cell hcell
  refine wp_ask_bind fun found w₁ hfound => ?_
  obtain ⟨rfl, rfl⟩ := hfound
  rw [hlive]
  refine wp_ask_bind fun published w₂ hpublish => wp_halt.mpr ⟨rfl, ?_⟩
  rcases publish_cases hpublish with ⟨hnone, -, -⟩ | ⟨handle, hhandle, -, rfl⟩
  · rw [hnone] at hlive
    cases hlive
  · have hclone := h.step (.clone mutation hshows.idle hswap hcell)
    rw [List.append_nil] at hclone
    rw [← hlatest]
    exact hclone.publish rfl (by simp)

/-- A rebuild publishes what it has built, or leaves what is published. -/
theorem applyRebuildBackend_shows {deps : DaemonDeps} {w : World} {name : String} {cfg : Config}
    {env : Env} (h : ChannelRun runtime log c) (hshows : Shows c w name) :
    wp (daemonSem deps) (applyRebuildBackend deps cfg env name) (fun _ out w' =>
      (∃ rt c', out = .ok () ∧ ChannelRun runtime (log ++ [.published (.rebuild rt) rt]) c' ∧
        Shows c' w' name) ∨ ((∀ u, out ≠ .ok u) ∧ Shows c w' name)) w := by
  obtain ⟨cell, hcell, hlive⟩ := hshows.current
  refine wp_bind.mpr (wp_mono (builds_of_uses (buildEnvRuntime_builds deps name env cfg) w) ?_)
  intro t out w₁ hbuilds
  have hlive₁ : w₁.live = w.live := by rw [hbuilds.same]
  have hshows₁ : Shows c w₁ name := ⟨hshows.idle, cell, hcell, by rw [hlive₁, hlive]⟩
  cases out with
  | err e => exact Or.inr ⟨nofun, hshows₁⟩
  | panic => exact Or.inr ⟨nofun, hshows₁⟩
  | ok rt =>
    refine wp_ask_bind fun published w₂ hpublish => ?_
    rcases publish_cases hpublish with ⟨-, rfl, rfl⟩ | ⟨handle, hhandle, rfl, rfl⟩
    · exact wp_halt.mpr (Or.inr ⟨nofun, hshows₁⟩)
    · obtain ⟨f, hf⟩ := exists_fresh c.forwards
      have hbuild := h.step (.build rt hshows.idle hf)
      rw [List.append_nil] at hbuild
      let w₂ := { w₁ with live := w₁.live.insert name { handle with runtime := rt } }
      have hpublished : (w₂.live[name]?).map Handle.runtime = some rt := by simp [w₂]
      obtain ⟨c', hrun, hshows'⟩ := hbuild.publish rfl hpublished
      exact wp_halt.mpr (Or.inl ⟨rt, c', rfl, hrun, hshows'⟩)

/-- Over every interleaving: a session is given the runtime that was published last, and uses
that one until it ends; a swap changes its one field of the runtime published before; and the
tunnels of every session that goes on, and of the published runtime, are open. -/
theorem snapshot_isolation (h : ChannelRun runtime log c) :
    (∀ pre o post, log = pre ++ o :: post → Follows runtime pre o) ∧
    (∀ sid rt, .accepted sid rt ∈ log → .ended sid ∉ log → ∃ i f, (sid, i) ∈ c.sessions ∧
      c.runtimes[i]? = some ⟨rt, f⟩ ∧ c.forwards[f]? = some rt.forwards) ∧
    ∃ f, c.runtimes[c.current]? = some ⟨latest runtime log, f⟩ ∧
      c.forwards[f]? = some (latest runtime log).forwards := by
  obtain ⟨htracked, hfollows⟩ := h.tracked
  refine ⟨hfollows, fun sid rt hacc hopen => ?_, ?_⟩
  · obtain ⟨i, hi⟩ := htracked.ongoing sid rt hacc hopen
    obtain ⟨cell, hcell⟩ := Tables.exists_of_mem (htracked.owned.sessions _ hi)
    have htaken := (htracked.sessions _ hi).2 cell hcell
    obtain rfl : rt = cell.runtime := h.accepted_unique hacc htaken
    exact ⟨i, cell.forwards, hi, hcell, htracked.owned.runtimes i cell hcell⟩
  · obtain ⟨cell, hcell⟩ := Tables.exists_of_mem htracked.owned.current
    rw [← htracked.current cell hcell]
    exact ⟨cell.forwards, hcell, htracked.owned.runtimes _ cell hcell⟩

def sampleRuntime : EnvRuntime :=
  directRuntime "app" sampleEnv ⟨"u", "pw"⟩ "127.0.0.1:6033" 0

/-- A session that begins before a swap of the policy, and one that begins after it. -/
def sampleLog : List Observation :=
  [.accepted 0 sampleRuntime,
    .published (.swapPolicy .readWrite) { sampleRuntime with policy := .readWrite },
    .served 0 sampleRuntime, .accepted 1 { sampleRuntime with policy := .readWrite }]

theorem sampleLog_run : ∃ c, ChannelRun sampleRuntime sampleLog c := by
  have haccept := ChannelRun.spawned.step (.accept (c := .spawned sampleRuntime) (by rfl))
  have hclone := haccept.step (.clone (.swapPolicy .readWrite) rfl nofun (by rfl))
  have hpublish := hclone.step (.publish (i := 1) rfl (by decide))
  have hserve := hpublish.step (.serve (List.mem_singleton_self _) (by rfl))
  have hlater := hserve.step (.accept (by rfl))
  exact ⟨_, hlater⟩

theorem snapshot_isolation_sample : ∃ c : Channel,
    (∀ pre o post, sampleLog = pre ++ o :: post → Follows sampleRuntime pre o) ∧
    (∀ sid rt, .accepted sid rt ∈ sampleLog → .ended sid ∉ sampleLog → ∃ i f,
      (sid, i) ∈ c.sessions ∧ c.runtimes[i]? = some ⟨rt, f⟩ ∧ c.forwards[f]? = some rt.forwards) ∧
    ∃ f, c.runtimes[c.current]? = some ⟨latest sampleRuntime sampleLog, f⟩ ∧
      c.forwards[f]? = some (latest sampleRuntime sampleLog).forwards := by
  obtain ⟨c, hrun⟩ := sampleLog_run
  exact ⟨c, snapshot_isolation hrun⟩

end MiddleWhere.Daemon
