import MiddleWhere.Core.Config
import MiddleWhere.Effects.Steps

/-!
# The reaper

The loop that closes idle backend connections, beside everything it runs with: time passes,
environments are added, removed and rebuilt, sessions take connections out of the pools and
put them back. The loop is due at its deadline, so time does not pass it before the sweep;
a wake is taken first. Swaps of the policy or of the credentials of clients leave timeout and
pool as they are, so they are no actions here.
-/

namespace MiddleWhere.Daemon.Reaper

/-- Time is counted in nanoseconds. -/
def secs (n : ℕ) : ℕ := n * 1000000000

/-! ## The cadence -/

def shouldRetain (lastUsed idleTimeout : ℕ) : Bool :=
  idleTimeout == 0 || decide (lastUsed < idleTimeout)

def clamp (x lo hi : ℕ) : ℕ := if x < lo then lo else if hi < x then hi else x

def reaperInterval (minIdleTimeout : ℕ) : ℕ := clamp (minIdleTimeout / 2) (secs 1) (secs 60)

def reapFallbackInterval : ℕ := secs 60

/-- A connection, with the time of its last checkout. -/
structure Conn where
  id : ℕ
  checkedOut : ℕ
  deriving DecidableEq

/-- What the reaper sees of a runtime, with the connections that sessions hold. -/
structure Runtime where
  idleTimeout : ℕ
  pool : List Conn
  held : List Conn

/-- Pools are lazy. -/
def Runtime.fresh (idleTimeout : ℕ) : Runtime := ⟨idleTimeout, [], []⟩

/-- `retain` asks about each connection in the pool. -/
def Runtime.reapIdle (now : ℕ) (rt : Runtime) : Runtime :=
  { rt with pool := rt.pool.filter fun c => shouldRetain (now - c.checkedOut) rt.idleTimeout }

abbrev Registry := Table Runtime

def currentReapInterval (envs : Registry) : ℕ :=
  (((envs.toList.map fun e => e.2.idleTimeout).filter (· ≠ 0)).min?.map reaperInterval).getD
    reapFallbackInterval

/-! ## Steps -/

structure State where
  now : ℕ
  deadline : ℕ
  wake : Bool
  envs : Registry

def start (now : ℕ) (timeouts : Table ℕ) : State :=
  let envs := timeouts.map fun _ idleTimeout => Runtime.fresh idleTimeout
  ⟨now, now + currentReapInterval envs, false, envs⟩

inductive Action
  | wait (d : ℕ)
  | add (name : String) (idleTimeout : ℕ)
  | remove (name : String)
  | rebuild (name : String) (idleTimeout : ℕ)
  | wake
  | sweep
  | create (name : String) (id : ℕ)
  | checkout (name : String) (id : ℕ)
  | checkin (name : String) (id : ℕ)
  | discard (name : String) (id : ℕ)
  deriving DecidableEq

def others (id : ℕ) (cs : List Conn) : List Conn := cs.filter (·.id ≠ id)

/-- A new connection for a session; its id is new to the pool. -/
def Runtime.create (now id : ℕ) (rt : Runtime) : Option Runtime :=
  if (rt.pool ++ rt.held).any (·.id = id) then none
  else some { rt with held := ⟨id, now⟩ :: rt.held }

def Runtime.checkout (now id : ℕ) (rt : Runtime) : Option Runtime :=
  (rt.pool.find? (·.id = id)).map fun _ =>
    { rt with pool := others id rt.pool, held := ⟨id, now⟩ :: rt.held }

def Runtime.checkin (id : ℕ) (rt : Runtime) : Option Runtime :=
  (rt.held.find? (·.id = id)).map fun c =>
    { rt with pool := c :: rt.pool, held := others id rt.held }

/-- A broken connection goes to no pool. -/
def Runtime.discard (id : ℕ) (rt : Runtime) : Option Runtime :=
  (rt.held.find? (·.id = id)).map fun _ => { rt with held := others id rt.held }

def State.onRuntime (s : State) (name : String) (f : Runtime → Option Runtime) : Option State :=
  (s.envs[name]?.bind f).map fun rt => { s with envs := s.envs.insert name rt }

/-- The arm of `wake.notified()`. -/
def State.processWake (s : State) : State :=
  { s with wake := false, deadline := min s.deadline (s.now + currentReapInterval s.envs) }

/-- The arm of `sleep_until(deadline)`: environments without a timeout are skipped, and the
next deadline is a whole cadence away. -/
def State.sweep (s : State) : State :=
  let envs := s.envs.map fun _ rt => if rt.idleTimeout = 0 then rt else rt.reapIdle s.now
  { s with envs := envs, deadline := s.now + currentReapInterval envs }

def step (s : State) : Action → Option State
  | .wait d => if s.now + d ≤ s.deadline then some { s with now := s.now + d } else none
  | .add name idleTimeout =>
    some { s with envs := s.envs.insert name (.fresh idleTimeout), wake := true }
  | .remove name => some { s with envs := s.envs.erase name }
  | .rebuild name idleTimeout => s.onRuntime name fun _ => some (.fresh idleTimeout)
  | .wake => if s.wake then some s.processWake else none
  | .sweep => if s.wake = false ∧ s.deadline ≤ s.now then some s.sweep else none
  | .create name id => s.onRuntime name (Runtime.create s.now id)
  | .checkout name id => s.onRuntime name (Runtime.checkout s.now id)
  | .checkin name id => s.onRuntime name (Runtime.checkin id)
  | .discard name id => s.onRuntime name (Runtime.discard id)

abbrev Runs : State → List Action → State → Prop := Steps.Runs step

/-! ## What the cadence promises -/

theorem reaperInterval_mono {m n : ℕ} (h : m ≤ n) : reaperInterval m ≤ reaperInterval n := by
  unfold reaperInterval clamp secs
  split_ifs <;> omega

theorem reaperInterval_le_half {idleTimeout : ℕ} (h : secs 2 ≤ idleTimeout) :
    reaperInterval idleTimeout ≤ idleTimeout / 2 := by
  unfold secs at h
  unfold reaperInterval clamp secs
  split_ifs <;> omega

/-- The cadence is that of the tightest timeout. -/
theorem currentReapInterval_le {envs : Registry} {name : String} {rt : Runtime}
    (h : envs[name]? = some rt) (hpos : 0 < rt.idleTimeout) :
    currentReapInterval envs ≤ reaperInterval rt.idleTimeout := by
  have hmem : rt.idleTimeout ∈ (envs.toList.map fun e => e.2.idleTimeout).filter (· ≠ 0) := by
    refine List.mem_filter.mpr ⟨List.mem_map.mpr ⟨(name, rt), ?_, rfl⟩, by simpa using hpos.ne'⟩
    exact Std.ExtTreeMap.mem_toList_iff_getElem?_eq_some.mpr h
  unfold currentReapInterval
  cases hmin : ((envs.toList.map fun e => e.2.idleTimeout).filter (· ≠ 0)).min? with
  | none =>
    rw [List.min?_eq_none_iff.mp hmin] at hmem
    exact absurd hmem (List.not_mem_nil)
  | some tightest =>
    have hle : tightest ≤ rt.idleTimeout := (List.min?_eq_some_iff'.mp hmin).2 _ hmem
    exact reaperInterval_mono hle

/-! ## What a step can do -/

section
variable {s s' : State} {a : Action}

theorem onRuntime_eq_some {name : String} {f : Runtime → Option Runtime}
    (h : s.onRuntime name f = some s') : ∃ rt rt', s.envs[name]? = some rt ∧ f rt = some rt' ∧
      s' = { s with envs := s.envs.insert name rt' } := by
  obtain ⟨rt', hbind, rfl⟩ := Option.map_eq_some_iff.mp h
  obtain ⟨rt, hrt, hf⟩ := Option.bind_eq_some_iff.mp hbind
  exact ⟨rt, rt', hrt, hf, rfl⟩

theorem step_wait {d : ℕ} (h : step s (.wait d) = some s') :
    s.now + d ≤ s.deadline ∧ s' = { s with now := s.now + d } := by
  obtain ⟨hd, heq⟩ := Option.ite_none_right_eq_some.mp h
  exact ⟨hd, (Option.some.inj heq).symm⟩

theorem step_wake (h : step s .wake = some s') : s' = s.processWake := by
  obtain ⟨-, heq⟩ := Option.ite_none_right_eq_some.mp h
  exact (Option.some.inj heq).symm

theorem step_sweep (h : step s .sweep = some s') : s.deadline ≤ s.now ∧ s' = s.sweep := by
  obtain ⟨hdue, heq⟩ := Option.ite_none_right_eq_some.mp h
  exact ⟨hdue.2, (Option.some.inj heq).symm⟩

/-- The actions of sessions and of the control channel leave the clock and the deadline. -/
theorem step_clock (h : step s a = some s') :
    (∃ d, a = .wait d) ∨ a = .wake ∨ a = .sweep ∨ s'.now = s.now ∧ s'.deadline = s.deadline := by
  have hother {name : String} {f : Runtime → Option Runtime}
      (h : s.onRuntime name f = some s') : s'.now = s.now ∧ s'.deadline = s.deadline := by
    obtain ⟨rt, rt', -, -, rfl⟩ := onRuntime_eq_some h
    exact ⟨rfl, rfl⟩
  cases a with
  | wait d => exact Or.inl ⟨d, rfl⟩
  | wake => exact Or.inr (Or.inl rfl)
  | sweep => exact Or.inr (Or.inr (Or.inl rfl))
  | add name idleTimeout =>
    obtain rfl := Option.some.inj h
    exact Or.inr (Or.inr (Or.inr ⟨rfl, rfl⟩))
  | remove name =>
    obtain rfl := Option.some.inj h
    exact Or.inr (Or.inr (Or.inr ⟨rfl, rfl⟩))
  | rebuild name idleTimeout => exact Or.inr (Or.inr (Or.inr (hother h)))
  | create name id => exact Or.inr (Or.inr (Or.inr (hother h)))
  | checkout name id => exact Or.inr (Or.inr (Or.inr (hother h)))
  | checkin name id => exact Or.inr (Or.inr (Or.inr (hother h)))
  | discard name id => exact Or.inr (Or.inr (Or.inr (hother h)))

theorem step_deadline_le (h : step s a = some s') (hsweep : a ≠ .sweep) :
    s'.deadline ≤ s.deadline := by
  obtain ⟨d, rfl⟩ | rfl | rfl | ⟨-, hdeadline⟩ := step_clock h
  · obtain ⟨-, rfl⟩ := step_wait h
    exact le_rfl
  · rw [step_wake h]
    exact min_le_left _ _
  · exact absurd rfl hsweep
  · exact hdeadline.le

/-- Time does not pass the deadline. -/
theorem step_timely (h : step s a = some s') (hs : s.now ≤ s.deadline) :
    s'.now ≤ s'.deadline := by
  obtain ⟨d, rfl⟩ | rfl | rfl | ⟨hnow, hdeadline⟩ := step_clock h
  · obtain ⟨hd, rfl⟩ := step_wait h
    exact hd
  · rw [step_wake h]
    exact le_min hs (Nat.le_add_right _ _)
  · rw [(step_sweep h).2]
    exact Nat.le_add_right _ _
  · rwa [hnow, hdeadline]

/-- After a wake and after a sweep no live timeout has to wait longer than its own cadence. -/
theorem step_retuned (h : step s a = some s') (ha : a = .wake ∨ a = .sweep) {name : String}
    {rt : Runtime} (hrt : s'.envs[name]? = some rt) (hpos : 0 < rt.idleTimeout) :
    s'.deadline ≤ s'.now + reaperInterval rt.idleTimeout := by
  have hcadence := currentReapInterval_le hrt hpos
  rcases ha with rfl | rfl
  · obtain rfl := step_wake h
    exact (min_le_right _ _).trans (Nat.add_le_add_left hcadence _)
  · obtain ⟨-, rfl⟩ := step_sweep h
    exact Nat.add_le_add_left hcadence _

theorem sweep_getElem? (s : State) (name : String) : s.sweep.envs[name]? =
    s.envs[name]?.map fun rt => if rt.idleTimeout = 0 then rt else rt.reapIdle s.now :=
  Std.ExtTreeMap.getElem?_map

/-! ## An environment that stays -/

/-- The action puts another runtime under the name, or none. -/
def Action.replaces (name : String) : Action → Bool
  | .add name' _ | .remove name' | .rebuild name' _ => name' = name
  | _ => false

theorem step_live (h : step s a = some s') {name : String} (ha : a.replaces name = false)
    {rt : Runtime} (hrt : s.envs[name]? = some rt) :
    ∃ rt', s'.envs[name]? = some rt' ∧ rt'.idleTimeout = rt.idleTimeout := by
  have hpool {name' : String} {f : Runtime → Option Runtime}
      (h : s.onRuntime name' f = some s')
      (hf : ∀ rt rt', f rt = some rt' → rt'.idleTimeout = rt.idleTimeout) :
      ∃ rt', s'.envs[name]? = some rt' ∧ rt'.idleTimeout = rt.idleTimeout := by
    obtain ⟨old, new, hold, hnew, rfl⟩ := onRuntime_eq_some h
    by_cases hname : name' = name
    · subst hname
      obtain rfl := Option.some.inj (hold.symm.trans hrt)
      exact ⟨new, by simp, hf _ _ hnew⟩
    · exact ⟨rt, by simp [Std.ExtTreeMap.getElem?_insert, hname, hrt], rfl⟩
  cases a with
  | wait d =>
    obtain ⟨-, rfl⟩ := step_wait h
    exact ⟨rt, hrt, rfl⟩
  | wake =>
    obtain rfl := step_wake h
    exact ⟨rt, hrt, rfl⟩
  | sweep =>
    obtain ⟨-, rfl⟩ := step_sweep h
    rw [sweep_getElem?, hrt]
    refine ⟨_, rfl, ?_⟩
    dsimp only
    split_ifs <;> rfl
  | add name' idleTimeout =>
    obtain rfl := Option.some.inj h
    have hname : name' ≠ name := by simpa [Action.replaces] using ha
    exact ⟨rt, by simp [Std.ExtTreeMap.getElem?_insert, hname, hrt], rfl⟩
  | remove name' =>
    obtain rfl := Option.some.inj h
    have hname : name' ≠ name := by simpa [Action.replaces] using ha
    exact ⟨rt, by simp [Std.ExtTreeMap.getElem?_erase, hname, hrt], rfl⟩
  | rebuild name' idleTimeout =>
    have hname : name' ≠ name := by simpa [Action.replaces] using ha
    obtain ⟨old, new, -, -, rfl⟩ := onRuntime_eq_some h
    exact ⟨rt, by simp [Std.ExtTreeMap.getElem?_insert, hname, hrt], rfl⟩
  | create name' id =>
    refine hpool h fun rt rt' hrt' => ?_
    unfold Runtime.create at hrt'
    split_ifs at hrt'
    rw [← Option.some.inj hrt']
  | checkout name' id =>
    refine hpool h fun rt rt' hrt' => ?_
    obtain ⟨c, -, rfl⟩ := Option.map_eq_some_iff.mp hrt'
    rfl
  | checkin name' id =>
    refine hpool h fun rt rt' hrt' => ?_
    obtain ⟨c, -, rfl⟩ := Option.map_eq_some_iff.mp hrt'
    rfl
  | discard name' id =>
    refine hpool h fun rt rt' hrt' => ?_
    obtain ⟨c, -, rfl⟩ := Option.map_eq_some_iff.mp hrt'
    rfl

/-! ## Connections in a pool -/

def InPool (s : State) (name : String) (c : Conn) : Prop :=
  ∃ rt, s.envs[name]? = some rt ∧ c ∈ rt.pool

/-- A sweep leaves a connection that was checked out within its timeout. -/
theorem sweep_keeps {name : String} {rt : Runtime} {c : Conn} (hrt : s.envs[name]? = some rt)
    (hc : c ∈ rt.pool) (h : s.now < c.checkedOut + rt.idleTimeout) : InPool s.sweep name c := by
  refine ⟨_, (sweep_getElem? s name).trans (congrArg _ hrt), ?_⟩
  dsimp only
  split_ifs with hzero
  · exact hc
  · refine List.mem_filter.mpr ⟨hc, ?_⟩
    rw [shouldRetain, Bool.or_eq_true, decide_eq_true_eq]
    exact Or.inr (by omega)

/-- A sweep closes a connection that its timeout has passed over. -/
theorem sweep_closes {name : String} {rt : Runtime} {c : Conn} (hrt : s.envs[name]? = some rt)
    (hpos : 0 < rt.idleTimeout) (h : c.checkedOut + rt.idleTimeout ≤ s.now) :
    ¬ InPool s.sweep name c := by
  rintro ⟨rt', hrt', hc⟩
  rw [sweep_getElem?, hrt] at hrt'
  obtain rfl := Option.some.inj hrt'
  dsimp only at hc
  rw [if_neg hpos.ne'] at hc
  have hretain := (List.mem_filter.mp hc).2
  rw [shouldRetain, Bool.or_eq_true, beq_iff_eq, decide_eq_true_eq] at hretain
  omega

end

end MiddleWhere.Daemon.Reaper
