import MiddleWhere.Daemon.Reaper

/-!
# When the reaper closes a connection

A deadline set in time stays in time: wakes pull it earlier, and a sweep sets the next one
no further away than half the timeout of any environment that is live. So the first sweep
after a connection's timeout comes before one and a half of it.
-/

namespace MiddleWhere.Daemon.Reaper
open Steps

/-! ## Closed connections -/

/-- A sweep among the actions closed the connection, at `limit` or before. -/
def ClosedBy (s : State) (as : List Action) (name : String) (c : Conn) (limit : ℕ) : Prop :=
  ∃ before after m m', as = before ++ .sweep :: after ∧ Runs s before m ∧
    step m .sweep = some m' ∧ InPool m name c ∧ ¬ InPool m' name c ∧ m.now ≤ limit

theorem ClosedBy.mono {s : State} {as : List Action} {name : String} {c : Conn}
    {limit limit' : ℕ} (h : ClosedBy s as name c limit) (hle : limit ≤ limit')
    (more : List Action) : ClosedBy s (as ++ more) name c limit' := by
  obtain ⟨before, after, m, m', rfl, hm, hsweep, hin, hout, hnow⟩ := h
  refine ⟨before, after ++ more, m, m', ?_, hm, hsweep, hin, hout, hnow.trans hle⟩
  rw [List.append_assoc, List.cons_append]

/-- Once the time is `since`, the connection is in the pool for as long as no sweep has
closed it. -/
def Sits (s : State) (as : List Action) (name : String) (c : Conn) (since : ℕ) : Prop :=
  ∀ before m, before <+: as → Runs s before m → since ≤ m.now →
    InPool m name c ∨ ClosedBy s before name c m.now

/-! ## The bound -/

/-- What holds along a run in which the environment stays: the deadline is in time, or the
connection has been closed in time. -/
structure OnTime (s : State) (name : String) (idleTimeout : ℕ) (c : Conn) (limit : ℕ)
    (before : List Action) (m : State) : Prop where
  timely : m.now ≤ m.deadline
  live : ∃ rt, m.envs[name]? = some rt ∧ rt.idleTimeout = idleTimeout
  due : m.deadline ≤ limit ∨ ClosedBy s before name c limit

section
variable {s : State} {name : String} {idleTimeout : ℕ} {c : Conn} {as : List Action}

theorem OnTime.step {before : List Action} {m m' : State} {a : Action} {limit : ℕ}
    (hlimit : limit = c.checkedOut + idleTimeout + idleTimeout / 2)
    (hlong : secs 2 ≤ idleTimeout) (hsits : Sits s as name c (c.checkedOut + idleTimeout))
    (hbefore : before <+: as) (hm : Runs s before m) (hstep : Reaper.step m a = some m')
    (ha : a.replaces name = false) (h : OnTime s name idleTimeout c limit before m) :
    OnTime s name idleTimeout c limit (before ++ [a]) m' := by
  obtain ⟨rt, hrt, htimeout⟩ := h.live
  obtain ⟨rt', hrt', htimeout'⟩ := step_live hstep ha hrt
  refine ⟨step_timely hstep h.timely, ⟨rt', hrt', htimeout'.trans htimeout⟩, ?_⟩
  have hpos : 0 < idleTimeout := by
    unfold secs at hlong
    omega
  rcases h.due with hdeadline | hclosed
  · by_cases hsweep : a = .sweep
    · subst hsweep
      have hnow : m.now ≤ limit := h.timely.trans hdeadline
      obtain hearly | hpast := lt_or_ge m.now (c.checkedOut + idleTimeout)
      · -- before the timeout: the next sweep comes half a timeout later at most
        left
        have hretuned := step_retuned hstep (Or.inr rfl) hrt' (by omega)
        have hhalf := reaperInterval_le_half hlong
        obtain ⟨-, rfl⟩ := step_sweep hstep
        have hsame : m.sweep.now = m.now := rfl
        rw [htimeout', htimeout, hsame] at hretuned
        omega
      · right
        rcases hsits before m hbefore hm hpast with hin | hclosed
        · have hsame := (step_sweep hstep).2
          refine ⟨before, [], m, m', rfl, hm, hstep, hin, ?_, hnow⟩
          rw [hsame]
          exact sweep_closes hrt (htimeout ▸ hpos) (htimeout ▸ hpast)
        · exact hclosed.mono hnow [.sweep]
    · exact Or.inl ((step_deadline_le hstep hsweep).trans hdeadline)
  · exact Or.inr (hclosed.mono le_rfl [a])

/-- From a deadline in time on, a connection that sits in the pool once its timeout is over is
closed within half a timeout more. -/
theorem closed_in_time {s' : State} {rt : Runtime} (htimely : s.now ≤ s.deadline)
    (hrt : s.envs[name]? = some rt) (hlong : secs 2 ≤ rt.idleTimeout)
    (hdeadline : s.deadline ≤ s.now + reaperInterval rt.idleTimeout)
    (hafter : s.now ≤ c.checkedOut) (hstays : ∀ a ∈ as, a.replaces name = false)
    (hsits : Sits s as name c (c.checkedOut + rt.idleTimeout)) (h : Runs s as s')
    (hlate : c.checkedOut + rt.idleTimeout + rt.idleTimeout / 2 < s'.now) :
    ClosedBy s as name c (c.checkedOut + rt.idleTimeout + rt.idleTimeout / 2) := by
  have hhalf := reaperInterval_le_half hlong
  have hontime : OnTime s name rt.idleTimeout c
      (c.checkedOut + rt.idleTimeout + rt.idleTimeout / 2) as s' := by
    refine h.history ⟨htimely, ⟨rt, hrt, rfl⟩, Or.inl (by omega)⟩ ?_
    intro before a m m' hpre hm hstep hbefore
    have hmem : a ∈ as := hpre.subset (by simp)
    have hpre' : before <+: as := (List.prefix_append before [a]).trans hpre
    exact hbefore.step rfl hlong hsits hpre' hm hstep (hstays a hmem)
  rcases hontime.due with hdue | hclosed
  · have hnow := hontime.timely
    omega
  · exact hclosed

end

/-! ## Every run -/

theorem start_timely (now : ℕ) (timeouts : Table ℕ) :
    (start now timeouts).now ≤ (start now timeouts).deadline :=
  Nat.le_add_right _ _

theorem runs_timely {s s' : State} {as : List Action} (h : Runs s as s')
    (hs : s.now ≤ s.deadline) : s'.now ≤ s'.deadline :=
  h.keeps (I := fun m => m.now ≤ m.deadline) (fun _ _ _ _ hstep => step_timely hstep) hs

theorem runs_deadline_le {s s' : State} {as : List Action} (h : Runs s as s')
    (hsweep : .sweep ∉ as) : s'.deadline ≤ s.deadline := by
  refine h.keeps (I := fun m => m.deadline ≤ s.deadline) ?_ le_rfl
  intro a ha m m' hstep hm
  exact (step_deadline_le hstep (ne_of_mem_of_not_mem ha hsweep)).trans hm

/-- In every run of the reaper: a deadline moves later only by a sweep; after a wake and after
a sweep it is within the cadence of every live timeout; a connection that was checked out after
that, and that sits in the pool of an environment that stays, is closed within one and a half
of its timeout; and no sweep closes one that was checked out within it. -/
theorem reaper_schedule {now : ℕ} {timeouts : Table ℕ} {before : List Action} {s : State}
    (hs : Runs (start now timeouts) before s) :
    (∀ as s', Runs s as s' → .sweep ∉ as → s'.deadline ≤ s.deadline) ∧
    (∀ a s₀, step s a = some s₀ → a = .wake ∨ a = .sweep → ∀ name rt, s₀.envs[name]? = some rt →
      (0 < rt.idleTimeout → s₀.deadline ≤ s₀.now + reaperInterval rt.idleTimeout) ∧
      (secs 2 ≤ rt.idleTimeout → ∀ as s' c, Runs s₀ as s' →
        (∀ a ∈ as, a.replaces name = false) → s₀.now ≤ c.checkedOut →
        Sits s₀ as name c (c.checkedOut + rt.idleTimeout) →
        c.checkedOut + rt.idleTimeout + rt.idleTimeout / 2 < s'.now →
        ClosedBy s₀ as name c (c.checkedOut + rt.idleTimeout + rt.idleTimeout / 2))) ∧
    (∀ s' name rt c, step s .sweep = some s' → s.envs[name]? = some rt → c ∈ rt.pool →
      s.now < c.checkedOut + rt.idleTimeout → InPool s' name c) := by
  refine ⟨fun as s' has hsweep => runs_deadline_le has hsweep, ?_, ?_⟩
  · intro a s₀ hstep ha name rt hrt
    refine ⟨fun hpos => step_retuned hstep ha hrt hpos, ?_⟩
    intro hlong as s' c has hstays hafter hsits hlate
    have hpos : 0 < rt.idleTimeout := by
      unfold secs at hlong
      omega
    have htimely := step_timely hstep (runs_timely hs (start_timely now timeouts))
    exact closed_in_time htimely hrt hlong (step_retuned hstep ha hrt hpos) hafter hstays hsits has
      hlate
  · intro s' name rt c hstep hrt hc hearly
    rw [(step_sweep hstep).2]
    exact sweep_keeps hrt hc hearly

/-! ## A timeout of two seconds -/

/-- An environment is added to a daemon without any. -/
def addedState : State :=
  { start 0 ∅ with envs := (start 0 ∅).envs.insert "e" (.fresh (secs 2)), wake := true }

def idleConn : Conn := ⟨7, 0⟩

/-- A connection is used once; then a sweep comes every second. -/
def idleRun : List Action :=
  [.create "e" 7, .checkin "e" 7, .wait (secs 1), .sweep, .wait (secs 1), .sweep, .wait (secs 1),
    .sweep, .wait (secs 1)]

/-- The time and the pool after each number of actions. -/
def idleViews : List (ℕ × List Conn) :=
  [(0, []), (0, []), (0, [idleConn]), (secs 1, [idleConn]), (secs 1, [idleConn]),
    (secs 2, [idleConn]), (secs 2, []), (secs 3, []), (secs 3, []), (secs 4, [])]

theorem idleRun_views : ∀ n ∈ List.range 10,
    (((idleRun.take n).foldlM step addedState.processWake).bind fun m =>
      (m.envs["e"]?).map fun rt => (m.now, rt.pool)) = idleViews[n]? := by
  decide +kernel

theorem idleRun_view {n : ℕ} (hn : n < 10) : ∃ m rt,
    Runs addedState.processWake (idleRun.take n) m ∧ m.envs["e"]? = some rt ∧
      idleViews[n]? = some (m.now, rt.pool) := by
  have hview := idleRun_views n (List.mem_range.mpr hn)
  rw [List.getElem?_eq_getElem hn] at hview
  obtain ⟨m, hm, hmap⟩ := Option.bind_eq_some_iff.mp hview
  obtain ⟨rt, hrt, heq⟩ := Option.map_eq_some_iff.mp hmap
  exact ⟨m, rt, hm, hrt, (List.getElem?_eq_getElem hn).trans (congrArg some heq.symm)⟩

theorem idleRun_closed :
    ClosedBy addedState.processWake (idleRun.take 6) "e" idleConn (secs 2) := by
  obtain ⟨m, rt, hm, hrt, hview⟩ := idleRun_view (n := 5) (by decide)
  obtain ⟨m', rt', hm', hrt', hview'⟩ := idleRun_view (n := 6) (by decide)
  obtain ⟨hnow, hpool⟩ := Prod.mk.inj (Option.some.inj hview)
  obtain ⟨-, hpool'⟩ := Prod.mk.inj (Option.some.inj hview')
  have hstep : step m .sweep = some m' := by
    have hsix : Runs addedState.processWake (idleRun.take 5 ++ [Action.sweep]) m' := hm'
    obtain ⟨m₁, hm₁, hstep⟩ := runs_concat.mp hsix
    rwa [hm₁.det hm] at hstep
  refine ⟨idleRun.take 5, [], m, m', rfl, hm, hstep, ⟨rt, hrt, ?_⟩, ?_, hnow.ge⟩
  · rw [← hpool]
    exact List.mem_singleton_self _
  · rintro ⟨rt'', hrt'', hmem⟩
    obtain rfl := Option.some.inj (hrt'.symm.trans hrt'')
    rw [← hpool'] at hmem
    exact absurd hmem (List.not_mem_nil)

theorem idleRun_sits : Sits addedState.processWake idleRun "e" idleConn (0 + secs 2) := by
  intro before m hpre hm hsince
  rw [Nat.zero_add] at hsince
  have hlen : before.length < 10 := Nat.lt_succ_of_le hpre.length_le
  have htake : before = idleRun.take before.length := List.prefix_iff_eq_take.mp hpre
  generalize before.length = n at hlen htake
  subst htake
  obtain ⟨m₁, rt, hm₁, hrt, hview⟩ := idleRun_view hlen
  obtain rfl := hm₁.det hm
  obtain hearly | hlate := lt_or_ge n 6
  · left
    refine ⟨rt, hrt, ?_⟩
    -- up to the second sweep, the connection is there once two seconds are over
    have hthere : ∀ k ∈ List.range 6, ∀ v ∈ idleViews[k]?, secs 2 ≤ v.1 → idleConn ∈ v.2 := by
      decide
    exact hthere n (List.mem_range.mpr hearly) _ hview hsince
  · right
    have hmore : idleRun.take n = idleRun.take 6 ++ (idleRun.take n).drop 6 := by
      have hsplit := List.take_append_drop 6 (idleRun.take n)
      rwa [List.take_take, min_eq_left hlate, eq_comm] at hsplit
    rw [hmore]
    exact idleRun_closed.mono hsince _

theorem reaper_schedule_twoSeconds : ∃ before s s₀, Runs (start 0 ∅) before s ∧
    step s .wake = some s₀ ∧ Sits s₀ idleRun "e" idleConn (0 + secs 2) ∧
    ClosedBy s₀ idleRun "e" idleConn (0 + secs 2 + secs 2 / 2) := by
  have hs : Runs (start 0 ∅) [.add "e" (secs 2)] addedState := rfl
  have hrt : addedState.processWake.envs["e"]? = some (.fresh (secs 2)) :=
    Std.ExtTreeMap.getElem?_insert_self
  obtain ⟨s', rt, hrun, -, hview⟩ := idleRun_view (n := 9) (by decide)
  obtain ⟨hnow, -⟩ := Prod.mk.inj (Option.some.inj hview)
  refine ⟨_, addedState, addedState.processWake, hs, rfl, idleRun_sits, ?_⟩
  have hclosed := ((reaper_schedule hs).2.1 .wake addedState.processWake rfl (Or.inl rfl) "e" _
    hrt).2 le_rfl idleRun s' idleConn hrun (by decide) le_rfl idleRun_sits
  refine hclosed ?_
  rw [← hnow]
  decide

end MiddleWhere.Daemon.Reaper
