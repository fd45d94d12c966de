import MiddleWhere.Effects.Monitor

/-!
# Loops that read and handle messages

A session reads a message, handles it in its current state and goes on with the state that
the handler returns, until the reader or the handler ends it. Such a loop need not end, so
its runs are relations: `Run` is any number of turns that went on, `Handled` one more
message handled after such a run, to whatever end, and `Trace` all that was called by a loop
that was cut off anywhere.
-/

namespace MiddleWhere
open Prog

/-- `read` returns nothing at the end of the input, `handle` nothing when it ends the loop. -/
structure Loop (S : Sig) (ε β μ : Type) where
  read : Prog S ε (Option μ)
  handle : β → μ → Prog S ε (Option β)

/-- One message handled: the state it found, and what the handler called. -/
structure Turn (S : Sig) (β μ : Type) where
  state : β
  msg : μ
  trace : List (Event S)

namespace Loop

variable {S : Sig} {ε β μ σ : Type} (L : Loop S ε β μ) (M : Sem S σ)

inductive Run : β → σ → List (Turn S β μ) → β → σ → Prop
  | nil (b : β) (s : σ) : Run b s [] b s
  | turn {b b' b'' : β} {s s₁ s₂ s₃ : σ} {m : μ} {t₀ t : List (Event S)}
      {ts : List (Turn S β μ)} : Exec M L.read s t₀ (.ok (some m)) s₁ →
      Exec M (L.handle b m) s₁ t (.ok (some b')) s₂ → Run b' s₂ ts b'' s₃ →
      Run b s (⟨b, m, t⟩ :: ts) b'' s₃

/-- A message handled after a run, to the end `out`. -/
def Handled (b₀ : β) (s₀ : σ) (turn : Turn S β μ) (out : Outcome ε (Option β)) : Prop :=
  ∃ ts s s₁ s₂ t₀, L.Run M b₀ s₀ ts turn.state s ∧ Exec M L.read s t₀ (.ok (some turn.msg)) s₁ ∧
    Exec M (L.handle turn.state turn.msg) s₁ turn.trace out s₂

/-- A message handled after the run `ts`, to the end `out`. -/
def HandledAfter (b₀ : β) (s₀ : σ) (ts : List (Turn S β μ)) (turn : Turn S β μ)
    (out : Outcome ε (Option β)) : Prop :=
  ∃ s s₁ s₂ t₀, L.Run M b₀ s₀ ts turn.state s ∧ Exec M L.read s t₀ (.ok (some turn.msg)) s₁ ∧
    Exec M (L.handle turn.state turn.msg) s₁ turn.trace out s₂

inductive Trace : β → σ → List (Event S) → Prop
  | reading {b : β} {s s' : σ} {t : List (Event S)} : Stops M L.read s t s' → Trace b s t
  | handling {b : β} {s s₁ s₂ : σ} {m : μ} {t₀ t : List (Event S)} :
      Exec M L.read s t₀ (.ok (some m)) s₁ → Stops M (L.handle b m) s₁ t s₂ →
      Trace b s (t₀ ++ t)
  | turn {b b' : β} {s s₁ s₂ : σ} {m : μ} {t₀ t t' : List (Event S)} :
      Exec M L.read s t₀ (.ok (some m)) s₁ → Exec M (L.handle b m) s₁ t (.ok (some b')) s₂ →
      Trace b' s₂ t' → Trace b s (t₀ ++ (t ++ t'))

variable {L M}

/-- A monitor guards a loop when each turn brings it back to a state it can go on from. -/
theorem Trace.accepts {τ : Type} {mon : Monitor S τ} {I : τ → β → Prop} {J : τ → β → μ → Prop}
    (hread : ∀ x b s, I x b → mon.Guards M L.read x s fun x' out _ =>
      ∀ m, out = .ok (some m) → J x' b m)
    (hhandle : ∀ x b m s, J x b m → mon.Guards M (L.handle b m) x s fun x' out _ =>
      ∀ b', out = .ok (some b') → I x' b')
    {x : τ} {b : β} {s : σ} {t : List (Event S)} (h : L.Trace M b s t) (hI : I x b) :
    mon.Accepts x t := by
  induction h generalizing x with
  | reading hstops => exact (hread _ _ _ hI).accepts hstops
  | handling hexec hstops =>
    have hJ := (hread _ _ _ hI).ends hexec _ rfl
    have hacc := (hread _ _ _ hI).accepts hexec.stops
    exact Monitor.accepts_append.mpr ⟨hacc, (hhandle _ _ _ _ hJ).accepts hstops⟩
  | turn hexec hdone _ ih =>
    have hJ := (hread _ _ _ hI).ends hexec _ rfl
    have hI' := (hhandle _ _ _ _ hJ).ends hdone _ rfl
    refine Monitor.accepts_append.mpr ⟨(hread _ _ _ hI).accepts hexec.stops, ?_⟩
    exact Monitor.accepts_append.mpr ⟨(hhandle _ _ _ _ hJ).accepts hdone.stops, ih hI'⟩

theorem Trace.accepts_of_guards {τ : Type} {mon : Monitor S τ}
    (hread : ∀ x s, mon.Guards M L.read x s fun _ _ _ => True)
    (hhandle : ∀ x b m s, mon.Guards M (L.handle b m) x s fun _ _ _ => True)
    {b : β} {s : σ} {t : List (Event S)} (h : L.Trace M b s t) (x : τ) : mon.Accepts x t := by
  apply h.accepts (I := fun _ _ => True) (J := fun _ _ _ => True) _ _ trivial
  · exact fun x _ s _ => (hread x s).mono fun _ _ _ _ _ _ => trivial
  · exact fun x b m s _ => (hhandle x b m s).mono fun _ _ _ _ _ _ => trivial

theorem Run.append {b b' b'' : β} {s s' s'' : σ} {ts ts' : List (Turn S β μ)}
    (h : L.Run M b s ts b' s') (h' : L.Run M b' s' ts' b'' s'') :
    L.Run M b s (ts ++ ts') b'' s'' := by
  induction h with
  | nil b s => exact h'
  | turn hread hhandle _ ih => exact .turn hread hhandle (ih h')

/-- What every turn that goes on preserves holds after every run. -/
theorem Run.invariant {I : β → Prop} {b b' : β} {s s' : σ} {ts : List (Turn S β μ)}
    (hstep : ∀ b m s t b' s', I b → Exec M (L.handle b m) s t (.ok (some b')) s' → I b')
    (h : L.Run M b s ts b' s') (hb : I b) : I b' := by
  induction h with
  | nil b s => exact hb
  | turn _ hhandle _ ih => exact ih (hstep _ _ _ _ _ _ hb hhandle)

/-- What is recorded of the turns of a run keeps its relation to the state, when every turn
that goes on keeps it. -/
theorem Run.record {γ : Type} {g : γ → Turn S β μ → γ} {R : γ → β → Prop}
    (hstep : ∀ x b m s t b' s', R x b → Exec M (L.handle b m) s t (.ok (some b')) s' →
      R (g x ⟨b, m, t⟩) b')
    {b b' : β} {s s' : σ} {ts : List (Turn S β μ)} (h : L.Run M b s ts b' s') {x : γ}
    (hx : R x b) : R (ts.foldl g x) b' := by
  induction h generalizing x with
  | nil b s => exact hx
  | turn _ hhandle _ ih => exact ih (hstep _ _ _ _ _ _ _ hx hhandle)

/-- A relation between the turns so far and the state that every turn that goes on keeps. -/
theorem Run.history {R : List (Turn S β μ) → β → Prop}
    (hstep : ∀ ts b m s t b' s', R ts b → Exec M (L.handle b m) s t (.ok (some b')) s' →
      R (ts ++ [⟨b, m, t⟩]) b')
    {b b' : β} {s s' : σ} {ts : List (Turn S β μ)} (h : L.Run M b s ts b' s') (hb : R [] b) :
    R ts b' := by
  have hlast : R (ts.foldl (fun ts turn => ts ++ [turn]) []) b' := h.record hstep hb
  rwa [List.foldl_append_eq_append, List.nil_append, ← List.flatMap_def,
    List.flatMap_singleton'] at hlast

/-- Each turn of a run was handled after the turns before it. -/
theorem Run.handledAfter {b b' : β} {s s' : σ} {pre post : List (Turn S β μ)}
    {turn : Turn S β μ} (h : L.Run M b s (pre ++ turn :: post) b' s') :
    ∃ out, L.HandledAfter M b s pre turn (.ok (some out)) := by
  generalize hts : pre ++ turn :: post = ts at h
  induction h generalizing pre with
  | nil b s => simp at hts
  | @turn b b' b'' s s₁ s₂ s₃ m t₀ t ts hread hhandle hrun ih =>
    cases pre with
    | nil =>
      obtain ⟨rfl, rfl⟩ := List.cons.inj hts
      exact ⟨b', s, s₁, s₂, t₀, .nil _ _, hread, hhandle⟩
    | cons first pre =>
      obtain ⟨rfl, hrest⟩ := List.cons.inj hts
      obtain ⟨out, s', s₁', s₂', t₀', hrun', hread', hhandle'⟩ := ih hrest
      exact ⟨out, s', s₁', s₂', t₀', .turn hread hhandle hrun', hread', hhandle'⟩

/-- The first message of a loop. -/
theorem handled_first {b : β} {s s₁ s₂ : σ} {m : μ} {t₀ t : List (Event S)}
    {out : Outcome ε (Option β)} (hread : Exec M L.read s t₀ (.ok (some m)) s₁)
    (hhandle : Exec M (L.handle b m) s₁ t out s₂) : L.Handled M b s ⟨b, m, t⟩ out :=
  ⟨[], s, s₁, s₂, t₀, .nil b s, hread, hhandle⟩

/-- Each turn of a run was handled. -/
theorem Run.handled {b b' : β} {s s' : σ} {ts : List (Turn S β μ)}
    (h : L.Run M b s ts b' s') {turn : Turn S β μ} (hmem : turn ∈ ts) :
    ∃ out, L.Handled M b s turn (.ok (some out)) := by
  obtain ⟨pre, post, rfl⟩ := List.append_of_mem hmem
  obtain ⟨out, hafter⟩ := h.handledAfter
  exact ⟨out, pre, hafter⟩

end Loop
end MiddleWhere
