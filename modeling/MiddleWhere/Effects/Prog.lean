import MiddleWhere.Effects.Outcome

/-!
# Programs over an interface

A program either ends or calls one operation of its interface and continues with the
answer. What an operation does is not part of the program: a semantics says, for each
state, which answers an operation may give and which state it leaves behind. A failing
disk, a peer that hangs up and a pool that hands out any idle connection are all
semantics with more than one answer.

`Exec` is a complete execution with its trace of calls, `Stops` one that is cut off after
any number of calls. `wp` reads a specification backwards through a program; its rules
follow the constructors of programs and compose along `bind`.
-/

namespace MiddleWhere

structure Sig where
  Op : Type
  Res : Op → Type

/-- One call of an operation, with the answer it got. -/
structure Event (S : Sig) where
  op : S.Op
  res : S.Res op

inductive Prog (S : Sig) (ε α : Type)
  | halt (out : Outcome ε α)
  | call (o : S.Op) (k : S.Res o → Prog S ε α)

namespace Prog

variable {S : Sig} {ε ε' α β γ σ : Type}

def bind : Prog S ε α → (α → Prog S ε β) → Prog S ε β
  | .halt (.ok a), f => f a
  | .halt (.err e), _ => .halt (.err e)
  | .halt .panic, _ => .halt .panic
  | .call o k, f => .call o fun r => (k r).bind f

instance : Monad (Prog S ε) where
  pure a := .halt (.ok a)
  bind := Prog.bind

def perform (o : S.Op) : Prog S ε (S.Res o) := .call o fun r => .halt (.ok r)

def fail (e : ε) : Prog S ε α := .halt (.err e)

/-- Catches errors, as a `match` on a result does; panics pass through. -/
def attempt : Prog S ε α → Prog S ε' (Except ε α)
  | .halt out => .halt out.attempt
  | .call o k => .call o fun r => (k r).attempt

/-- Turns an answer that may be an error into an early return, as `?` does. -/
def ofExcept : Except ε α → Prog S ε α
  | .ok a => .halt (.ok a)
  | .error e => .halt (.err e)

def mapErr (f : ε → ε') : Prog S ε α → Prog S ε' α
  | .halt out => .halt (out.mapErr f)
  | .call o k => .call o fun r => (k r).mapErr f

/-- Performs `o` once `p` has returned or failed, as a destructor does. A panic ends the
process and runs nothing. -/
def finally_ (o : S.Op) : Prog S ε α → Prog S ε α
  | .halt .panic => .halt .panic
  | .halt out => .call o fun _ => .halt out
  | .call o' k => .call o' fun r => (k r).finally_ o

/-- A pure computation that may panic. -/
def lift (x : Outcome ε α) : Prog S ε α := .halt x

@[simp] theorem pure_eq (a : α) : (pure a : Prog S ε α) = .halt (.ok a) := rfl
@[simp] theorem bind_eq (p : Prog S ε α) (f : α → Prog S ε β) : (p >>= f) = p.bind f := rfl
@[simp] theorem halt_ok_bind (a : α) (f : α → Prog S ε β) :
    (Prog.halt (.ok a)).bind f = f a := rfl
@[simp] theorem halt_err_bind (e : ε) (f : α → Prog S ε β) :
    (Prog.halt (.err e) : Prog S ε α).bind f = .halt (.err e) := rfl
@[simp] theorem halt_panic_bind (f : α → Prog S ε β) :
    (Prog.halt .panic : Prog S ε α).bind f = .halt .panic := rfl
@[simp] theorem call_bind (o : S.Op) (k : S.Res o → Prog S ε α) (f : α → Prog S ε β) :
    (Prog.call o k).bind f = .call o fun r => (k r).bind f := rfl

@[simp] theorem ofExcept_ok (a : α) :
    (ofExcept (.ok a) : Prog S ε α) = .halt (.ok a) := rfl
@[simp] theorem ofExcept_error (e : ε) :
    (ofExcept (.error e) : Prog S ε α) = .halt (.err e) := rfl

theorem bind_ok (p : Prog S ε α) : p.bind (fun a => .halt (.ok a)) = p := by
  induction p with
  | halt out => cases out <;> rfl
  | call o k ih => simp only [call_bind, ih]

theorem bind_assoc (p : Prog S ε α) (f : α → Prog S ε β) (g : β → Prog S ε γ) :
    (p.bind f).bind g = p.bind fun a => (f a).bind g := by
  induction p with
  | halt out => cases out <;> rfl
  | call o k ih => simp only [call_bind, ih]

/-! ## The operations of a program -/

/-- Every operation that `p` can call is in `A`. -/
def Uses (A : S.Op → Prop) : Prog S ε α → Prop
  | .halt _ => True
  | .call o k => A o ∧ ∀ r, (k r).Uses A

variable {A : S.Op → Prop}

@[simp] theorem uses_halt (out : Outcome ε α) : (Prog.halt out : Prog S ε α).Uses A := trivial

@[simp] theorem uses_call {o : S.Op} {k : S.Res o → Prog S ε α} :
    (Prog.call o k).Uses A ↔ A o ∧ ∀ r, (k r).Uses A := Iff.rfl

theorem uses_ofExcept (x : Except ε α) : (ofExcept x : Prog S ε α).Uses A := by
  cases x <;> trivial

theorem uses_bind {p : Prog S ε α} {f : α → Prog S ε β} (hp : p.Uses A)
    (hf : ∀ a, (f a).Uses A) : (p.bind f).Uses A := by
  induction p with
  | halt out =>
    cases out with
    | ok a => exact hf a
    | err e => trivial
    | panic => trivial
  | call o k ih => exact ⟨hp.1, fun r => ih r (hp.2 r)⟩

theorem uses_mapErr {f : ε → ε'} {p : Prog S ε α} (hp : p.Uses A) : (p.mapErr f).Uses A := by
  induction p with
  | halt out => cases out <;> trivial
  | call o k ih => exact ⟨hp.1, fun r => ih r (hp.2 r)⟩

theorem uses_attempt {p : Prog S ε α} (hp : p.Uses A) :
    (p.attempt : Prog S ε' (Except ε α)).Uses A := by
  induction p with
  | halt out => trivial
  | call o k ih => exact ⟨hp.1, fun r => ih r (hp.2 r)⟩

theorem uses_finally {o : S.Op} (ho : A o) {p : Prog S ε α} (hp : p.Uses A) :
    (p.finally_ o).Uses A := by
  induction p with
  | halt out =>
    cases out with
    | ok a => exact ⟨ho, fun _ => trivial⟩
    | err e => exact ⟨ho, fun _ => trivial⟩
    | panic => trivial
  | call o' k ih => exact ⟨hp.1, fun r => ih r (hp.2 r)⟩

theorem uses_mono {A' : S.Op → Prop} (hA : ∀ o, A o → A' o) {p : Prog S ε α} (hp : p.Uses A) :
    p.Uses A' := by
  induction p with
  | halt out => trivial
  | call o k ih => exact ⟨hA o hp.1, fun r => ih r (hp.2 r)⟩

/-! ## Executions -/

/-- `M s o r s'`: in state `s` the operation `o` may answer `r` and leave `s'`. -/
abbrev Sem (S : Sig) (σ : Type) := σ → (o : S.Op) → S.Res o → σ → Prop

/-- Every operation may answer anything. -/
def Sem.free (S : Sig) : Sem S Unit := fun _ _ _ _ => True

inductive Exec (M : Sem S σ) : Prog S ε α → σ → List (Event S) → Outcome ε α → σ → Prop
  | halt (out : Outcome ε α) (s : σ) : Exec M (.halt out) s [] out s
  | call {o : S.Op} {k : S.Res o → Prog S ε α} {s s' s'' : σ} {r : S.Res o}
      {t : List (Event S)} {out : Outcome ε α} :
      M s o r s' → Exec M (k r) s' t out s'' → Exec M (.call o k) s (⟨o, r⟩ :: t) out s''

/-- An execution cut off after the calls of its trace. -/
inductive Stops (M : Sem S σ) : Prog S ε α → σ → List (Event S) → σ → Prop
  | here (p : Prog S ε α) (s : σ) : Stops M p s [] s
  | call {o : S.Op} {k : S.Res o → Prog S ε α} {s s' s'' : σ} {r : S.Res o}
      {t : List (Event S)} :
      M s o r s' → Stops M (k r) s' t s'' → Stops M (.call o k) s (⟨o, r⟩ :: t) s''

variable {M : Sem S σ}

theorem Exec.stops {p : Prog S ε α} {s s' : σ} {t : List (Event S)} {out : Outcome ε α}
    (h : Exec M p s t out s') : Stops M p s t s' := by
  induction h with
  | halt out s => exact .here _ s
  | call hM _ ih => exact .call hM ih

/-- Every answer in a trace is one that the semantics gives. -/
theorem Exec.answers {p : Prog S ε α} {s s' : σ} {t : List (Event S)} {out : Outcome ε α}
    (h : Exec M p s t out s') : ∀ e ∈ t, ∃ s₁ s₂, M s₁ e.op e.res s₂ := by
  induction h with
  | halt out s => exact nofun
  | call hM _ ih => exact List.forall_mem_cons.mpr ⟨⟨_, _, hM⟩, ih⟩

/-- An execution in any world is one in the world where every answer is possible. -/
theorem Exec.free {p : Prog S ε α} {s s' : σ} {t : List (Event S)} {out : Outcome ε α}
    (h : Exec M p s t out s') : Exec (Sem.free S) p () t out () := by
  induction h with
  | halt out s => exact .halt out ()
  | call hM _ ih => exact .call trivial ih

/-- One call of an execution whose world has no state. -/
theorem Exec.step {N : Sem S Unit} {o : S.Op} {k : S.Res o → Prog S ε α} {r : S.Res o}
    {t : List (Event S)} {out : Outcome ε α} (hN : N () o r ()) (h : Exec N (k r) () t out ()) :
    Exec N (.call o k) () (⟨o, r⟩ :: t) out () :=
  .call hN h

theorem exec_halt_iff {out out' : Outcome ε α} {s s' : σ} {t : List (Event S)} :
    Exec M (.halt out) s t out' s' ↔ t = [] ∧ out' = out ∧ s' = s := by
  constructor
  · intro h
    cases h
    exact ⟨rfl, rfl, rfl⟩
  · rintro ⟨rfl, rfl, rfl⟩
    exact .halt _ _

theorem exec_call_iff {o : S.Op} {k : S.Res o → Prog S ε α} {s s'' : σ}
    {t : List (Event S)} {out : Outcome ε α} :
    Exec M (.call o k) s t out s'' ↔
      ∃ r s' t', M s o r s' ∧ Exec M (k r) s' t' out s'' ∧ t = ⟨o, r⟩ :: t' := by
  constructor
  · intro h
    cases h with
    | call hM hk => exact ⟨_, _, _, hM, hk, rfl⟩
  · rintro ⟨r, s', t', hM, hk, rfl⟩
    exact .call hM hk

theorem stops_halt_iff {out : Outcome ε α} {s s' : σ} {t : List (Event S)} :
    Stops M (.halt out) s t s' ↔ t = [] ∧ s' = s := by
  constructor
  · intro h
    cases h
    exact ⟨rfl, rfl⟩
  · rintro ⟨rfl, rfl⟩
    exact .here _ _

theorem stops_call_iff {o : S.Op} {k : S.Res o → Prog S ε α} {s s'' : σ}
    {t : List (Event S)} :
    Stops M (.call o k) s t s'' ↔
      (t = [] ∧ s'' = s) ∨
      ∃ r s' t', M s o r s' ∧ Stops M (k r) s' t' s'' ∧ t = ⟨o, r⟩ :: t' := by
  constructor
  · intro h
    cases h with
    | here => exact Or.inl ⟨rfl, rfl⟩
    | call hM hk => exact Or.inr ⟨_, _, _, hM, hk, rfl⟩
  · rintro (⟨rfl, rfl⟩ | ⟨r, s', t', hM, hk, rfl⟩)
    · exact .here _ _
    · exact .call hM hk

theorem exists_stops_call {o : S.Op} {k : S.Res o → Prog S ε α} {s s' s'' : σ} (r : S.Res o)
    (hM : M s o r s') (h : ∃ t, Stops M (k r) s' t s'') : ∃ t, Stops M (.call o k) s t s'' := by
  obtain ⟨t, ht⟩ := h
  exact ⟨_, .call hM ht⟩

theorem exists_exec_call {o : S.Op} {k : S.Res o → Prog S ε α} {s s' : σ} {out : Outcome ε α}
    (r : S.Res o) (hM : M s o r s') (h : ∃ t s'', Exec M (k r) s' t out s'') :
    ∃ t s'', Exec M (.call o k) s t out s'' := by
  obtain ⟨t, s'', ht⟩ := h
  exact ⟨_, s'', .call hM ht⟩

/-- Where every operation can answer, every program has an execution. -/
theorem exists_exec (hM : ∀ s o, ∃ r s', M s o r s') (p : Prog S ε α) (s : σ) :
    ∃ t out s', Exec M p s t out s' := by
  induction p generalizing s with
  | halt out => exact ⟨[], out, s, .halt out s⟩
  | call o k ih =>
    obtain ⟨r, s', hcall⟩ := hM s o
    obtain ⟨t, out, s'', hrest⟩ := ih r s'
    exact ⟨_, out, s'', .call hcall hrest⟩

/-- A composed program runs its first part to the end and goes on only from a value. -/
theorem exec_bind_iff {p : Prog S ε α} {f : α → Prog S ε β} {s s'' : σ}
    {t : List (Event S)} {out : Outcome ε β} :
    Exec M (p.bind f) s t out s'' ↔
      (∃ a t₁ t₂ s', Exec M p s t₁ (.ok a) s' ∧ Exec M (f a) s' t₂ out s'' ∧ t = t₁ ++ t₂) ∨
      (∃ e, out = .err e ∧ Exec M p s t (.err e) s'') ∨
      (out = .panic ∧ Exec M p s t .panic s'') := by
  induction p generalizing s t with
  | halt o =>
    cases o with
    | ok a =>
      simp only [halt_ok_bind, exec_halt_iff]
      constructor
      · intro h
        exact Or.inl ⟨a, [], t, s, ⟨rfl, rfl, rfl⟩, h, rfl⟩
      · rintro (⟨b, t₁, t₂, s', ⟨rfl, hb, rfl⟩, h, rfl⟩ | ⟨e, _, _, he, _⟩ | ⟨_, _, he, _⟩)
        · cases hb
          simpa using h
        · cases he
        · cases he
    | err e => simp only [halt_err_bind, exec_halt_iff]; aesop
    | panic => simp only [halt_panic_bind, exec_halt_iff]; aesop
  | call o k ih =>
    simp only [call_bind, exec_call_iff, ih]
    constructor
    · rintro ⟨r, s', t', hM, ⟨a, t₁, t₂, s₁, hp, hf, rfl⟩ | ⟨e, rfl, hp⟩ | ⟨rfl, hp⟩, rfl⟩
      · exact Or.inl ⟨a, _, t₂, s₁, ⟨r, s', t₁, hM, hp, rfl⟩, hf, rfl⟩
      · exact Or.inr (Or.inl ⟨e, rfl, r, s', t', hM, hp, rfl⟩)
      · exact Or.inr (Or.inr ⟨rfl, r, s', t', hM, hp, rfl⟩)
    · rintro (⟨a, _, t₂, s₁, ⟨r, s', t₁, hM, hp, rfl⟩, hf, rfl⟩ |
        ⟨e, rfl, r, s', t', hM, hp, rfl⟩ | ⟨rfl, r, s', t', hM, hp, rfl⟩)
      · exact ⟨r, s', t₁ ++ t₂, hM, Or.inl ⟨a, t₁, t₂, s₁, hp, hf, rfl⟩, rfl⟩
      · exact ⟨r, s', t', hM, Or.inr (Or.inl ⟨e, rfl, hp⟩), rfl⟩
      · exact ⟨r, s', t', hM, Or.inr (Or.inr ⟨rfl, hp⟩), rfl⟩

/-- Two executions run one after the other. -/
theorem Exec.bind {p : Prog S ε α} {f : α → Prog S ε β} {a : α} {s s' s'' : σ}
    {t t' : List (Event S)} {out : Outcome ε β} (hp : Exec M p s t (.ok a) s')
    (hf : Exec M (f a) s' t' out s'') : Exec M (p.bind f) s (t ++ t') out s'' :=
  exec_bind_iff.mpr (Or.inl ⟨a, t, t', s', hp, hf, rfl⟩)

theorem Exec.attempt {p : Prog S ε α} {s s' : σ} {t : List (Event S)} {out : Outcome ε α}
    (h : Exec M p s t out s') : Exec M (p.attempt : Prog S ε' (Except ε α)) s t out.attempt s' := by
  induction h with
  | halt out s => exact .halt _ _
  | call hM _ ih => exact .call hM ih

theorem stops_bind_iff {p : Prog S ε α} {f : α → Prog S ε β} {s s'' : σ}
    {t : List (Event S)} :
    Stops M (p.bind f) s t s'' ↔
      Stops M p s t s'' ∨
      ∃ a t₁ t₂ s', Exec M p s t₁ (.ok a) s' ∧ Stops M (f a) s' t₂ s'' ∧ t = t₁ ++ t₂ := by
  induction p generalizing s t with
  | halt o =>
    cases o with
    | ok a =>
      simp only [halt_ok_bind, exec_halt_iff, stops_halt_iff]
      constructor
      · intro h
        exact Or.inr ⟨a, [], t, s, ⟨rfl, rfl, rfl⟩, h, rfl⟩
      · rintro (⟨rfl, rfl⟩ | ⟨b, t₁, t₂, s', ⟨rfl, hb, rfl⟩, h, rfl⟩)
        · exact .here _ _
        · cases hb
          simpa using h
    | err e => simp [exec_halt_iff, stops_halt_iff]
    | panic => simp [exec_halt_iff, stops_halt_iff]
  | call o k ih =>
    simp only [call_bind, stops_call_iff, exec_call_iff, ih]
    constructor
    · rintro (⟨rfl, rfl⟩ | ⟨r, s', t', hM, hk | ⟨a, t₁, t₂, s₁, hp, hf, rfl⟩, rfl⟩)
      · exact Or.inl (Or.inl ⟨rfl, rfl⟩)
      · exact Or.inl (Or.inr ⟨r, s', t', hM, hk, rfl⟩)
      · exact Or.inr ⟨a, _, t₂, s₁, ⟨r, s', t₁, hM, hp, rfl⟩, hf, rfl⟩
    · rintro ((⟨rfl, rfl⟩ | ⟨r, s', t', hM, hk, rfl⟩) |
        ⟨a, _, t₂, s₁, ⟨r, s', t₁, hM, hp, rfl⟩, hf, rfl⟩)
      · exact Or.inl ⟨rfl, rfl⟩
      · exact Or.inr ⟨r, s', t', hM, Or.inl hk, rfl⟩
      · exact Or.inr ⟨r, s', t₁ ++ t₂, hM, Or.inr ⟨a, t₁, t₂, s₁, hp, hf, rfl⟩, rfl⟩

theorem Stops.uses {p : Prog S ε α} {s s' : σ} {t : List (Event S)} (h : Stops M p s t s')
    (hp : p.Uses A) : ∀ e ∈ t, A e.op := by
  induction h with
  | here p s => exact nofun
  | call hM _ ih => exact List.forall_mem_cons.mpr ⟨hp.1, ih (hp.2 _)⟩

/-! ## Specifications read backwards -/

/-- Every execution from `s` ends with a trace, an outcome and a state in `Q`. -/
def wp (M : Sem S σ) (p : Prog S ε α) (Q : List (Event S) → Outcome ε α → σ → Prop)
    (s : σ) : Prop :=
  ∀ t out s', Exec M p s t out s' → Q t out s'

theorem wp_halt {out : Outcome ε α} {Q : List (Event S) → Outcome ε α → σ → Prop} {s : σ} :
    wp M (.halt out) Q s ↔ Q [] out s := by
  simp only [wp, exec_halt_iff]
  constructor
  · intro h
    exact h [] out s ⟨rfl, rfl, rfl⟩
  · rintro h t out' s' ⟨rfl, rfl, rfl⟩
    exact h

theorem wp_call {o : S.Op} {k : S.Res o → Prog S ε α}
    {Q : List (Event S) → Outcome ε α → σ → Prop} {s : σ} :
    wp M (.call o k) Q s ↔
      ∀ r s', M s o r s' → wp M (k r) (fun t out s'' => Q (⟨o, r⟩ :: t) out s'') s' := by
  simp only [wp, exec_call_iff]
  constructor
  · intro h r s' hM t out s'' hk
    exact h _ _ _ ⟨r, s', t, hM, hk, rfl⟩
  · rintro h t out s'' ⟨r, s', t', hM, hk, rfl⟩
    exact h r s' hM t' out s'' hk

theorem wp_mono {p : Prog S ε α} {Q Q' : List (Event S) → Outcome ε α → σ → Prop} {s : σ}
    (h : wp M p Q s) (hQ : ∀ t out s', Q t out s' → Q' t out s') : wp M p Q' s :=
  fun t out s' hp => hQ t out s' (h t out s' hp)

theorem wp_and {p : Prog S ε α} {Q Q' : List (Event S) → Outcome ε α → σ → Prop} {s : σ}
    (h : wp M p Q s) (h' : wp M p Q' s) :
    wp M p (fun t out s' => Q t out s' ∧ Q' t out s') s :=
  fun t out s' hp => ⟨h t out s' hp, h' t out s' hp⟩

/-- The part of a specification left to the continuation, once the first part has ended. -/
def after (M : Sem S σ) (f : α → Prog S ε β) (Q : List (Event S) → Outcome ε β → σ → Prop) :
    List (Event S) → Outcome ε α → σ → Prop
  | t, .ok a, s => wp M (f a) (fun t' out s' => Q (t ++ t') out s') s
  | t, .err e, s => Q t (.err e) s
  | t, .panic, s => Q t .panic s

theorem wp_bind {p : Prog S ε α} {f : α → Prog S ε β}
    {Q : List (Event S) → Outcome ε β → σ → Prop} {s : σ} :
    wp M (p.bind f) Q s ↔ wp M p (after M f Q) s := by
  constructor
  · intro h t out s' hp
    cases out with
    | ok a =>
      intro t' out' s'' hf
      exact h _ _ _ (exec_bind_iff.mpr (Or.inl ⟨a, t, t', s', hp, hf, rfl⟩))
    | err e => exact h _ _ _ (exec_bind_iff.mpr (Or.inr (Or.inl ⟨e, rfl, hp⟩)))
    | panic => exact h _ _ _ (exec_bind_iff.mpr (Or.inr (Or.inr ⟨rfl, hp⟩)))
  · intro h t out s'' hb
    obtain ⟨a, t₁, t₂, s', hp, hf, rfl⟩ | ⟨e, rfl, hp⟩ | ⟨rfl, hp⟩ := exec_bind_iff.mp hb
    · exact h _ _ _ hp _ _ _ hf
    · exact h _ _ _ hp
    · exact h _ _ _ hp

/-- Nothing is called after `p`. -/
theorem wp_bind_halt {p : Prog S ε α} {b : β}
    {Q : List (Event S) → Outcome ε β → σ → Prop} {s : σ} :
    wp M (p.bind fun _ => .halt (.ok b)) Q s ↔
      wp M p (fun t out s' => Q t (out >>= fun _ => .ok b) s') s := by
  induction p generalizing s Q with
  | halt out => cases out <;> simp only [halt_ok_bind, halt_err_bind, halt_panic_bind, wp_halt,
      Outcome.ok_bind, Outcome.err_bind, Outcome.panic_bind]
  | call o k ih => simp only [call_bind, wp_call, ih]

theorem wp_mapErr {f : ε → ε'} {p : Prog S ε α} {Q : List (Event S) → Outcome ε' α → σ → Prop}
    {s : σ} : wp M (p.mapErr f) Q s ↔ wp M p (fun t out s' => Q t (out.mapErr f) s') s := by
  induction p generalizing s Q with
  | halt out => cases out <;> simp only [mapErr, Outcome.mapErr, wp_halt]
  | call o k ih => simp only [mapErr, wp_call, ih]

theorem wp_attempt {p : Prog S ε α} {Q : List (Event S) → Outcome ε' (Except ε α) → σ → Prop}
    {s : σ} : wp M p.attempt Q s ↔ wp M p (fun t out s' => Q t out.attempt s') s := by
  induction p generalizing s Q with
  | halt out => simp only [Prog.attempt, wp_halt]
  | call o k ih => simp only [Prog.attempt, wp_call, ih]

theorem wp_finally {o : S.Op} {p : Prog S ε α}
    {Q : List (Event S) → Outcome ε α → σ → Prop} {s : σ} :
    wp M (p.finally_ o) Q s ↔ wp M p (fun t out s' => match out with
      | .panic => Q t .panic s'
      | out => ∀ r s'', M s' o r s'' → Q (t ++ [⟨o, r⟩]) out s'') s := by
  induction p generalizing s Q with
  | halt out => cases out <;> simp only [finally_, wp_halt, wp_call, List.nil_append]
  | call o' k ih => simp only [finally_, wp_call, ih, List.cons_append]

theorem Exec.mono {M' : Sem S σ} (hM : ∀ s o r s', M s o r s' → M' s o r s') {p : Prog S ε α}
    {s s' : σ} {t : List (Event S)} {out : Outcome ε α} (h : Exec M p s t out s') :
    Exec M' p s t out s' := by
  induction h with
  | halt out s => exact .halt _ _
  | call hcall _ ih => exact .call (hM _ _ _ _ hcall) ih

/-- The destructor runs after a program that returns. -/
theorem Exec.finally {o : S.Op} {r : S.Res o} {p : Prog S ε α} {s s' s'' : σ}
    {t : List (Event S)} {a : α} (h : Exec M p s t (.ok a) s') (hM : M s' o r s'') :
    Exec M (p.finally_ o) s (t ++ [⟨o, r⟩]) (.ok a) s'' := by
  generalize hout : (.ok a : Outcome ε α) = out at h ⊢
  induction h with
  | halt out s =>
    subst hout
    exact .call hM (.halt _ _)
  | call hcall _ ih => exact .call hcall (ih hM hout)

/-- The last call of a program with a destructor is the destructor's, if the process lived. -/
theorem Exec.of_finally {o : S.Op} {p : Prog S ε α} {s s' : σ} {t : List (Event S)}
    {out : Outcome ε α} (h : Exec M (p.finally_ o) s t out s') :
    ∃ t₀ s₀ rest, Exec M p s t₀ out s₀ ∧ t = t₀ ++ rest ∧ (rest = [] ∨ ∃ r, rest = [⟨o, r⟩]) := by
  induction p generalizing s t with
  | halt out' =>
    cases out' with
    | ok a =>
      obtain ⟨r, s₁, t', -, ht', rfl⟩ := exec_call_iff.mp h
      obtain ⟨rfl, rfl, rfl⟩ := exec_halt_iff.mp ht'
      exact ⟨[], s, _, .halt _ _, rfl, Or.inr ⟨r, rfl⟩⟩
    | err e =>
      obtain ⟨r, s₁, t', -, ht', rfl⟩ := exec_call_iff.mp h
      obtain ⟨rfl, rfl, rfl⟩ := exec_halt_iff.mp ht'
      exact ⟨[], s, _, .halt _ _, rfl, Or.inr ⟨r, rfl⟩⟩
    | panic =>
      obtain ⟨rfl, rfl, rfl⟩ := exec_halt_iff.mp h
      exact ⟨[], s', [], .halt _ _, rfl, Or.inl rfl⟩
  | call o' k ih =>
    obtain ⟨r, s₁, t', hM, ht', rfl⟩ := exec_call_iff.mp h
    obtain ⟨t₀, s₀, rest, hexec, rfl, hrest⟩ := ih r ht'
    exact ⟨_, s₀, rest, .call hM hexec, rfl, hrest⟩

/-! ## Programs that do not panic -/

def Safe (M : Sem S σ) (p : Prog S ε α) (s : σ) : Prop := wp M p (fun _ out _ => out.Safe) s

@[simp] theorem safe_halt {out : Outcome ε α} {s : σ} : Safe M (.halt out) s ↔ out.Safe := wp_halt

theorem safe_call {o : S.Op} {k : S.Res o → Prog S ε α} {s : σ} :
    Safe M (.call o k) s ↔ ∀ r s', M s o r s' → Safe M (k r) s' := wp_call

theorem safe_bind_of_wp {p : Prog S ε α} {f : α → Prog S ε β} {s : σ}
    (h : wp M p (fun _ out s' => out.Safe ∧ ∀ a, out = .ok a → Safe M (f a) s') s) :
    Safe M (p.bind f) s := by
  rw [Safe, wp_bind]
  intro t out s' ht
  obtain ⟨hout, hf⟩ := h t out s' ht
  cases out with
  | ok a => exact hf a rfl
  | err e => exact Outcome.safe_err e
  | panic => exact absurd hout Outcome.not_safe_panic

theorem safe_bind {p : Prog S ε α} {f : α → Prog S ε β} {s : σ} (hp : Safe M p s)
    (hf : ∀ a s', Safe M (f a) s') : Safe M (p.bind f) s :=
  safe_bind_of_wp fun t out s' ht => ⟨hp t out s' ht, fun a _ => hf a s'⟩

theorem safe_attempt {p : Prog S ε α} {s : σ} (hp : Safe M p s) :
    Safe M (p.attempt : Prog S ε' (Except ε α)) s := by
  rw [Safe, wp_attempt]
  intro t out s' ht
  have hout := hp t out s' ht
  cases out with
  | ok a => exact Outcome.safe_ok _
  | err e => exact Outcome.safe_ok _
  | panic => exact absurd hout Outcome.not_safe_panic

theorem safe_mapErr {f : ε → ε'} {p : Prog S ε α} {s : σ} (hp : Safe M p s) :
    Safe M (p.mapErr f) s := by
  rw [Safe, wp_mapErr]
  intro t out s' ht
  have hout := hp t out s' ht
  cases out with
  | ok a => exact Outcome.safe_ok a
  | err e => exact Outcome.safe_err (f e)
  | panic => exact absurd hout Outcome.not_safe_panic

theorem safe_finally {o : S.Op} {p : Prog S ε α} {s : σ} (hp : Safe M p s) :
    Safe M (p.finally_ o) s := by
  induction p generalizing s with
  | halt out =>
    cases out with
    | ok a => exact safe_call.mpr fun _ _ _ => safe_halt.mpr (Outcome.safe_ok a)
    | err e => exact safe_call.mpr fun _ _ _ => safe_halt.mpr (Outcome.safe_err e)
    | panic => exact hp
  | call o' k ih => exact safe_call.mpr fun r s' hM => ih r (safe_call.mp hp r s' hM)

theorem safe_ofExcept {x : Except ε α} {s : σ} : Safe M (ofExcept x) s := by
  cases x with
  | ok a => exact safe_halt.mpr (Outcome.safe_ok a)
  | error e => exact safe_halt.mpr (Outcome.safe_err e)

/-! ## Specifications of every cut -/

/-- Every execution from `s`, cut off anywhere, has a trace and a state in `Q`. -/
def always (M : Sem S σ) (p : Prog S ε α) (Q : List (Event S) → σ → Prop) (s : σ) : Prop :=
  ∀ t s', Stops M p s t s' → Q t s'

theorem always_halt {out : Outcome ε α} {Q : List (Event S) → σ → Prop} {s : σ} :
    always M (.halt out) Q s ↔ Q [] s := by
  simp only [always, stops_halt_iff]
  constructor
  · intro h
    exact h [] s ⟨rfl, rfl⟩
  · rintro h t s' ⟨rfl, rfl⟩
    exact h

theorem always_call {o : S.Op} {k : S.Res o → Prog S ε α} {Q : List (Event S) → σ → Prop}
    {s : σ} : always M (.call o k) Q s ↔
      Q [] s ∧ ∀ r s', M s o r s' → always M (k r) (fun t s'' => Q (⟨o, r⟩ :: t) s'') s' := by
  simp only [always, stops_call_iff]
  constructor
  · intro h
    exact ⟨h [] s (Or.inl ⟨rfl, rfl⟩), fun r s' hM t s'' hk =>
      h _ _ (Or.inr ⟨r, s', t, hM, hk, rfl⟩)⟩
  · rintro ⟨hnow, hlater⟩ t s'' (⟨rfl, rfl⟩ | ⟨r, s', t', hM, hk, rfl⟩)
    · exact hnow
    · exact hlater r s' hM t' s'' hk

theorem always_bind {p : Prog S ε α} {f : α → Prog S ε β} {Q : List (Event S) → σ → Prop}
    {s : σ} : always M (p.bind f) Q s ↔ always M p Q s ∧
      wp M p (fun t out s' => ∀ a, out = .ok a →
        always M (f a) (fun t' s'' => Q (t ++ t') s'') s') s := by
  constructor
  · intro h
    refine ⟨fun t s' hp => h t s' (stops_bind_iff.mpr (Or.inl hp)), ?_⟩
    intro t out s' hp a hout t' s'' hf
    subst hout
    exact h _ _ (stops_bind_iff.mpr (Or.inr ⟨a, t, t', s', hp, hf, rfl⟩))
  · intro h t s'' hb
    obtain hp | ⟨a, t₁, t₂, s', hp, hf, rfl⟩ := stops_bind_iff.mp hb
    · exact h.1 t s'' hp
    · exact h.2 t₁ _ s' hp a rfl t₂ s'' hf

theorem always_mono {p : Prog S ε α} {Q Q' : List (Event S) → σ → Prop} {s : σ}
    (h : always M p Q s) (hQ : ∀ t s', Q t s' → Q' t s') : always M p Q' s :=
  fun t s' hp => hQ t s' (h t s' hp)

end Prog
end MiddleWhere
