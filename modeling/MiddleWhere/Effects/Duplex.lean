import MiddleWhere.Effects.Reach

/-!
# Two programs that talk over a wire

Each of two programs reads what the other one writes, in order. A writer hands over what it
writes in pieces and is held up while too much is on the way; a reader waits until all that it
asked for is there. The two take their steps in any order. With faults, a read may be cut short
and a write may be lost in the middle; without, a read fails only when the other program has
ended too early.
-/

namespace MiddleWhere
namespace Duplex
open Prog

variable {S S₁ S₂ : Sig} {ε ε₁ ε₂ α α₁ α₂ A σ : Type}

/-- What an operation does to the wire, and the answers that it may give. -/
inductive Access (A R : Type)
  | recv (n : ℕ) (got : List A → R) (fails : R → Prop)
  | send (items : List A) (done : R) (fails : R → Prop)
  | inner (may : R → Prop)

abbrev Port (S : Sig) (A : Type) := (o : S.Op) → Access A (S.Res o)

/-- `said` is all that the program has handed over, the last `part` of it for a write that is
still under way; `heard` counts what it has read. -/
structure Party (S : Sig) (ε α A : Type) where
  prog : Prog S ε α
  trace : List (Event S) := []
  said : List A := []
  part : ℕ := 0
  heard : ℕ := 0

namespace Party

def Done (p : Party S ε α A) : Prop := ∃ out, p.prog = .halt out

end Party

/-- What the next call of a program writes. -/
def current (port : Port S A) : Prog S ε α → List A
  | .halt _ => []
  | .call o _ => match port o with
    | .send items _ _ => items
    | _ => []

/-- How much the next call of a program reads. -/
def wants (port : Port S A) : Prog S ε α → ℕ
  | .halt _ => 0
  | .call o _ => match port o with
    | .recv n _ _ => n
    | _ => 0

/-! ## Steps -/

/-- A step of one program, where the other one has said `input` so far, has ended if `closed`,
and lets it say no more than `room` in all. -/
inductive Acts (port : Port S A) (faulty : Prop) (input : List A) (closed : Prop) (room : ℕ) :
    Party S ε α A → Party S ε α A → Prop
  | push {o k items done fails trace said part heard piece} :
      port o = .send items done fails → piece ≠ [] → piece <+: items.drop part →
      said.length + piece.length ≤ room →
      Acts port faulty input closed room ⟨.call o k, trace, said, part, heard⟩
        ⟨.call o k, trace, said ++ piece, part + piece.length, heard⟩
  | sent {o k items done fails trace said part heard} :
      port o = .send items done fails → part = items.length →
      Acts port faulty input closed room ⟨.call o k, trace, said, part, heard⟩
        ⟨k done, trace ++ [⟨o, done⟩], said, 0, heard⟩
  | lost {o k items done fails r trace said part heard} :
      port o = .send items done fails → faulty → fails r →
      Acts port faulty input closed room ⟨.call o k, trace, said, part, heard⟩
        ⟨k r, trace ++ [⟨o, r⟩], said, 0, heard⟩
  | got {o k n got fails trace said part heard} :
      port o = .recv n got fails → heard + n ≤ input.length →
      Acts port faulty input closed room ⟨.call o k, trace, said, part, heard⟩
        ⟨k (got ((input.drop heard).take n)),
          trace ++ [⟨o, got ((input.drop heard).take n)⟩], said, part, heard + n⟩
  | ended {o k n got fails r trace said part heard} :
      port o = .recv n got fails → closed → input.length < heard + n → fails r →
      Acts port faulty input closed room ⟨.call o k, trace, said, part, heard⟩
        ⟨k r, trace ++ [⟨o, r⟩], said, part, input.length⟩
  | cut {o k n got fails r trace said part heard heard'} :
      port o = .recv n got fails → faulty → fails r → heard ≤ heard' → heard' ≤ input.length →
      Acts port faulty input closed room ⟨.call o k, trace, said, part, heard⟩
        ⟨k r, trace ++ [⟨o, r⟩], said, part, heard'⟩
  | inner {o k may r trace said part heard} :
      port o = .inner may → may r →
      Acts port faulty input closed room ⟨.call o k, trace, said, part, heard⟩
        ⟨k r, trace ++ [⟨o, r⟩], said, part, heard⟩

structure Config (S₁ S₂ : Sig) (ε₁ ε₂ α₁ α₂ A : Type) where
  left : Party S₁ ε₁ α₁ A
  right : Party S₂ ε₂ α₂ A

def start (p : Prog S₁ ε₁ α₁) (q : Prog S₂ ε₂ α₂) : Config S₁ S₂ ε₁ ε₂ α₁ α₂ A :=
  ⟨{ prog := p }, { prog := q }⟩

/-- The wire holds up to `cap`, and what the reader waits for is taken off it at once. -/
def room (port : Port S A) (cap : ℕ) (reader : Party S ε α A) : ℕ :=
  reader.heard + wants port reader.prog + cap

section
variable (port₁ : Port S₁ A) (port₂ : Port S₂ A)

inductive Move (faulty : Prop) (cap : ℕ) :
    Config S₁ S₂ ε₁ ε₂ α₁ α₂ A → Config S₁ S₂ ε₁ ε₂ α₁ α₂ A → Prop
  | left {p p' q} :
      Acts port₁ faulty q.said q.Done (room port₂ cap q) p p' → Move faulty cap ⟨p, q⟩ ⟨p', q⟩
  | right {p q q'} :
      Acts port₂ faulty p.said p.Done (room port₁ cap p) q q' → Move faulty cap ⟨p, q⟩ ⟨p, q'⟩

/-- The configurations that the two programs get into. -/
def Reach (faulty : Prop) (cap : ℕ) (p : Prog S₁ ε₁ α₁) (q : Prog S₂ ε₂ α₂) :
    Config S₁ S₂ ε₁ ε₂ α₁ α₂ A → Prop :=
  Relation.ReflTransGen (Move port₁ port₂ faulty cap) (start p q)

variable {port₁ port₂} {faulty : Prop} {cap : ℕ} {p : Prog S₁ ε₁ α₁} {q : Prog S₂ ε₂ α₂}
  {c c' : Config S₁ S₂ ε₁ ε₂ α₁ α₂ A}

/-- The two sides are alike. -/
theorem Reach.swap (h : Reach port₁ port₂ faulty cap p q c) :
    Reach port₂ port₁ faulty cap q p ⟨c.right, c.left⟩ := by
  induction h with
  | refl => exact .refl
  | tail _ hmove ih =>
    cases hmove with
    | left hacts => exact ih.tail (.right hacts)
    | right hacts => exact ih.tail (.left hacts)

end

/-- A run without faults is also one with faults. -/
theorem Acts.weaken {port : Port S A} {faulty closed : Prop} {input : List A} {n : ℕ}
    {p p' : Party S ε α A} (h : Acts port False input closed n p p') :
    Acts port faulty input closed n p p' := by
  cases h with
  | push hport hne hpiece hroom => exact .push hport hne hpiece hroom
  | sent hport hwhole => exact .sent hport hwhole
  | lost _ hfaulty _ => exact hfaulty.elim
  | got hport hthere => exact .got hport hthere
  | ended hport hclosed hshort hr => exact .ended hport hclosed hshort hr
  | cut _ hfaulty _ _ _ => exact hfaulty.elim
  | inner hport hr => exact .inner hport hr

theorem Reach.weaken {port₁ : Port S₁ A} {port₂ : Port S₂ A} {faulty : Prop} {cap : ℕ}
    {p : Prog S₁ ε₁ α₁} {q : Prog S₂ ε₂ α₂} {c : Config S₁ S₂ ε₁ ε₂ α₁ α₂ A}
    (h : Reach port₁ port₂ False cap p q c) : Reach port₁ port₂ faulty cap p q c := by
  induction h with
  | refl => exact .refl
  | tail _ hmove ih =>
    cases hmove with
    | left hacts => exact ih.tail (.left hacts.weaken)
    | right hacts => exact ih.tail (.right hacts.weaken)

/-! ## Runs end -/

/-- What is left of the write that is under way. -/
def pending (port : Port S A) (p : Party S ε α A) : ℕ := (current port p.prog).length - p.part

/-- One program is what the other one goes on as. -/
def GoesOn (p' p : Prog S ε α) : Prop := ∃ o k r, p = .call o k ∧ p' = k r

theorem goesOn_wf : WellFounded (GoesOn : Prog S ε α → Prog S ε α → Prop) := by
  constructor
  intro p
  induction p with
  | halt out => exact ⟨_, fun p' ⟨o, k, r, hcall, _⟩ => by cases hcall⟩
  | call o k ih =>
    constructor
    intro p' ⟨o', k', r, hcall, hp'⟩
    cases hcall
    exact hp' ▸ ih r

/-- A step goes on to the rest of the program or leaves less to write. -/
def Shrinks (port : Port S A) : Party S ε α A → Party S ε α A → Prop :=
  InvImage (Prod.Lex GoesOn (· < ·)) fun p => (p.prog, pending port p)

theorem shrinks_wf (port : Port S A) :
    WellFounded (Shrinks port : Party S ε α A → Party S ε α A → Prop) :=
  InvImage.wf _ (goesOn_wf.prod_lex Nat.lt_wfRel.wf)

section
variable {port : Port S A} {faulty closed : Prop} {input : List A} {n : ℕ} {p p' : Party S ε α A}

theorem current_send {o : S.Op} {k : S.Res o → Prog S ε α} {items : List A} {done : S.Res o}
    {fails : S.Res o → Prop} (h : port o = .send items done fails) :
    current port (.call o k) = items := by
  simp [current, h]

theorem current_recv {o : S.Op} {k : S.Res o → Prog S ε α} {got : List A → S.Res o}
    {fails : S.Res o → Prop} (h : port o = .recv n got fails) :
    current port (.call o k) = [] := by
  simp [current, h]

theorem current_inner {o : S.Op} {k : S.Res o → Prog S ε α} {may : S.Res o → Prop}
    (h : port o = .inner may) : current port (.call o k) = [] := by
  simp [current, h]

theorem wants_recv {o : S.Op} {k : S.Res o → Prog S ε α} {got : List A → S.Res o}
    {fails : S.Res o → Prop} (h : port o = .recv n got fails) : wants port (.call o k) = n := by
  simp [wants, h]

theorem Acts.shrinks (h : Acts port faulty input closed n p p') : Shrinks port p' p := by
  have hnext {o : S.Op} {k : S.Res o → Prog S ε α} (r : S.Res o) : GoesOn (k r) (.call o k) :=
    ⟨o, k, r, rfl, rfl⟩
  cases h with
  | @push o k items _ _ _ _ part _ piece hport hne hpiece _ =>
    have hlen := hpiece.length_le
    have hpos := List.length_pos_iff.mpr hne
    rw [List.length_drop] at hlen
    refine Prod.Lex.right _ ?_
    dsimp only [pending]
    rw [current_send hport]
    omega
  | sent => exact Prod.Lex.left _ _ (hnext _)
  | lost => exact Prod.Lex.left _ _ (hnext _)
  | got => exact Prod.Lex.left _ _ (hnext _)
  | ended => exact Prod.Lex.left _ _ (hnext _)
  | cut => exact Prod.Lex.left _ _ (hnext _)
  | inner => exact Prod.Lex.left _ _ (hnext _)

end

/-- There is no endless run, with faults or without. -/
theorem move_wf (port₁ : Port S₁ A) (port₂ : Port S₂ A) (faulty : Prop) (cap : ℕ) :
    WellFounded fun c' c : Config S₁ S₂ ε₁ ε₂ α₁ α₂ A => Move port₁ port₂ faulty cap c c' := by
  refine Subrelation.wf ?_ (InvImage.wf (fun c : Config S₁ S₂ ε₁ ε₂ α₁ α₂ A => (c.left, c.right))
    ((shrinks_wf port₁).prod_gameAdd (shrinks_wf port₂)))
  intro c' c hmove
  cases hmove with
  | left hacts => exact Prod.GameAdd.fst hacts.shrinks
  | right hacts => exact Prod.GameAdd.snd hacts.shrinks

/-! ## Each program alone -/

/-- What an operation may answer where all that can ever be read is `input`. The state counts
what was read and keeps what was said. -/
def Access.Answers {R : Type} (faulty : Prop) (input : List A) :
    Access A R → ℕ × List A → R → ℕ × List A → Prop
  | .recv n got fails, s, r, s' =>
    (s.1 + n ≤ input.length ∧ r = got ((input.drop s.1).take n) ∧ s' = (s.1 + n, s.2)) ∨
      ((faulty ∨ input.length < s.1 + n) ∧ fails r ∧ s'.2 = s.2)
  | .send items done fails, s, r, s' =>
    (r = done ∧ s' = (s.1, s.2 ++ items)) ∨
      (faulty ∧ fails r ∧ s'.1 = s.1 ∧ ∃ front, front <+: items ∧ s'.2 = s.2 ++ front)
  | .inner may, s, r, s' => may r ∧ s' = s

/-- The world of a program that has the other one's words before it. -/
def alone (port : Port S A) (faulty : Prop) (input : List A) : Sem S (ℕ × List A) :=
  fun s o r s' => (port o).Answers faulty input s r s'

/-- A program that only reads says nothing. -/
theorem said_of_reads {port : Port S A} {faulty : Prop} {input : List A} {p : Prog S ε α}
    {s s' : ℕ × List A} (h : Reaches (alone port faulty input) p s s')
    (hp : p.Uses fun o => ∃ n got fails, port o = .recv n got fails) : s'.2 = s.2 := by
  refine h.keeps (I := fun s' => s'.2 = s.2) hp ?_ rfl
  intro s₁ o r s₂ ho hM hs
  obtain ⟨n, got, fails, hport⟩ := ho
  simp only [alone, hport, Access.Answers] at hM
  obtain ⟨-, -, rfl⟩ | ⟨-, -, hsame⟩ := hM
  · exact hs
  · exact hsame.trans hs

/-- From `p₀` and `s₀`, the calls of the trace lead to the program and the state that follow. -/
inductive Leads (M : Sem S σ) (p₀ : Prog S ε α) (s₀ : σ) :
    Prog S ε α → List (Event S) → σ → Prop
  | here : Leads M p₀ s₀ p₀ [] s₀
  | step {o k t s r s'} : Leads M p₀ s₀ (.call o k) t s → M s o r s' →
      Leads M p₀ s₀ (k r) (t ++ [⟨o, r⟩]) s'

section
variable {M : Sem S σ} {p₀ p : Prog S ε α} {s₀ s : σ} {t : List (Event S)}

theorem Leads.stops (h : Leads M p₀ s₀ p t s) : Stops M p₀ s₀ t s := by
  suffices hrest : ∀ t' s', Stops M p s t' s' → Stops M p₀ s₀ (t ++ t') s' by
    simpa using hrest [] s (.here p s)
  induction h with
  | here => exact fun _ _ h => h
  | step _ hM ih =>
    intro t' s' hrest
    simpa using ih _ _ (.call hM hrest)

theorem Leads.exec {out : Outcome ε α} (h : Leads M p₀ s₀ (.halt out) t s) :
    Exec M p₀ s₀ t out s := by
  suffices hrest : ∀ t' s', Exec M (.halt out) s t' out s' → Exec M p₀ s₀ (t ++ t') out s' by
    simpa using hrest [] s (.halt out s)
  generalize hp : (Prog.halt out : Prog S ε α) = p at h ⊢
  clear hp
  induction h with
  | here => exact fun _ _ h => h
  | step _ hM ih =>
    intro t' s' hrest
    simpa using ih _ _ (.call hM hrest)

end

/-- Where a program is, it could have got by itself; of a write that is under way, a part has
been said. -/
def Led (port : Port S A) (faulty : Prop) (input : List A) (p₀ : Prog S ε α)
    (p : Party S ε α A) : Prop :=
  ∃ base, Leads (alone port faulty input) p₀ (0, []) p.prog p.trace (p.heard, base) ∧
    p.part ≤ (current port p.prog).length ∧ p.said = base ++ (current port p.prog).take p.part

section
variable {port : Port S A} {faulty closed : Prop} {input more : List A} {n : ℕ}
  {p₀ : Prog S ε α} {p p' : Party S ε α A}

theorem Acts.led (h : Acts port faulty input closed n p p') (hmore : closed → more = [])
    (hp : Led port faulty (input ++ more) p₀ p) : Led port faulty (input ++ more) p₀ p' := by
  obtain ⟨base, hleads, hpart, hsaid⟩ := hp
  cases h with
  | @push o k items done fails trace said part heard piece hport hne hpiece _ =>
    dsimp only at hleads hpart hsaid
    rw [current_send hport] at hpart hsaid
    obtain ⟨rest, hrest⟩ := hpiece
    have hlen := congrArg List.length hrest
    rw [List.length_append, List.length_drop] at hlen
    refine ⟨base, hleads, ?_, ?_⟩
    · dsimp only
      rw [current_send hport]
      omega
    · dsimp only
      rw [current_send hport, hsaid, List.append_assoc, List.take_add, ← hrest, List.take_left]
  | @sent o k items done fails trace said part heard hport hwhole =>
    dsimp only at hleads hsaid
    rw [current_send hport, hwhole, List.take_length] at hsaid
    refine ⟨said, .step hleads ?_, Nat.zero_le _, by simp⟩
    simp only [alone, hport, Access.Answers, hsaid, and_self, true_or]
  | @lost o k items done fails r trace said part heard hport hfaulty hr =>
    dsimp only at hleads hsaid
    rw [current_send hport] at hsaid
    refine ⟨said, .step hleads ?_, Nat.zero_le _, by simp⟩
    simp only [alone, hport, Access.Answers]
    exact Or.inr ⟨hfaulty, hr, trivial, _, List.take_prefix _ _, hsaid⟩
  | @got o k n got fails trace said part heard hport hthere =>
    dsimp only at hleads hpart hsaid
    rw [current_recv hport] at hpart hsaid
    obtain rfl : part = 0 := by simpa using hpart
    refine ⟨base, .step hleads ?_, Nat.zero_le _, by simpa using hsaid⟩
    simp only [alone, hport, Access.Answers]
    refine Or.inl ⟨by simp; omega, ?_, trivial⟩
    rw [List.drop_append_of_le_length (by omega), List.take_append_of_le_length]
    rw [List.length_drop]
    omega
  | @ended o k n got fails r trace said part heard hport hclosed hshort hr =>
    dsimp only at hleads hpart hsaid
    rw [current_recv hport] at hpart hsaid
    obtain rfl : part = 0 := by simpa using hpart
    refine ⟨base, .step hleads ?_, Nat.zero_le _, by simpa using hsaid⟩
    simp only [alone, hport, Access.Answers]
    exact Or.inr ⟨Or.inr (by simpa [hmore hclosed] using hshort), hr, trivial⟩
  | @cut o k n got fails r trace said part heard heard' hport hfaulty hr _ _ =>
    dsimp only at hleads hpart hsaid
    rw [current_recv hport] at hpart hsaid
    obtain rfl : part = 0 := by simpa using hpart
    refine ⟨base, .step hleads ?_, Nat.zero_le _, by simpa using hsaid⟩
    simp only [alone, hport, Access.Answers]
    exact Or.inr ⟨Or.inl hfaulty, hr, trivial⟩
  | @inner o k may r trace said part heard hport hr =>
    dsimp only at hleads hpart hsaid
    rw [current_inner hport] at hpart hsaid
    obtain rfl : part = 0 := by simpa using hpart
    refine ⟨base, .step hleads ?_, Nat.zero_le _, by simpa using hsaid⟩
    simp only [alone, hport, Access.Answers]
    exact ⟨hr, trivial⟩

/-- A step adds to what is said, and a program that has ended takes none. -/
theorem Acts.says (h : Acts port faulty input closed n p p') :
    ¬ p.Done ∧ ∃ piece, p'.said = p.said ++ piece := by
  have hcall {o : S.Op} {k : S.Res o → Prog S ε α} : ¬ ∃ out, Prog.call o k = .halt out := by
    simp
  cases h with
  | push => exact ⟨hcall, _, rfl⟩
  | _ => exact ⟨hcall, [], (List.append_nil _).symm⟩

end

section
variable {port₁ : Port S₁ A} {port₂ : Port S₂ A} {faulty : Prop} {cap : ℕ}
  {p : Prog S₁ ε₁ α₁} {q : Prog S₂ ε₂ α₂} {c : Config S₁ S₂ ε₁ ε₂ α₁ α₂ A} {l : List A}

/-- Whatever the other program may still say, the first one is where it could have got alone. -/
theorem Reach.led_left (h : Reach port₁ port₂ faulty cap p q c)
    (hl : c.right.Done → l = []) : Led port₁ faulty (c.right.said ++ l) p c.left := by
  induction h generalizing l with
  | refl => exact ⟨[], .here, Nat.zero_le _, by simp [start]⟩
  | tail _ hmove ih =>
    cases hmove with
    | left hacts => exact hacts.led hl (ih hl)
    | right hacts =>
      obtain ⟨hrunning, piece, hsaid⟩ := hacts.says
      dsimp only at ih ⊢
      rw [hsaid, List.append_assoc]
      exact ih fun hdone => absurd hdone hrunning

/-- A program that has ended did what it would have done alone. -/
theorem Reach.exec_left (h : Reach port₁ port₂ faulty cap p q c) {out : Outcome ε₁ α₁}
    (hout : c.left.prog = .halt out) : ∃ heard,
      Exec (alone port₁ faulty c.right.said) p (0, []) c.left.trace out (heard, c.left.said) := by
  obtain ⟨base, hleads, -, hsaid⟩ := h.led_left (l := []) fun _ => rfl
  rw [hout] at hleads hsaid
  rw [List.append_nil] at hleads
  obtain rfl : c.left.said = base := by simpa [current] using hsaid
  exact ⟨_, hleads.exec⟩

/-- What a program has said is the front of what it would say alone, with the write that is
under way. -/
theorem Reach.stops_left (h : Reach port₁ port₂ faulty cap p q c) : ∃ t heard said,
    Stops (alone port₁ faulty c.right.said) p (0, []) t (heard, said) ∧
    c.left.said <+: said ∧ (t = c.left.trace ∨ ∃ (e : Event S₁) (items : List A)
      (done : S₁.Res e.op) (fails : S₁.Res e.op → Prop), t = c.left.trace ++ [e] ∧
        port₁ e.op = .send items done fails) := by
  obtain ⟨base, hleads, hpart, hsaid⟩ := h.led_left (l := []) fun _ => rfl
  rw [List.append_nil] at hleads
  have hhere (hnone : current port₁ c.left.prog = []) : c.left.said <+: base := by
    simp [hsaid, hnone]
  cases hprog : c.left.prog with
  | halt out => exact ⟨_, _, base, hleads.stops, hhere (by simp [hprog, current]), Or.inl rfl⟩
  | call o k =>
    cases hport : port₁ o with
    | send items done fails =>
      rw [hprog] at hleads
      rw [hprog, current_send hport] at hsaid
      have hdone : alone port₁ faulty c.right.said (c.left.heard, base) o done
          (c.left.heard, base ++ items) := by
        simp only [alone, hport, Access.Answers, and_self, true_or]
      refine ⟨_, _, _, (hleads.step hdone).stops, ?_, Or.inr ⟨⟨o, done⟩, items, done, fails, rfl, hport⟩⟩
      rw [hsaid]
      exact (List.prefix_append_right_inj base).mpr (List.take_prefix _ _)
    | recv n got fails =>
      exact ⟨_, _, base, hleads.stops, hhere (by rw [hprog, current_recv hport]), Or.inl rfl⟩
    | inner may =>
      exact ⟨_, _, base, hleads.stops, hhere (by rw [hprog, current_inner hport]), Or.inl rfl⟩

end

/-! ## A question and its answer -/

/-- The program says `out`, and then takes any answer in `P` to its end. -/
def Asks (port : Port S A) (P : List A → Prop) : Prog S ε α → List A → Prop
  | .halt _, out => out = [] ∧ ∀ reply, P reply → reply = []
  | .call o k, out => match port o with
    | .send items done _ => ∃ rest, out = items ++ rest ∧ Asks port P (k done) rest
    | .recv n got fails => out = [] ∧
      (∀ x, x.length = n → Asks port (fun rest => P (x ++ rest)) (k (got x)) []) ∧
      ∀ r, fails r → Asks port (· = []) (k r) []
    | .inner may => ∀ r, may r → Asks port P (k r) out

/-- The program says `reply` and reads nothing more. -/
def Speaks (port : Port S A) : Prog S ε α → List A → Prop
  | .halt _, reply => reply = []
  | .call o k, reply => match port o with
    | .send items done _ => ∃ rest, reply = items ++ rest ∧ Speaks port (k done) rest
    | .recv _ _ _ => False
    | .inner may => ∀ r, may r → Speaks port (k r) reply

/-- The program reads all of a question before it says an answer in `P`. -/
def Serves (port : Port S A) (P : List A → Prop) : Prog S ε α → List A → Prop
  | .halt _, question => question = [] ∧ P []
  | .call o k, question => match port o with
    | .send items done _ => question = [] ∧
      ∃ reply rest, P reply ∧ reply = items ++ rest ∧ Speaks port (k done) rest
    | .recv n got _ => n ≤ question.length ∧
      Serves port P (k (got (question.take n))) (question.drop n)
    | .inner may => ∀ r, may r → Serves port P (k r) question

section
variable {port : Port S A} {P P' : List A → Prop} {p : Prog S ε α} {out reply question : List A}
  {o : S.Op} {k : S.Res o → Prog S ε α} {items : List A} {n : ℕ} {got : List A → S.Res o}
  {done : S.Res o} {fails may : S.Res o → Prop}

theorem asks_send (h : port o = .send items done fails) : Asks port P (.call o k) out ↔
    ∃ rest, out = items ++ rest ∧ Asks port P (k done) rest := by
  simp only [Asks, h]

theorem asks_recv (h : port o = .recv n got fails) : Asks port P (.call o k) out ↔ out = [] ∧
    (∀ x, x.length = n → Asks port (fun rest => P (x ++ rest)) (k (got x)) []) ∧
      ∀ r, fails r → Asks port (· = []) (k r) [] := by
  simp only [Asks, h]

theorem asks_inner (h : port o = .inner may) : Asks port P (.call o k) out ↔
    ∀ r, may r → Asks port P (k r) out := by
  simp only [Asks, h]

theorem speaks_send (h : port o = .send items done fails) : Speaks port (.call o k) reply ↔
    ∃ rest, reply = items ++ rest ∧ Speaks port (k done) rest := by
  simp only [Speaks, h]

theorem not_speaks_recv (h : port o = .recv n got fails) : ¬ Speaks port (.call o k) reply := by
  simp only [Speaks, h, not_false_eq_true]

theorem speaks_inner (h : port o = .inner may) : Speaks port (.call o k) reply ↔
    ∀ r, may r → Speaks port (k r) reply := by
  simp only [Speaks, h]

theorem serves_send (h : port o = .send items done fails) : Serves port P (.call o k) question ↔
    question = [] ∧ ∃ reply rest, P reply ∧ reply = items ++ rest ∧ Speaks port (k done) rest := by
  simp only [Serves, h]

theorem serves_recv (h : port o = .recv n got fails) : Serves port P (.call o k) question ↔
    n ≤ question.length ∧ Serves port P (k (got (question.take n))) (question.drop n) := by
  simp only [Serves, h]

theorem serves_inner (h : port o = .inner may) : Serves port P (.call o k) question ↔
    ∀ r, may r → Serves port P (k r) question := by
  simp only [Serves, h]

/-- Fewer answers are no harder to take. -/
theorem Asks.mono (h : Asks port P p out) (hP : ∀ x, P' x → P x) : Asks port P' p out := by
  induction p generalizing P P' out with
  | halt _ => exact ⟨h.1, fun reply hreply => h.2 reply (hP reply hreply)⟩
  | call o k ih =>
    cases hport : port o with
    | send items done fails =>
      obtain ⟨rest, hout, hk⟩ := (asks_send hport).mp h
      exact (asks_send hport).mpr ⟨rest, hout, ih done hk hP⟩
    | recv n got fails =>
      obtain ⟨hout, hgot, hfails⟩ := (asks_recv hport).mp h
      refine (asks_recv hport).mpr ⟨hout, fun x hx => ?_, hfails⟩
      exact ih (got x) (hgot x hx) fun rest hrest => hP _ hrest
    | inner may =>
      exact (asks_inner hport).mpr fun r hr => ih r ((asks_inner hport).mp h r hr) hP

theorem length_le_of_drop {rest : List A} {part : ℕ} (h : (items ++ rest).drop part = []) :
    items.length ≤ part := by
  have hlen := List.drop_eq_nil_iff.mp h
  rw [List.length_append] at hlen
  omega

/-- With nothing left to say, no write is under way. -/
theorem Asks.current_le {part : ℕ} (h : Asks port P p out) (hsaid : out.drop part = []) :
    (current port p).length ≤ part := by
  cases p with
  | halt _ => exact Nat.zero_le _
  | call o k =>
    cases hport : port o with
    | send items done fails =>
      obtain ⟨rest, rfl, -⟩ := (asks_send hport).mp h
      rw [current_send hport]
      exact length_le_of_drop hsaid
    | recv n got fails => simp [current_recv hport]
    | inner may => simp [current_inner hport]

theorem Speaks.current_le {part : ℕ} (h : Speaks port p reply) (hsaid : reply.drop part = []) :
    (current port p).length ≤ part := by
  cases p with
  | halt _ => exact Nat.zero_le _
  | call o k =>
    cases hport : port o with
    | send items done fails =>
      obtain ⟨rest, rfl, -⟩ := (speaks_send hport).mp h
      rw [current_send hport]
      exact length_le_of_drop hsaid
    | recv n got fails => exact absurd h (not_speaks_recv hport)
    | inner may => simp [current_inner hport]

/-- By the time it writes, a program has read all of the question. -/
theorem Serves.speaks (h : Serves port P (.call o k) question)
    (hport : port o = .send items done fails) :
    question = [] ∧ ∃ reply, P reply ∧ Speaks port (.call o k) reply := by
  obtain ⟨hread, reply, rest, hreply, rfl, hk⟩ := (serves_send hport).mp h
  exact ⟨hread, _, hreply, (speaks_send hport).mpr ⟨rest, rfl, hk⟩⟩

end

/-! ## The two together -/

/-- An answer is under way. -/
def Speaking (port₁ : Port S₁ A) (port₂ : Port S₂ A) (P : List A → Prop)
    (c : Config S₁ S₂ ε₁ ε₂ α₁ α₂ A) : Prop :=
  ∃ out reply,
    Asks port₁ (· = c.right.said.drop c.left.heard ++ reply.drop c.right.part) c.left.prog out ∧
    c.left.part ≤ (current port₁ c.left.prog).length ∧ out.drop c.left.part = [] ∧
    c.left.heard ≤ c.right.said.length ∧
    c.right.part ≤ (current port₂ c.right.prog).length ∧ Speaks port₂ c.right.prog reply ∧
    P (c.right.said ++ reply.drop c.right.part)

/-- How far the exchange is: the question is not read yet, or the answer is under way. -/
inductive Meeting (port₁ : Port S₁ A) (port₂ : Port S₂ A) (P : List A → Prop)
    (c : Config S₁ S₂ ε₁ ε₂ α₁ α₂ A) : Prop
  | asking (out : List A) : Asks port₁ P c.left.prog out →
      c.left.part ≤ (current port₁ c.left.prog).length → c.left.heard = 0 → c.right.said = [] →
      c.right.part = 0 → c.right.heard ≤ c.left.said.length →
      Serves port₂ P c.right.prog (c.left.said.drop c.right.heard ++ out.drop c.left.part) →
      Meeting port₁ port₂ P c
  | answering : Speaking port₁ port₂ P c → Meeting port₁ port₂ P c

section
variable {port₁ : Port S₁ A} {port₂ : Port S₂ A} {P : List A → Prop} {cap : ℕ}
  {p : Prog S₁ ε₁ α₁} {q : Prog S₂ ε₂ α₂} {out : List A} {c c' : Config S₁ S₂ ε₁ ε₂ α₁ α₂ A}

theorem part_le_of_nil {items : List A} {part n : ℕ} (h : part ≤ items.length)
    (hnone : items = []) : part ≤ n := by
  rw [hnone] at h
  exact h.trans (Nat.zero_le n)

theorem start_meeting (hp : Asks port₁ P p out) (hq : Serves port₂ P q out) :
    Meeting port₁ port₂ P (start p q) :=
  .asking out hp (Nat.zero_le _) rfl rfl rfl (Nat.zero_le _) hq

/-- What ends, or begins to say its answer, has read the question. -/
theorem speaking_of_read {left : Party S₁ ε₁ α₁ A} {right : Party S₂ ε₂ α₂ A} {reply : List A}
    (hasks : Asks port₁ P left.prog out) (hpart : left.part ≤ (current port₁ left.prog).length)
    (hheard : left.heard = 0) (hsaid : right.said = []) (hright : right.part = 0)
    (hread : left.said.drop right.heard ++ out.drop left.part = [])
    (hspeaks : Speaks port₂ right.prog reply) (hreply : P reply) :
    Speaking port₁ port₂ P ⟨left, right⟩ := by
  refine ⟨out, reply, hasks.mono fun x hx => ?_, hpart, (List.append_eq_nil_iff.mp hread).2,
    by simp [hheard], by simp [hright], hspeaks, by simpa [hsaid, hright] using hreply⟩
  rw [hx, hsaid, hright]
  simpa using hreply

/-- More of an answer is said. -/
theorem Speaking.pushed {left : Party S₁ ε₁ α₁ A} {o : S₂.Op} {k : S₂.Res o → Prog S₂ ε₂ α₂}
    {items piece : List A} {done : S₂.Res o} {fails : S₂.Res o → Prop} {trace : List (Event S₂)}
    {said : List A} {part heard : ℕ}
    (h : Speaking port₁ port₂ P ⟨left, ⟨.call o k, trace, said, part, heard⟩⟩)
    (hport : port₂ o = .send items done fails) (hpiece : piece <+: items.drop part) :
    Speaking port₁ port₂ P
      ⟨left, ⟨.call o k, trace, said ++ piece, part + piece.length, heard⟩⟩ := by
  obtain ⟨out, reply, hasks, hpart, hsaid, hbehind, hright, hspeaks, hreply⟩ := h
  obtain ⟨rest, rfl, hk⟩ := (speaks_send hport).mp hspeaks
  obtain ⟨back, hback⟩ := hpiece
  dsimp only at hasks hbehind hright hreply
  rw [current_send hport] at hright
  have hlen := congrArg List.length hback
  rw [List.length_append, List.length_drop] at hlen
  have hdrop : (items ++ rest).drop part = piece ++ (items ++ rest).drop (part + piece.length) := by
    rw [← List.drop_drop, List.drop_append_of_le_length hright, ← hback, List.append_assoc,
      List.drop_left]
  rw [hdrop] at hasks hreply
  refine ⟨out, items ++ rest, hasks.mono fun x hx => ?_, hpart, hsaid, by simp; omega, ?_, hspeaks, ?_⟩
  · rw [hx]
    dsimp only
    rw [List.drop_append_of_le_length hbehind, List.append_assoc]
  · dsimp only
    rw [current_send hport]
    omega
  · rwa [← List.append_assoc] at hreply

theorem Speaking.completed {left : Party S₁ ε₁ α₁ A} {o : S₂.Op} {k : S₂.Res o → Prog S₂ ε₂ α₂}
    {items : List A} {done : S₂.Res o} {fails : S₂.Res o → Prop} {trace : List (Event S₂)}
    {said : List A} {part heard : ℕ}
    (h : Speaking port₁ port₂ P ⟨left, ⟨.call o k, trace, said, part, heard⟩⟩)
    (hport : port₂ o = .send items done fails) (hwhole : part = items.length) :
    Speaking port₁ port₂ P ⟨left, ⟨k done, trace ++ [⟨o, done⟩], said, 0, heard⟩⟩ := by
  obtain ⟨out, reply, hasks, hpart, hsaid, hbehind, hright, hspeaks, hreply⟩ := h
  obtain ⟨rest, rfl, hk⟩ := (speaks_send hport).mp hspeaks
  dsimp only at hasks hreply
  rw [hwhole, List.drop_left] at hasks hreply
  exact ⟨out, rest, hasks, hpart, hsaid, hbehind, Nat.zero_le _, hk, hreply⟩

/-- The invariant, through a step of the one that asks. -/
theorem Meeting.left {left left' : Party S₁ ε₁ α₁ A} {right : Party S₂ ε₂ α₂ A} {n : ℕ}
    (h : Meeting port₁ port₂ P ⟨left, right⟩)
    (hacts : Acts port₁ False right.said right.Done n left left') :
    Meeting port₁ port₂ P ⟨left', right⟩ := by
  cases h with
  | asking out hasks hpart hheard hsaid hright hbehind hserves =>
    dsimp only at hasks hpart hheard hsaid hright hbehind hserves
    cases hacts with
    | @push o k items done fails trace said part heard piece hport hne hpiece _ =>
      obtain ⟨rest, rfl, hk⟩ := (asks_send hport).mp hasks
      obtain ⟨back, hback⟩ := hpiece
      dsimp only at hpart hbehind hserves
      rw [current_send hport] at hpart
      have hlen := congrArg List.length hback
      rw [List.length_append, List.length_drop] at hlen
      refine .asking (items ++ rest) hasks (by rw [current_send hport]; dsimp only; omega) hheard
        hsaid hright (by simp; omega) ?_
      dsimp only
      rw [List.drop_append_of_le_length hpart, ← hback] at hserves
      rw [List.drop_append_of_le_length hbehind, List.append_assoc, ← List.drop_drop,
        List.drop_append_of_le_length hpart, ← hback, List.append_assoc, List.drop_left]
      simpa using hserves
    | @sent o k items done fails trace said part heard hport hwhole =>
      obtain ⟨rest, rfl, hk⟩ := (asks_send hport).mp hasks
      refine .asking rest hk (Nat.zero_le _) hheard hsaid hright hbehind ?_
      dsimp only at hserves ⊢
      rwa [hwhole, List.drop_left] at hserves
    | lost _ hfaulty _ => exact hfaulty.elim
    | @got o k n got fails trace said part heard hport hthere =>
      obtain ⟨rfl, hgot, -⟩ := (asks_recv hport).mp hasks
      dsimp only at hheard
      rw [hsaid, List.length_nil] at hthere
      obtain rfl : n = 0 := by omega
      refine .asking [] ?_ (part_le_of_nil hpart (current_recv hport)) (by simp [hheard]) hsaid hright
        hbehind (by simpa using hserves)
      simpa [hsaid] using hgot [] rfl
    | @ended o k n got fails r trace said part heard hport hclosed hshort hr =>
      obtain ⟨rfl, -, hfails⟩ := (asks_recv hport).mp hasks
      obtain ⟨out₂, hdone⟩ := hclosed
      rw [hdone] at hserves
      obtain ⟨hread, hnone⟩ := hserves
      refine .answering ⟨[], [], ?_, part_le_of_nil hpart (current_recv hport), by simp, le_rfl,
        by simp [hright], by rw [hdone]; exact rfl, by simpa [hsaid] using hnone⟩
      simpa [hsaid] using hfails r hr
    | cut _ hfaulty _ _ _ => exact hfaulty.elim
    | @inner o k may r trace said part heard hport hr =>
      exact .asking out ((asks_inner hport).mp hasks r hr)
        (part_le_of_nil hpart (current_inner hport)) hheard hsaid hright hbehind hserves
  | answering h =>
    obtain ⟨out, reply, hasks, hpart, hsaid, hbehind, hright, hspeaks, hreply⟩ := h
    dsimp only at hasks hpart hsaid hbehind hright hspeaks hreply
    cases hacts with
    | @push o k items done fails trace said part heard piece hport hne hpiece _ =>
      obtain ⟨rest, rfl, hk⟩ := (asks_send hport).mp hasks
      have hnone : items.drop part = [] := by
        rw [current_send hport] at hpart
        rw [List.drop_append_of_le_length hpart] at hsaid
        exact (List.append_eq_nil_iff.mp hsaid).1
      rw [hnone] at hpiece
      exact absurd (List.prefix_nil.mp hpiece) hne
    | @sent o k items done fails trace said part heard hport hwhole =>
      obtain ⟨rest, rfl, hk⟩ := (asks_send hport).mp hasks
      rw [hwhole, List.drop_left] at hsaid
      exact .answering ⟨rest, reply, hk, Nat.zero_le _, hsaid, hbehind, hright, hspeaks, hreply⟩
    | lost _ hfaulty _ => exact hfaulty.elim
    | @got o k n got fails trace said part heard hport hthere =>
      obtain ⟨rfl, hgot, -⟩ := (asks_recv hport).mp hasks
      have hlen : ((right.said.drop heard).take n).length = n := by
        rw [List.length_take_of_le]
        rw [List.length_drop]
        omega
      refine .answering ⟨[], reply, (hgot _ hlen).mono fun x hx => ?_,
        part_le_of_nil hpart (current_recv hport), by simp, hthere, hright, hspeaks, hreply⟩
      rw [hx, ← List.append_assoc, ← List.drop_drop, List.take_append_drop]
    | @ended o k n got fails r trace said part heard hport hclosed hshort hr =>
      obtain ⟨rfl, -, hfails⟩ := (asks_recv hport).mp hasks
      obtain ⟨out₂, hdone⟩ := hclosed
      rw [hdone] at hspeaks
      obtain rfl : reply = [] := hspeaks
      refine .answering ⟨[], [], ?_, part_le_of_nil hpart (current_recv hport), by simp, le_rfl,
        hright, by rw [hdone]; exact rfl, hreply⟩
      simpa using hfails r hr
    | cut _ hfaulty _ _ _ => exact hfaulty.elim
    | @inner o k may r trace said part heard hport hr =>
      exact .answering ⟨out, reply, (asks_inner hport).mp hasks r hr,
        part_le_of_nil hpart (current_inner hport), hsaid, hbehind, hright, hspeaks, hreply⟩

/-- The invariant, through a step of the one that is asked. -/
theorem Meeting.right {left : Party S₁ ε₁ α₁ A} {right right' : Party S₂ ε₂ α₂ A} {n : ℕ}
    (h : Meeting port₁ port₂ P ⟨left, right⟩)
    (hacts : Acts port₂ False left.said left.Done n right right') :
    Meeting port₁ port₂ P ⟨left, right'⟩ := by
  cases h with
  | asking out hasks hpart hheard hsaid hright hbehind hserves =>
    dsimp only at hasks hpart hheard hsaid hright hbehind hserves
    cases hacts with
    | @push o k items done fails trace said part heard piece hport hne hpiece _ =>
      obtain ⟨hread, reply, hreply, hspeaks⟩ := hserves.speaks hport
      exact .answering ((speaking_of_read hasks hpart hheard hsaid hright hread hspeaks hreply).pushed
        hport hpiece)
    | @sent o k items done fails trace said part heard hport hwhole =>
      obtain ⟨hread, reply, hreply, hspeaks⟩ := hserves.speaks hport
      exact .answering
        ((speaking_of_read hasks hpart hheard hsaid hright hread hspeaks hreply).completed hport hwhole)
    | lost _ hfaulty _ => exact hfaulty.elim
    | @got o k n got fails trace said part heard hport hthere =>
      dsimp only at hserves hbehind hsaid hright
      obtain ⟨-, hk⟩ := (serves_recv hport).mp hserves
      have hin : n ≤ (left.said.drop heard).length := by
        rw [List.length_drop]
        omega
      rw [List.take_append_of_le_length hin, List.drop_append_of_le_length hin, List.drop_drop] at hk
      exact .asking out hasks hpart hheard hsaid hright hthere hk
    | @ended o k n got fails r trace said part heard hport hclosed hshort hr =>
      obtain ⟨out₁, hdone⟩ := hclosed
      rw [hdone] at hasks
      obtain ⟨rfl, -⟩ := hasks
      dsimp only at hserves hbehind
      have hin := ((serves_recv hport).mp hserves).1
      simp only [List.drop_nil, List.append_nil, List.length_drop] at hin
      omega
    | cut _ hfaulty _ _ _ => exact hfaulty.elim
    | @inner o k may r trace said part heard hport hr =>
      exact .asking out hasks hpart hheard hsaid hright hbehind ((serves_inner hport).mp hserves r hr)
  | answering h =>
    cases hacts with
    | push hport _ hpiece _ => exact .answering (h.pushed hport hpiece)
    | sent hport hwhole => exact .answering (h.completed hport hwhole)
    | lost _ hfaulty _ => exact hfaulty.elim
    | got hport _ =>
      obtain ⟨_, _, -, -, -, -, -, hspeaks, -⟩ := h
      exact absurd hspeaks (not_speaks_recv hport)
    | ended hport _ _ _ =>
      obtain ⟨_, _, -, -, -, -, -, hspeaks, -⟩ := h
      exact absurd hspeaks (not_speaks_recv hport)
    | cut _ hfaulty _ _ _ => exact hfaulty.elim
    | @inner o k may r trace said part heard hport hr =>
      obtain ⟨out, reply, hasks, hpart, hsaid, hbehind, hright, hspeaks, hreply⟩ := h
      exact .answering ⟨out, reply, hasks, hpart, hsaid, hbehind,
        part_le_of_nil hright (current_inner hport), (speaks_inner hport).mp hspeaks r hr, hreply⟩

theorem Meeting.move (h : Meeting port₁ port₂ P c) (hmove : Move port₁ port₂ False cap c c') :
    Meeting port₁ port₂ P c' := by
  cases hmove with
  | left hacts => exact h.left hacts
  | right hacts => exact h.right hacts

theorem Reach.meeting (h : Reach port₁ port₂ False cap p q c) (hp : Asks port₁ P p out)
    (hq : Serves port₂ P q out) : Meeting port₁ port₂ P c := by
  induction h with
  | refl => exact start_meeting hp hq
  | tail _ hmove ih => exact ih.move hmove

/-! ## No run gets stuck -/

/-- Every operation that does not wait has an answer. -/
structure Lively (port : Port S A) : Prop where
  fails : ∀ o n got fails, port o = .recv n got fails → ∃ r, fails r
  inner : ∀ o may, port o = .inner may → ∃ r, may r

def Finished (c : Config S₁ S₂ ε₁ ε₂ α₁ α₂ A) : Prop := c.left.Done ∧ c.right.Done

/-- The program has more to write and nobody is there to read it. -/
def Broken (port₁ : Port S₁ A) (port₂ : Port S₂ A) (c : Config S₁ S₂ ε₁ ε₂ α₁ α₂ A) : Prop :=
  (c.right.Done ∧ c.left.part < (current port₁ c.left.prog).length) ∨
    (c.left.Done ∧ c.right.part < (current port₂ c.right.prog).length)

section
variable {port : Port S A} {input : List A} {closed faulty : Prop} {n : ℕ}
  {o : S.Op} {k : S.Res o → Prog S ε α} {items : List A} {done : S.Res o} {fails : S.Res o → Prop}
  {trace : List (Event S)} {said : List A} {part heard : ℕ}

/-- A write is not held up while there is room for one more. -/
theorem exists_acts_send (hport : port o = .send items done fails) (hpart : part ≤ items.length)
    (hroom : part < items.length → said.length + 1 ≤ n) :
    ∃ p', Acts port faulty input closed n ⟨.call o k, trace, said, part, heard⟩ p' := by
  by_cases hwhole : part = items.length
  · exact ⟨_, .sent hport hwhole⟩
  · have hless : part < items.length := by omega
    obtain ⟨piece, hpiece, hne, hone⟩ :
        ∃ piece, piece <+: items.drop part ∧ piece ≠ [] ∧ piece.length ≤ 1 := by
      refine ⟨(items.drop part).take 1, List.take_prefix _ _, fun hnone => ?_, List.length_take_le _ _⟩
      have hlen := congrArg List.length hnone
      simp at hlen
      omega
    have hr := hroom hless
    exact ⟨_, .push hport hne hpiece (by omega)⟩

end

section
variable {left : Party S₁ ε₁ α₁ A} {right : Party S₂ ε₂ α₂ A}

/-- With the answer under way, somebody can step. -/
theorem Speaking.progress (h : Speaking port₁ port₂ P ⟨left, right⟩) (hport₁ : Lively port₁)
    (hport₂ : Lively port₂) (hrunning : ¬ Finished ⟨left, right⟩) :
    ∃ c', Move port₁ port₂ False cap ⟨left, right⟩ c' := by
  obtain ⟨p, trace, said, part, heard⟩ := left
  obtain ⟨q, trace', said', part', heard'⟩ := right
  obtain ⟨out, reply, hasks, hpart, hsaid, hbehind, hright, hspeaks, hreply⟩ := h
  dsimp only at hasks hpart hsaid hbehind hright hspeaks
  -- the one that answers steps by itself, or is held up at a write
  have hanswers (hroom : part' < (current port₂ q).length → said'.length + 1 ≤
      room port₁ cap (⟨p, trace, said, part, heard⟩ : Party S₁ ε₁ α₁ A)) (hq : ∀ out, q ≠ .halt out) :
      ∃ c', Move port₁ port₂ False cap
        ⟨⟨p, trace, said, part, heard⟩, ⟨q, trace', said', part', heard'⟩⟩ c' := by
    cases q with
    | halt out' => exact absurd rfl (hq out')
    | call o k =>
      cases hport : port₂ o with
      | recv n got fails => exact absurd hspeaks (not_speaks_recv hport)
      | inner may =>
        obtain ⟨r, hr⟩ := hport₂.inner o may hport
        exact ⟨_, .right (.inner hport hr)⟩
      | send items done fails =>
        rw [current_send hport] at hright hroom
        obtain ⟨q', hacts⟩ := exists_acts_send hport hright hroom
        exact ⟨_, .right hacts⟩
  cases p with
  | halt out₁ =>
    obtain ⟨rfl, htaken⟩ := hasks
    have hover := (List.append_eq_nil_iff.mp (htaken _ rfl)).2
    refine hanswers (fun hless => ?_) fun out' hq => hrunning ⟨⟨out₁, rfl⟩, ⟨out', hq⟩⟩
    exact absurd hless (hspeaks.current_le hover).not_gt
  | call o k =>
    cases hport : port₁ o with
    | inner may =>
      obtain ⟨r, hr⟩ := hport₁.inner o may hport
      exact ⟨_, .left (.inner hport hr)⟩
    | send items done fails =>
      have hwhole := hpart.antisymm (hasks.current_le hsaid)
      rw [current_send hport] at hwhole
      exact ⟨_, .left (.sent hport hwhole)⟩
    | recv n got fails =>
      by_cases hthere : heard + n ≤ said'.length
      · exact ⟨_, .left (.got hport hthere)⟩
      · by_cases hq : ∃ out', q = .halt out'
        · obtain ⟨out', rfl⟩ := hq
          obtain ⟨r, hr⟩ := hport₁.fails o n got fails hport
          exact ⟨_, .left (.ended hport ⟨out', rfl⟩ (by dsimp only; omega) hr)⟩
        · refine hanswers (fun _ => ?_) fun out' hq' => hq ⟨out', hq'⟩
          simp only [room, wants_recv hport]
          omega

theorem Meeting.progress (h : Meeting port₁ port₂ P ⟨left, right⟩) (hcap : 0 < cap)
    (hport₁ : Lively port₁) (hport₂ : Lively port₂) (hrunning : ¬ Finished ⟨left, right⟩) :
    ∃ c', Move port₁ port₂ False cap ⟨left, right⟩ c' := by
  cases h with
  | answering h => exact h.progress hport₁ hport₂ hrunning
  | asking out hasks hpart hheard hsaid hright hbehind hserves =>
    obtain ⟨p, trace, said, part, heard⟩ := left
    obtain ⟨q, trace', said', part', heard'⟩ := right
    dsimp only at hasks hpart hheard hsaid hright hbehind hserves
    cases q with
    | halt out₂ =>
      obtain ⟨hread, hnone⟩ := hserves
      have hspeaks : Speaks port₂ (.halt out₂ : Prog S₂ ε₂ α₂) [] := rfl
      exact (speaking_of_read hasks hpart hheard hsaid hright hread hspeaks hnone).progress hport₁
        hport₂ hrunning
    | call o k =>
      cases hport : port₂ o with
      | inner may =>
        obtain ⟨r, hr⟩ := hport₂.inner o may hport
        exact ⟨_, .right (.inner hport hr)⟩
      | send items done fails =>
        obtain ⟨hread, reply, hreply, hspeaks⟩ := hserves.speaks hport
        exact (speaking_of_read hasks hpart hheard hsaid hright hread hspeaks hreply).progress hport₁
          hport₂ hrunning
      | recv n got fails =>
        by_cases hthere : heard' + n ≤ said.length
        · exact ⟨_, .right (.got hport hthere)⟩
        · -- the one that asks has more to say, and there is room for it
          have hin := ((serves_recv hport).mp hserves).1
          rw [List.length_append, List.length_drop] at hin
          cases p with
          | halt out₁ =>
            obtain ⟨rfl, -⟩ := hasks
            simp at hin
            omega
          | call o' k' =>
            cases hport' : port₁ o' with
            | inner may =>
              obtain ⟨r, hr⟩ := hport₁.inner o' may hport'
              exact ⟨_, .left (.inner hport' hr)⟩
            | recv n' got' fails' =>
              obtain ⟨rfl, -⟩ := (asks_recv hport').mp hasks
              simp at hin
              omega
            | send items done fails =>
              rw [current_send hport'] at hpart
              have hroom : said.length + 1 ≤
                  room port₂ cap (⟨.call o k, trace', said', part', heard'⟩ : Party S₂ ε₂ α₂ A) := by
                simp only [room, wants_recv hport]
                omega
              obtain ⟨p', hacts⟩ : ∃ p', Acts port₁ False said'
                  (⟨.call o k, trace', said', part', heard'⟩ : Party S₂ ε₂ α₂ A).Done
                  (room port₂ cap (⟨.call o k, trace', said', part', heard'⟩ : Party S₂ ε₂ α₂ A))
                  ⟨.call o' k', trace, said, part, heard⟩ p' :=
                exists_acts_send hport' hpart fun _ => hroom
              exact ⟨_, .left hacts⟩

/-- Nobody writes to one that has ended. -/
theorem Speaking.unbroken (h : Speaking port₁ port₂ P c) : ¬ Broken port₁ port₂ c := by
  obtain ⟨out, reply, hasks, hpart, hsaid, hbehind, hright, hspeaks, hreply⟩ := h
  rintro (⟨-, hless⟩ | ⟨⟨out₁, hdone⟩, hless⟩)
  · exact absurd hless (hasks.current_le hsaid).not_gt
  · rw [hdone] at hasks
    have hover := (List.append_eq_nil_iff.mp (hasks.2 _ rfl)).2
    exact absurd hless (hspeaks.current_le hover).not_gt

theorem Meeting.unbroken (h : Meeting port₁ port₂ P c) : ¬ Broken port₁ port₂ c := by
  cases h with
  | answering h => exact h.unbroken
  | asking out hasks hpart hheard hsaid hright hbehind hserves =>
    rintro (⟨⟨out₂, hdone⟩, hless⟩ | ⟨hdone, hless⟩)
    · rw [hdone] at hserves
      have hspeaks : Speaks port₂ c.right.prog [] := hdone ▸ rfl
      exact (speaking_of_read hasks hpart hheard hsaid hright hserves.1 hspeaks hserves.2).unbroken
        (Or.inl ⟨⟨out₂, hdone⟩, hless⟩)
    · cases hprog : c.right.prog with
      | halt out₂ => simp [hprog, current] at hless
      | call o k =>
        rw [hprog] at hserves hless
        cases hport : port₂ o with
        | inner may => simp [current_inner hport] at hless
        | recv n got fails => simp [current_recv hport] at hless
        | send items done fails =>
          obtain ⟨hread, reply, hreply, hspeaks⟩ := hserves.speaks hport
          rw [← hprog] at hspeaks
          exact (speaking_of_read hasks hpart hheard hsaid hright hread hspeaks hreply).unbroken
            (Or.inr ⟨hdone, by rwa [hprog]⟩)

/-- The answer that was given is one of those expected. -/
theorem Meeting.answer (h : Meeting port₁ port₂ P c) (hdone : c.right.Done) : P c.right.said := by
  obtain ⟨out₂, hdone⟩ := hdone
  cases h with
  | asking out _ _ _ hsaid _ _ hserves =>
    rw [hdone] at hserves
    exact hsaid ▸ hserves.2
  | answering h =>
    obtain ⟨out, reply, -, -, -, -, -, hspeaks, hreply⟩ := h
    rw [hdone] at hspeaks
    obtain rfl : reply = [] := hspeaks
    simpa using hreply

/-- Without faults, a run in which one program asks what the other one serves never gets stuck and
never breaks, however little the wire holds, and ends with an answer. -/
theorem Reach.completes (h : Reach port₁ port₂ False cap p q c) (hp : Asks port₁ P p out)
    (hq : Serves port₂ P q out) (hcap : 0 < cap) (hport₁ : Lively port₁) (hport₂ : Lively port₂) :
    ¬ Broken port₁ port₂ c ∧
      ((∃ c', Move port₁ port₂ False cap c c') ∨ Finished c ∧ P c.right.said) := by
  have hmeeting := h.meeting hp hq
  refine ⟨hmeeting.unbroken, ?_⟩
  by_cases hrunning : Finished c
  · exact Or.inr ⟨hrunning, hmeeting.answer hrunning.2⟩
  · exact Or.inl (hmeeting.progress hcap hport₁ hport₂ hrunning)

/-- From wherever it is, a run without faults comes to its end. -/
theorem Reach.exists_finished (h : Reach port₁ port₂ False cap p q c) (hp : Asks port₁ P p out)
    (hq : Serves port₂ P q out) (hcap : 0 < cap) (hport₁ : Lively port₁) (hport₂ : Lively port₂) :
    ∃ c', Reach port₁ port₂ False cap p q c' ∧ Finished c' := by
  induction c using (move_wf port₁ port₂ False cap).induction with
  | _ c ih =>
    obtain ⟨-, ⟨c', hmove⟩ | ⟨hfinished, -⟩⟩ := h.completes hp hq hcap hport₁ hport₂
    · exact ih c' hmove (h.tail hmove)
    · exact ⟨c, h, hfinished⟩

end

end

end Duplex
end MiddleWhere
