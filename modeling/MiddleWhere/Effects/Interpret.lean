import MiddleWhere.Effects.Prog

/-!
# Programs over another interface

A program runs over another interface when each of its operations is a program there. What the
parts use, the whole uses.
-/

namespace MiddleWhere
namespace Prog

variable {S T : Sig} {ε α β : Type}

def interpret (h : (o : S.Op) → Prog T ε (S.Res o)) : Prog S ε α → Prog T ε α
  | .halt out => .halt out
  | .call o k => (h o).bind fun r => (k r).interpret h

theorem uses_interpret {h : (o : S.Op) → Prog T ε (S.Res o)} {A : S.Op → Prop} {B : T.Op → Prop}
    (hh : ∀ o, A o → (h o).Uses B) {p : Prog S ε α} (hp : p.Uses A) : (p.interpret h).Uses B := by
  induction p with
  | halt out => trivial
  | call o k ih => exact uses_bind (hh o hp.1) fun r => ih r (hp.2 r)

theorem interpret_bind (h : (o : S.Op) → Prog T ε (S.Res o)) (p : Prog S ε α)
    (f : α → Prog S ε β) : (p.bind f).interpret h = (p.interpret h).bind fun a => (f a).interpret h := by
  induction p with
  | halt out => cases out <;> rfl
  | call o k ih => simp only [call_bind, interpret, ih, bind_assoc]

end Prog
end MiddleWhere
