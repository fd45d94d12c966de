import MiddleWhere.Effects.Prog

/-!
# Files whose operations can fail

A disk gives each path the contents of its file, or nothing. Every operation may fail, and
a failed or interrupted write leaves any prefix of its text behind; a rename either
happens or does not. `Step` says what an operation may answer and leave, `Healthy` that it
did not fail without a reason, and `touched` which paths it can change.
-/

namespace MiddleWhere

abbrev Disk (P : Type) := P → Option (List UInt8)

/-- Directories are named by their text; they hold no contents of their own. -/
inductive DiskAct (P : Type)
  | remove (p : P)
  | rename (src dst : P)
  | makeDirs (dir : String)
  | truncate (p : P)
  | write (p : P) (text : List UInt8)
  | sync (p : P)

inductive DiskOp (P : Type)
  | probe (p : P)
  | read (p : P)
  | act (a : DiskAct P)

variable {P : Type}

abbrev DiskOp.Res : DiskOp P → Type
  | .probe _ => Bool
  | .read _ => Except String (List UInt8)
  | .act _ => Except String Unit

def DiskAct.touched : DiskAct P → List P
  | .remove p | .truncate p | .write p _ => [p]
  | .rename src dst => [src, dst]
  | .makeDirs _ | .sync _ => []

namespace Disk

variable [DecidableEq P]

def Act (d : Disk P) : DiskAct P → Except String Unit → Disk P → Prop
  | .remove p, .ok _, d' => d' = Function.update d p none
  | .rename src dst, .ok _, d' => ∃ text, d src = some text ∧
      d' = Function.update (Function.update d src none) dst (some text)
  | .truncate p, .ok _, d' => d' = Function.update d p (some [])
  | .truncate p, .error _, d' => d' = d ∨ d' = Function.update d p (some [])
  | .write p text, .ok _, d' => d' = Function.update d p (some text)
  | .write p text, .error _, d' => ∃ done, done <+: text ∧ d' = Function.update d p (some done)
  | _, _, d' => d' = d

def Step (d : Disk P) : (o : DiskOp P) → o.Res → Disk P → Prop
  | .probe p, found, d' => d' = d ∧ (found = true → (d p).isSome)
  | .read p, r, d' => d' = d ∧ ∀ text, r = .ok text → d p = some text
  | .act a, r, d' => d.Act a r d'

def Healthy (d : Disk P) : (o : DiskOp P) → o.Res → Prop
  | .probe p, found => (d p).isSome → found = true
  | .read p, r => d p = none ∨ ∃ text, r = .ok text
  | .act _, r => r = .ok ()

variable {d d' : Disk P}

theorem Act.frame {a : DiskAct P} {r : Except String Unit} (h : d.Act a r d') {p : P}
    (hp : p ∉ a.touched) : d' p = d p := by
  cases a with
  | remove q =>
    have hne : p ≠ q := by simpa [DiskAct.touched] using hp
    cases r with
    | ok u => rw [show d' = _ from h, Function.update_of_ne hne]
    | error e => rw [show d' = d from h]
  | rename src dst =>
    have hne : p ≠ src ∧ p ≠ dst := by simpa [DiskAct.touched] using hp
    cases r with
    | ok u =>
      obtain ⟨text, -, rfl⟩ := h
      rw [Function.update_of_ne hne.2, Function.update_of_ne hne.1]
    | error e => rw [show d' = d from h]
  | makeDirs dir => rw [show d' = d from h]
  | truncate q =>
    have hne : p ≠ q := by simpa [DiskAct.touched] using hp
    cases r with
    | ok u => rw [show d' = _ from h, Function.update_of_ne hne]
    | error e =>
      rcases h with rfl | rfl
      · rfl
      · rw [Function.update_of_ne hne]
  | write q text =>
    have hne : p ≠ q := by simpa [DiskAct.touched] using hp
    cases r with
    | ok u => rw [show d' = _ from h, Function.update_of_ne hne]
    | error e =>
      obtain ⟨done, -, rfl⟩ := h
      rw [Function.update_of_ne hne]
  | sync q => rw [show d' = d from h]

theorem Act.write_ok {p : P} {text : List UInt8} (h : d.Act (.write p text) (.ok ()) d') :
    d' p = some text := by
  rw [show d' = _ from h, Function.update_self]

/-- A rename that happened moves the whole contents at once. -/
theorem Act.rename_ok {src dst : P} (h : d.Act (.rename src dst) (.ok ()) d') :
    d' dst = d src := by
  obtain ⟨text, hsrc, rfl⟩ := h
  rw [Function.update_self, hsrc]

theorem Act.rename_ok_src {src dst : P} (hne : src ≠ dst)
    (h : d.Act (.rename src dst) (.ok ()) d') : d' src = none := by
  obtain ⟨text, -, rfl⟩ := h
  rw [Function.update_of_ne hne, Function.update_self]

theorem Act.error_rename {src dst : P} {e : String} (h : d.Act (.rename src dst) (.error e) d') :
    d' = d := h

end Disk
end MiddleWhere
