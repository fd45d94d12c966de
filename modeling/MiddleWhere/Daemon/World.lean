import MiddleWhere.Core.StoreRuns
import MiddleWhere.Daemon.Handlers

/-!
# What the daemon's operations do

A world is what the daemon's requests act on: the sealed store, the table of live
environments, the accept loops that run, and the cached SSH sessions. The store's part of an
operation is an execution of the store's own program, so its failures are all in here. What
the network answers is left open.
-/

namespace MiddleWhere

namespace Daemon
open Prog

theorem wp_ask_bind {σ α : Type} {M : Sem daemonSig σ} {o : DaemonOp} {f : o.Res → DaemonProg α}
    {Q : List DaemonEvent → Outcome String α → σ → Prop} {s : σ}
    (h : ∀ r s', M s o r s' → wp M (f r) (fun t out s'' => Q (⟨o, r⟩ :: t) out s'') s') :
    wp M ((ask o).bind f) Q s :=
  wp_call.mpr h

structure Handle where
  runtime : EnvRuntime
  loop : LoopId
deriving DecidableEq

/-- `replaced` records the names at which an insertion found a handle that was already there. -/
structure World where
  store : Store.World
  live : Table Handle
  loops : List (LoopId × String)
  sessions : Table BastionSession
  replaced : List String

section
variable (deps : DaemonDeps)

def World.stored (w : World) : Option Config := Store.stored deps.seals deps.stateDir w.store

def persistProg (change : Mutate.Change) : Store.StoreProg change.Out :=
  Store.withConfig deps.seals deps.stateDir (Store.ofTransform (change.run deps.mutate))

/-- `r` is the result of a whole execution of a program of the store. -/
def RunsStore {α : Type} (p : Store.StoreProg α) (w : World) (r : Except Store.StateError α)
    (w' : World) : Prop :=
  (∃ t, Exec Store.storeSem p w.store t (match r with | .ok a => .ok a | .error e => .err e)
    w'.store) ∧ w' = { w with store := w'.store }

end

/-- The session was opened under this entry: with a pin or on first use, and with a password. -/
structure Opened (bastion : Bastion) (allowTofu : Bool) (s : BastionSession) : Prop where
  entry : s.bastion = bastion
  trusted : bastion.pinnedHostKeys ≠ [] ∨ allowTofu = true
  password : ∃ p, bastion.auth = .password p

def daemonSem (deps : DaemonDeps) : Sem daemonSig World
  | w, .persist change, r, w' => RunsStore (persistProg deps change) w r w'
  | w, .loadConfig, r, w' => RunsStore (Store.loadConfig deps.seals deps.stateDir) w r w'
  | w, .getOrOpen name bastion allowTofu, r, w' =>
    match w.sessions[name]? with
    | some s => r = .ok s ∧ w' = w
    | none => (∃ e, r = .error e ∧ w' = w) ∨ ∃ s, r = .ok s ∧ Opened bastion allowTofu s ∧
        w' = { w with sessions := w.sessions.insert name s }
  | w, .openFresh _ bastion allowTofu, r, w' =>
    w' = w ∧ ∀ s, r = .ok s → Opened bastion allowTofu s
  | w, .evict name, r, w' =>
    r = decide (name ∈ w.sessions) ∧ w' = { w with sessions := w.sessions.erase name }
  | w, .buildBackend engine _ _, r, w' => w' = w ∧ (engine = .msSql → ∃ e, r = .error e)
  | w, .spawnLoop runtime _, id, w' =>
    id ∉ w.loops.map Prod.fst ∧ w' = { w with loops := (id, runtime.name) :: w.loops }
  | w, .abortLoop id, _, w' => w' = { w with loops := w.loops.filter fun l => l.1 ≠ id }
  | w, .insertEnv name runtime id, _, w' => w' = { w with
      live := w.live.insert name ⟨runtime, id⟩
      replaced := if name ∈ w.live then name :: w.replaced else w.replaced }
  | w, .removeEnv name, r, w' =>
    r = (w.live[name]?).map Handle.loop ∧ w' = { w with live := w.live.erase name }
  | w, .hasEnv name, r, w' => r = decide (name ∈ w.live) ∧ w' = w
  | w, .currentRuntime name, r, w' => r = (w.live[name]?).map Handle.runtime ∧ w' = w
  | w, .publish name runtime, r, w' =>
    match w.live[name]? with
    | some h => r = true ∧ w' = { w with live := w.live.insert name { h with runtime := runtime } }
    | none => r = false ∧ w' = w
  | w, _, _, w' => w' = w

/-- An update of the store that fails leaves it as it was. -/
def Settled (deps : DaemonDeps) (w : World) : (o : DaemonOp) → o.Res → World → Prop
  | .persist _, .error _, w' => w'.stored deps = w.stored deps
  | _, _, _ => True

def settledSem (deps : DaemonDeps) : Sem daemonSig World :=
  fun w o r w' => daemonSem deps w o r w' ∧ Settled deps w o r w'

/-- The states between requests, from a start on. -/
inductive Reached (deps : DaemonDeps) (M : Sem daemonSig World) : World → Prop
  | started {w₀ w : World} {t : List DaemonEvent} (idleTimeoutSecs : Option UInt32) :
      w₀.live = ∅ → w₀.loops = [] → w₀.sessions = ∅ → w₀.replaced = [] →
      Exec M (run deps idleTimeoutSecs) w₀ t (.ok ()) w → Reached deps M w
  | served {w w' : World} {t : List DaemonEvent} {out : Outcome String Response}
      (peer : PeerIdentity) (req : Request) : Reached deps M w →
      Exec M (dispatch deps peer req) w t out w' → Reached deps M w'

end Daemon
end MiddleWhere
