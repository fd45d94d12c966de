import MiddleWhere.Core.MutateValid

/-!
# What each transform writes

The configuration that a transform of bastions or credentials leaves when it is not refused, and
what it has checked before.
-/

namespace MiddleWhere.Mutate
open Transform

variable {deps : MutateDeps} {cfg : Config}

theorem mem_usersOf_iff {refers : Env → Bool} {name : String} : name ∈ usersOf cfg refers ↔
    ∃ env, cfg.envs[name]? = some env ∧ refers env = true := by
  simp [usersOf]

theorem addBastion_spec {args : BastionAddArgs} : (addBastion deps args).Atomic cfg fun _ cfg' =>
    args.name ∉ cfg.bastions ∧
      ∃ b, cfg' = { cfg with bastions := cfg.bastions.insert args.name b } := by
  unfold addBastion Atomic
  by_cases hname : args.name ∈ cfg.bastions
  · simp [hname]
  · simp [hname]

theorem setFingerprint_spec {name : String} {fingerprint : HostKeyFingerprint} :
    (setFingerprint deps name fingerprint).Atomic cfg fun _ cfg' =>
      ∃ b, cfg.bastions[name]? = some b ∧
        cfg' = { cfg with
          bastions := cfg.bastions.insert name { b with pinnedHostKeys := [fingerprint] } } := by
  unfold setFingerprint Atomic
  cases hname : cfg.bastions[name]? with
  | none => simp [hname]
  | some b => simp [hname]

theorem rmBastion_spec {name : String} : (rmBastion deps name).Atomic cfg fun _ cfg' =>
    (∀ (n : String) (env : Env), cfg.envs[n]? = some env → env.bastion ≠ some name) ∧
      cfg' = { cfg with bastions := cfg.bastions.erase name } := by
  have hsame : name ∉ cfg.bastions → { cfg with bastions := cfg.bastions.erase name } = cfg := by
    intro hnot
    rw [Tables.erase_of_not_mem hnot]
  have hfree : usersOf cfg (fun e => e.bastion == some name) = [] →
      ∀ (n : String) (env : Env), cfg.envs[n]? = some env → env.bastion ≠ some name := by
    intro h n env he
    simpa using usersOf_eq_nil_iff.mp h n env he
  unfold rmBastion Atomic
  simpa using fun h => ⟨fun _ => hfree h, hsame⟩

theorem addCred_spec {name user password : String} :
    (addCred deps name user password).Atomic cfg fun _ cfg' =>
      name ∉ cfg.credentials ∧
        ∃ c, cfg' = { cfg with credentials := cfg.credentials.insert name c } := by
  unfold addCred Atomic
  by_cases hname : name ∈ cfg.credentials
  · simp [hname]
  · simp [hname]

theorem rotateCred_spec {name password : String} :
    (rotateCred deps name password).Atomic cfg fun _ cfg' =>
      ∃ c, cfg.credentials[name]? = some c ∧
        cfg' = { cfg with
          credentials := cfg.credentials.insert name { c with backendPassword := password } } := by
  unfold rotateCred Atomic
  cases hname : cfg.credentials[name]? with
  | none => simp [hname]
  | some c => simp [hname]

theorem rmCred_spec {name : String} : (rmCred deps name).Atomic cfg fun _ cfg' =>
    (∀ (n : String) (env : Env), cfg.envs[n]? = some env → env.credential ≠ name) ∧
      cfg' = { cfg with credentials := cfg.credentials.erase name } := by
  have hsame : name ∉ cfg.credentials →
      { cfg with credentials := cfg.credentials.erase name } = cfg := by
    intro hnot
    rw [Tables.erase_of_not_mem hnot]
  have hfree : usersOf cfg (fun e => e.credential == name) = [] →
      ∀ (n : String) (env : Env), cfg.envs[n]? = some env → env.credential ≠ name := by
    intro h n env he
    simpa using usersOf_eq_nil_iff.mp h n env he
  unfold rmCred Atomic
  simpa using fun h => ⟨fun _ => hfree h, hsame⟩

end MiddleWhere.Mutate
