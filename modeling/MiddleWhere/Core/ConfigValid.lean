import MiddleWhere.Core.Config
import MiddleWhere.Data.Tables

/-!
# What `validate` accepts

`WellFormed` states in one piece what the loop of `validate` checks environment by
environment, and `valid_iff` is their equivalence. Below it are the single rewrites of a
table of the configuration that keep it well-formed, each with its own condition.
-/

namespace MiddleWhere
open Std (ExtTreeMap)

structure Config.WellFormed (cfg : Config) : Prop where
  schema : cfg.schemaVersion = currentSchemaVersion
  bastions : ∀ (name : String) (env : Env) (b : String),
    cfg.envs[name]? = some env → env.bastion = some b → b ∈ cfg.bastions
  credentials : ∀ (name : String) (env : Env),
    cfg.envs[name]? = some env → env.credential ∈ cfg.credentials
  auths : ∀ (name : String) (env : Env),
    cfg.envs[name]? = some env → authMatches env.engine env.clientAuth = true
  ports : Tables.Distinct Env.listenPort cfg.envs

namespace Config

theorem bind_eq_ok_iff {ε α β : Type} {x : Except ε α} {f : α → Except ε β} {b : β} :
    (x >>= f) = .ok b ↔ ∃ a, x = .ok a ∧ f a = .ok b := by
  cases x with
  | error e => simp [bind, Except.bind]
  | ok a => simp [bind, Except.bind]

theorem ite_throw_eq_ok_iff {ε α β : Type} {c : Prop} [Decidable c] {x : Except ε β} {e : ε}
    {f : α → Except ε β} {b : β} :
    (if c then x else throw e >>= f) = .ok b ↔ c ∧ x = .ok b := by
  by_cases h : c
  · simp [h]
  · simp [h, bind, Except.bind, throw, throwThe, MonadExceptOf.throw]

theorem unless_eq_ok_iff {ε : Type} {c : Prop} [Decidable c] {e : ε} {u : Unit} :
    ((if c then pure () else throw e : Except ε Unit) = .ok u) ↔ c := by
  by_cases h : c
  · simp [h, pure, Except.pure]
  · simp [h, throw, throwThe, MonadExceptOf.throw]

theorem checkEnv_eq_ok_iff {cfg : Config} {name : String} {env : Env} :
    checkEnv cfg name env = .ok () ↔ (∀ b, env.bastion = some b → b ∈ cfg.bastions) ∧
      env.credential ∈ cfg.credentials ∧ authMatches env.engine env.clientAuth = true := by
  unfold checkEnv
  cases hb : env.bastion with
  | none => simp [ite_throw_eq_ok_iff, unless_eq_ok_iff]
  | some b => simp [ite_throw_eq_ok_iff, unless_eq_ok_iff]

theorem lookup_eq_none_iff {κ α : Type} [BEq κ] [LawfulBEq κ] {l : List (κ × α)} {k : κ} :
    l.lookup k = none ↔ k ∉ l.map Prod.fst := by
  rw [List.lookup_eq_none_iff, List.mem_map]
  constructor
  · rintro h ⟨e, he, rfl⟩
    simpa using h e he
  · intro h e he
    by_contra heq
    have hfst : e.1 = k := by simpa using (Eq.symm · : k = e.1 → e.1 = k) (by simpa using heq)
    exact h ⟨e, he, hfst⟩

/-- The loop accepts a list of environments if each passes its own checks and no port is
seen twice, counting the ports seen before. -/
theorem checkEnvs_eq_ok_iff {cfg : Config} (envs : List (String × Env))
    (seenPorts : List (UInt16 × String)) :
    checkEnvs cfg envs seenPorts = .ok () ↔ (∀ e ∈ envs, checkEnv cfg e.1 e.2 = .ok ()) ∧
      (envs.map fun e => e.2.listenPort).Nodup ∧
      ∀ e ∈ envs, e.2.listenPort ∉ seenPorts.map Prod.fst := by
  induction envs generalizing seenPorts with
  | nil => simp [checkEnvs]
  | cons e rest ih =>
    obtain ⟨name, env⟩ := e
    have hstep : checkEnvs cfg ((name, env) :: rest) seenPorts = .ok () ↔
        checkEnv cfg name env = .ok () ∧ env.listenPort ∉ seenPorts.map Prod.fst ∧
          checkEnvs cfg rest ((env.listenPort, name) :: seenPorts) = .ok () := by
      rw [checkEnvs, bind_eq_ok_iff, ← lookup_eq_none_iff]
      cases hseen : seenPorts.lookup env.listenPort with
      | some prev => simp [throw, throwThe, MonadExceptOf.throw]
      | none =>
        have hunit : (∃ u, checkEnv cfg name env = .ok u) ↔ checkEnv cfg name env = .ok () :=
          ⟨fun ⟨_, h⟩ => h, fun h => ⟨(), h⟩⟩
        simp [hunit]
    have hports : (∀ e ∈ rest, e.2.listenPort ∉ ((env.listenPort, name) :: seenPorts).map Prod.fst) ↔
        env.listenPort ∉ rest.map (fun e => e.2.listenPort) ∧
          ∀ e ∈ rest, e.2.listenPort ∉ seenPorts.map Prod.fst := by
      simp only [List.map_cons, List.mem_cons, not_or, List.mem_map, not_exists, not_and]
      constructor
      · intro h
        exact ⟨fun e he => (h e he).1, fun e he => (h e he).2⟩
      · rintro ⟨hne, hseen⟩ e he
        exact ⟨hne e he, hseen e he⟩
    rw [hstep, ih, hports]
    simp only [List.forall_mem_cons, List.map_cons, List.nodup_cons]
    tauto

theorem distinct_ports_iff {cfg : Config} :
    (cfg.envs.toList.map fun e => e.2.listenPort).Nodup ↔
      Tables.Distinct Env.listenPort cfg.envs := by
  have hnodup : cfg.envs.toList.Nodup :=
    ExtTreeMap.distinct_keys_toList.imp fun h heq => h (by simp [heq])
  have hmem : ∀ (k : String) (v : Env), cfg.envs[k]? = some v ↔ (k, v) ∈ cfg.envs.toList := by
    simp
  constructor
  · intro hports k k' v v' hk hk' heq
    have hsame := List.inj_on_of_nodup_map hports ((hmem k v).mp hk) ((hmem k' v').mp hk') heq
    exact congrArg Prod.fst hsame
  · intro hdistinct
    apply hnodup.map_on
    rintro ⟨k, v⟩ hk ⟨k', v'⟩ hk' heq
    obtain rfl : k = k' := hdistinct k k' v v' ((hmem k v).mpr hk) ((hmem k' v').mpr hk') heq
    have hv : some v = some v' := by rw [← (hmem k v).mpr hk, (hmem k v').mpr hk']
    rw [Option.some.inj hv]

theorem valid_iff {cfg : Config} : cfg.Valid ↔ cfg.WellFormed := by
  unfold Valid validate
  by_cases hschema : cfg.schemaVersion = currentSchemaVersion
  · have henvs : ∀ {P : String → Env → Prop}, (∀ e ∈ cfg.envs.toList, P e.1 e.2) ↔
        ∀ (name : String) (env : Env), cfg.envs[name]? = some env → P name env := by
      intro P
      simp
    rw [if_neg (not_not.mpr hschema), checkEnvs_eq_ok_iff, distinct_ports_iff]
    simp only [checkEnv_eq_ok_iff, List.map_nil, List.not_mem_nil, not_false_eq_true, implies_true,
      and_true]
    rw [henvs (P := fun _ env => (∀ b, env.bastion = some b → b ∈ cfg.bastions) ∧
      env.credential ∈ cfg.credentials ∧ authMatches env.engine env.clientAuth = true)]
    constructor
    · rintro ⟨hchecks, hports⟩
      exact ⟨hschema, fun name env b he => (hchecks name env he).1 b,
        fun name env he => (hchecks name env he).2.1,
        fun name env he => (hchecks name env he).2.2, hports⟩
    · intro h
      exact ⟨fun name env he => ⟨fun b => h.bastions name env b he, h.credentials name env he,
        h.auths name env he⟩, h.ports⟩
  · rw [if_pos hschema]
    simp only [reduceCtorEq, false_iff]
    exact fun h => hschema h.schema

/-! ## Single rewrites of a well-formed configuration -/

namespace WellFormed

variable {cfg : Config}

theorem empty : ({} : Config).WellFormed where
  schema := rfl
  bastions name env b h := by simp at h
  credentials name env h := by simp at h
  auths name env h := by simp at h
  ports := Tables.distinct_empty

theorem insertBastion (h : cfg.WellFormed) (name : String) (b : Bastion) :
    { cfg with bastions := cfg.bastions.insert name b }.WellFormed where
  schema := h.schema
  bastions n env r he hr := ExtTreeMap.mem_insert.mpr (Or.inr (h.bastions n env r he hr))
  credentials := h.credentials
  auths := h.auths
  ports := h.ports

theorem eraseBastion (h : cfg.WellFormed) {name : String}
    (hfree : ∀ (n : String) (env : Env), cfg.envs[n]? = some env → env.bastion ≠ some name) :
    { cfg with bastions := cfg.bastions.erase name }.WellFormed where
  schema := h.schema
  bastions n env r he hr := by
    have hne : name ≠ r := fun heq => hfree n env he (heq ▸ hr)
    simpa [ExtTreeMap.mem_erase, hne] using h.bastions n env r he hr
  credentials := h.credentials
  auths := h.auths
  ports := h.ports

theorem insertCredential (h : cfg.WellFormed) (name : String) (c : Credential) :
    { cfg with credentials := cfg.credentials.insert name c }.WellFormed where
  schema := h.schema
  bastions := h.bastions
  credentials n env he := ExtTreeMap.mem_insert.mpr (Or.inr (h.credentials n env he))
  auths := h.auths
  ports := h.ports

theorem eraseCredential (h : cfg.WellFormed) {name : String}
    (hfree : ∀ (n : String) (env : Env), cfg.envs[n]? = some env → env.credential ≠ name) :
    { cfg with credentials := cfg.credentials.erase name }.WellFormed where
  schema := h.schema
  bastions := h.bastions
  credentials n env he := by
    have hne : name ≠ env.credential := fun heq => hfree n env he heq.symm
    simpa [ExtTreeMap.mem_erase, hne] using h.credentials n env he
  auths := h.auths
  ports := h.ports

/-- An environment whose references resolve may be put in place of one with its port, or
at a name of its own if its port is free. -/
theorem insertEnv (h : cfg.WellFormed) {name : String} {env : Env}
    (hbastion : ∀ b, env.bastion = some b → b ∈ cfg.bastions)
    (hcredential : env.credential ∈ cfg.credentials)
    (hauth : authMatches env.engine env.clientAuth = true)
    (hport : ∀ (n : String) (e : Env), cfg.envs[n]? = some e → n ≠ name →
      e.listenPort ≠ env.listenPort) :
    { cfg with envs := cfg.envs.insert name env }.WellFormed where
  schema := h.schema
  bastions n e r he hr := by
    rcases Tables.getElem?_insert_eq_some.mp he with ⟨-, rfl⟩ | ⟨-, he⟩
    · exact hbastion r hr
    · exact h.bastions n e r he hr
  credentials n e he := by
    rcases Tables.getElem?_insert_eq_some.mp he with ⟨-, rfl⟩ | ⟨-, he⟩
    · exact hcredential
    · exact h.credentials n e he
  auths n e he := by
    rcases Tables.getElem?_insert_eq_some.mp he with ⟨-, rfl⟩ | ⟨-, he⟩
    · exact hauth
    · exact h.auths n e he
  ports := h.ports.insert hport

/-- An environment rewritten in place keeps its references and its port. -/
theorem updateEnv (h : cfg.WellFormed) {name : String} {env env' : Env}
    (hname : cfg.envs[name]? = some env) (hbastion : env'.bastion = env.bastion)
    (hcredential : env'.credential = env.credential) (hport : env'.listenPort = env.listenPort)
    (hauth : authMatches env'.engine env'.clientAuth = true) :
    { cfg with envs := cfg.envs.insert name env' }.WellFormed := by
  apply h.insertEnv
  · intro b hb
    exact h.bastions name env b hname (hbastion ▸ hb)
  · rw [hcredential]
    exact h.credentials name env hname
  · exact hauth
  · intro n e he hne heq
    exact hne (h.ports n name e env he hname (heq.trans hport))

theorem eraseEnv (h : cfg.WellFormed) (name : String) :
    { cfg with envs := cfg.envs.erase name }.WellFormed where
  schema := h.schema
  bastions n e r he hr := h.bastions n e r (Tables.getElem?_erase_eq_some.mp he).2 hr
  credentials n e he := h.credentials n e (Tables.getElem?_erase_eq_some.mp he).2
  auths n e he := h.auths n e (Tables.getElem?_erase_eq_some.mp he).2
  ports := h.ports.erase

end WellFormed

end Config

end MiddleWhere
