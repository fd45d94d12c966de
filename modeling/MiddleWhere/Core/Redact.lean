import MiddleWhere.Core.MutateValid
import MiddleWhere.Effects.Paired

/-!
# Configurations without their secrets

Redacting a configuration blanks the passwords, keys and passphrases of its bastions, the
passwords of its credentials and the verifiers of its environments, and keeps their kinds. What
`validate` and the listings read survives it, and the transforms that take a secret leave
configurations that differ in nothing else.
-/

namespace MiddleWhere
open Std (ExtTreeMap)
open Prog (Alike SameOutcome)

def BastionAuth.redact : BastionAuth → BastionAuth
  | .password _ => .password ""
  | .key _ _ => .key [] none

def Bastion.redact (b : Bastion) : Bastion := { b with auth := b.auth.redact }

def Credential.redact (c : Credential) : Credential := { c with backendPassword := "" }

def ClientAuth.redact : ClientAuth → ClientAuth
  | .nativePassword _ => .nativePassword []
  | .pgCleartext _ => .pgCleartext []

def Env.redact (e : Env) : Env := { e with clientAuth := e.clientAuth.redact }

def Config.redact (cfg : Config) : Config where
  schemaVersion := cfg.schemaVersion
  bastions := cfg.bastions.map fun _ b => b.redact
  credentials := cfg.credentials.map fun _ c => c.redact
  envs := cfg.envs.map fun _ e => e.redact

theorem Tables.map_insert {α β : Type} (f : α → β) (t : Table α) (k : String) (v : α) :
    (t.insert k v).map (fun _ => f) = (t.map fun _ => f).insert k (f v) := by
  apply ExtTreeMap.ext_getElem?
  intro n
  rw [ExtTreeMap.getElem?_map, ExtTreeMap.getElem?_insert, ExtTreeMap.getElem?_insert,
    ExtTreeMap.getElem?_map]
  split_ifs <;> rfl

namespace Config

variable {cfg cfg₁ cfg₂ : Config} {name : String}

@[simp] theorem bastions_redact : cfg.redact.bastions[name]? = cfg.bastions[name]?.map .redact :=
  ExtTreeMap.getElem?_map

@[simp] theorem credentials_redact :
    cfg.redact.credentials[name]? = cfg.credentials[name]?.map .redact :=
  ExtTreeMap.getElem?_map

@[simp] theorem envs_redact : cfg.redact.envs[name]? = cfg.envs[name]?.map .redact :=
  ExtTreeMap.getElem?_map

theorem envs_toList_redact :
    cfg.redact.envs.toList = cfg.envs.toList.map fun e => (e.1, e.2.redact) :=
  ExtTreeMap.toList_map

/-! ## What survives -/

theorem checkEnv_redact (env : Env) : cfg.redact.checkEnv name env.redact = cfg.checkEnv name env := by
  have hauth : authMatches env.redact.engine env.redact.clientAuth =
      authMatches env.engine env.clientAuth := by
    unfold Env.redact
    cases env.engine <;> cases env.clientAuth <;> rfl
  have hbastion (b : String) : b ∈ cfg.redact.bastions ↔ b ∈ cfg.bastions := by
    simp [redact]
  have hcred (c : String) : c ∈ cfg.redact.credentials ↔ c ∈ cfg.credentials := by
    simp [redact]
  unfold checkEnv
  simp only [hauth, hbastion, hcred]
  rfl

theorem checkEnvs_redact (envs : List (String × Env)) (seen : List (UInt16 × String)) :
    cfg.redact.checkEnvs (envs.map fun e => (e.1, e.2.redact)) seen = cfg.checkEnvs envs seen := by
  induction envs generalizing seen with
  | nil => rfl
  | cons e envs ih =>
    simp only [List.map_cons, checkEnvs, checkEnv_redact, ih]
    rfl

/-- What `validate` says does not depend on a secret. -/
theorem validate_redact : cfg.redact.validate = cfg.validate := by
  unfold validate
  rw [envs_toList_redact, checkEnvs_redact]
  rfl

theorem usersOf_redact (refers : Env → Bool) (hrefers : ∀ e, refers e.redact = refers e) :
    Mutate.usersOf cfg.redact refers = Mutate.usersOf cfg refers := by
  unfold Mutate.usersOf
  rw [envs_toList_redact, List.filter_map, List.map_map]
  congr 1
  simp only [Function.comp_def, hrefers]

theorem redact_insertBastion (b : Bastion) :
    { cfg with bastions := cfg.bastions.insert name b }.redact =
      { cfg.redact with bastions := cfg.redact.bastions.insert name b.redact } := by
  unfold redact
  rw [Tables.map_insert]

theorem redact_insertCredential (c : Credential) :
    { cfg with credentials := cfg.credentials.insert name c }.redact =
      { cfg.redact with credentials := cfg.redact.credentials.insert name c.redact } := by
  unfold redact
  rw [Tables.map_insert]

theorem lookup_of_redact {α : Type} (table : Config → Table α) (redact' : α → α)
    (htable : ∀ cfg : Config, (table cfg.redact)[name]? = (table cfg)[name]?.map redact')
    (h : cfg₁.redact = cfg₂.redact) :
    ((table cfg₁)[name]? = none ∧ (table cfg₂)[name]? = none) ∨
      ∃ a₁ a₂, (table cfg₁)[name]? = some a₁ ∧ (table cfg₂)[name]? = some a₂ ∧
        redact' a₁ = redact' a₂ := by
  have hmap : (table cfg₁)[name]?.map redact' = (table cfg₂)[name]?.map redact' := by
    rw [← htable, ← htable, h]
  cases h₁ : (table cfg₁)[name]? with
  | none =>
    rw [h₁, Option.map_none, eq_comm, Option.map_eq_none_iff] at hmap
    exact Or.inl ⟨rfl, hmap⟩
  | some a₁ =>
    rw [h₁, Option.map_some, eq_comm, Option.map_eq_some_iff] at hmap
    obtain ⟨a₂, h₂, heq⟩ := hmap
    exact Or.inr ⟨a₁, a₂, rfl, h₂, heq.symm⟩

/-- A lookup finds an entry in both configurations or in neither. -/
theorem bastion_of_redact (h : cfg₁.redact = cfg₂.redact) (name : String) :
    (cfg₁.bastions[name]? = none ∧ cfg₂.bastions[name]? = none) ∨
      ∃ b₁ b₂, cfg₁.bastions[name]? = some b₁ ∧ cfg₂.bastions[name]? = some b₂ ∧
        b₁.redact = b₂.redact :=
  lookup_of_redact Config.bastions Bastion.redact (fun _ => bastions_redact) h

theorem credential_of_redact (h : cfg₁.redact = cfg₂.redact) (name : String) :
    (cfg₁.credentials[name]? = none ∧ cfg₂.credentials[name]? = none) ∨
      ∃ c₁ c₂, cfg₁.credentials[name]? = some c₁ ∧ cfg₂.credentials[name]? = some c₂ ∧
        c₁.redact = c₂.redact :=
  lookup_of_redact Config.credentials Credential.redact (fun _ => credentials_redact) h

theorem env_of_redact (h : cfg₁.redact = cfg₂.redact) (name : String) :
    (cfg₁.envs[name]? = none ∧ cfg₂.envs[name]? = none) ∨
      ∃ e₁ e₂, cfg₁.envs[name]? = some e₁ ∧ cfg₂.envs[name]? = some e₂ ∧ e₁.redact = e₂.redact :=
  lookup_of_redact Config.envs Env.redact (fun _ => envs_redact) h

end Config

/-- Environments that differ only in secrets differ only in their verifiers. -/
theorem Env.fields_of_redact {e₁ e₂ : Env} (h : e₁.redact = e₂.redact) :
    ∃ auth, e₂ = { e₁ with clientAuth := auth } := by
  refine ⟨e₂.clientAuth, ?_⟩
  cases e₁
  cases e₂
  simp only [Env.redact, Env.mk.injEq] at h
  obtain ⟨rfl, rfl, rfl, rfl, rfl, rfl, -, rfl, rfl, rfl⟩ := h
  rfl

/-! ## Transforms that take a secret -/

namespace Mutate
open Transform

/-- From one configuration, the two refuse with one reason or leave configurations that differ
only in secrets. -/
def HidesSecret {α₁ α₂ : Type} (m₁ : ConfigTransform α₁) (m₂ : ConfigTransform α₂) : Prop :=
  ∀ cfg, SameOutcome (m₁.exec cfg).1 (m₂.exec cfg).1 ∧
    (m₁.exec cfg).2.redact = (m₂.exec cfg).2.redact

/-- Two secrets of one kind. -/
def BastionAuthInput.SameKind : BastionAuthInput → BastionAuthInput → Prop
  | .password _, .password _ => True
  | .key _ _, .key _ _ => True
  | _, _ => False

variable (deps : MutateDeps)

theorem addBastion_hides (args : BastionAddArgs) {auth : BastionAuthInput}
    (hauth : args.auth.SameKind auth) :
    HidesSecret (addBastion deps args) (addBastion deps { args with auth := auth }) := by
  intro cfg
  unfold addBastion
  by_cases hname : args.name ∈ cfg.bastions
  · simp [exec_bind, hname, Alike]
  · simp only [exec_bind, exec_get, hname, if_false, exec_set]
    refine ⟨trivial, ?_⟩
    rw [Config.redact_insertBastion, Config.redact_insertBastion]
    cases hargs : args.auth with
    | password p =>
      cases auth with
      | password p' => rfl
      | key pem passphrase => exact absurd hauth (by simp [hargs, BastionAuthInput.SameKind])
    | key pem passphrase =>
      cases auth with
      | password p => exact absurd hauth (by simp [hargs, BastionAuthInput.SameKind])
      | key pem' passphrase' => rfl

theorem addCred_hides (name backendUser p₁ p₂ : String) :
    HidesSecret (addCred deps name backendUser p₁) (addCred deps name backendUser p₂) := by
  intro cfg
  unfold addCred
  by_cases hname : name ∈ cfg.credentials
  · simp [exec_bind, hname, Alike]
  · simp only [exec_bind, exec_get, hname, if_false, exec_set]
    refine ⟨trivial, ?_⟩
    rw [Config.redact_insertCredential, Config.redact_insertCredential]
    rfl

theorem rotateCred_hides (name p₁ p₂ : String) :
    HidesSecret (rotateCred deps name p₁) (rotateCred deps name p₂) := by
  intro cfg
  unfold rotateCred
  cases hname : cfg.credentials[name]? with
  | none => simp [exec_bind, hname, Alike]
  | some cred =>
    simp only [exec_bind, exec_get, hname, exec_set]
    refine ⟨trivial, ?_⟩
    rw [Config.redact_insertCredential, Config.redact_insertCredential]
    rfl

end Mutate
end MiddleWhere
