import MiddleWhere.Core.Redact
import MiddleWhere.Core.StoreRuns

/-!
# Two runs of the store

Two loads, or two updates, whose steps have the same outcomes: a step that fails in one run fails
in the other and for the same reason. What the files hold may differ in secrets, and then the two
runs end alike.
-/

namespace MiddleWhere.Store
open Prog

/-- Two steps of one kind have the same outcome, whatever a read found. -/
def StepsAgree : Event storeSig → Event storeSig → Prop
  | ⟨.disk (.probe _), found₁⟩, ⟨.disk (.probe _), found₂⟩ => found₁ = found₂
  | ⟨.disk (.read _), r₁⟩, ⟨.disk (.read _), r₂⟩ => SameOutcome r₁ r₂
  | ⟨.disk (.act _), r₁⟩, ⟨.disk (.act _), r₂⟩ => SameOutcome r₁ r₂
  | ⟨.loadKey, r₁⟩, ⟨.loadKey, r₂⟩ => SameOutcome r₁ r₂
  | ⟨.fillBytes _, bytes₁⟩, ⟨.fillBytes _, bytes₂⟩ => bytes₁ = bytes₂
  | _, _ => True

abbrev BothStore {α₁ α₂ : Type} (p₁ : StoreProg α₁) (p₂ : StoreProg α₂)
    (Q : α₁ → α₂ → World → World → Prop) (w₁ w₂ : World) : Prop :=
  Both storeSem.recorded StepsAgree (fun _ _ => True) p₁ p₂ Q w₁ w₂

/-- What lies under the sealed name opens to `cfg`, valid or not. -/
def Sealed (deps : SealDeps) (stateDir : String) (w : World) (cfg : Config) : Prop :=
  ∃ blob, w.disk (sealedPath stateDir) = some blob ∧ deps.unseal blob w.key [] = .ok cfg

variable {deps : SealDeps} {stateDir : String} {cfg₁ cfg₂ : Config} {w w₁ w₂ : World}

/-! ## Loads -/

theorem World.eq_of_parts {w' : World} (hdisk : w'.disk = w.disk) (hkey : w'.key = w.key) :
    w' = w := by
  cases w
  cases w'
  cases hdisk
  cases hkey
  rfl

theorem loadKey_both : BothStore loadKey loadKey
    (fun key₁ key₂ w₁' w₂' => key₁ = w₁.key ∧ key₂ = w₂.key ∧ w₁' = w₁ ∧ w₂' = w₂) w₁ w₂ := by
  apply both_recorded_call
  intro r₁ w₁' r₂ w₂' hkey₁ hkey₂ hE
  obtain ⟨rfl, hr₁⟩ := hkey₁
  obtain ⟨rfl, hr₂⟩ := hkey₂
  refine ⟨trivial, both_ofExcept (Alike.mapError ?_)⟩
  cases r₁ with
  | ok key₁ =>
    cases r₂ with
    | ok key₂ => exact ⟨hr₁ key₁ rfl, hr₂ key₂ rfl, rfl, rfl⟩
    | error e => exact hE
  | error e => cases r₂ <;> exact hE

/-- Two loads end as what they find opens. -/
theorem loadConfig_both {R : Config → Config → Prop}
    (hopen : ∀ blob₁ blob₂, w₁.disk (sealedPath stateDir) = some blob₁ →
      w₂.disk (sealedPath stateDir) = some blob₂ →
      Alike R (opened deps w₁.key blob₁) (opened deps w₂.key blob₂)) :
    BothStore (loadConfig deps stateDir) (loadConfig deps stateDir)
      (fun c₁ c₂ w₁' w₂' => R c₁ c₂ ∧ w₁' = w₁ ∧ w₂' = w₂) w₁ w₂ := by
  rw [loadConfig_eq]
  apply both_recorded_call
  intro r₁ w₁' r₂ w₂' hread₁ hread₂ hE
  obtain ⟨⟨hdisk₁, hfound₁⟩, hkey₁⟩ := hread₁
  obtain ⟨⟨hdisk₂, hfound₂⟩, hkey₂⟩ := hread₂
  obtain rfl : w₁' = w₁ := World.eq_of_parts hdisk₁ hkey₁
  obtain rfl : w₂' = w₂ := World.eq_of_parts hdisk₂ hkey₂
  refine ⟨trivial, ?_⟩
  cases r₁ with
  | error e₁ =>
    cases r₂ with
    | error e₂ =>
      obtain rfl : e₁ = e₂ := hE
      exact both_err
    | ok blob₂ => exact hE.elim
  | ok blob₁ =>
    cases r₂ with
    | error e₂ => exact hE.elim
    | ok blob₂ =>
      apply both_bind loadKey_both
      intro key₁ key₂ w₁'' w₂'' hkeys
      obtain ⟨rfl, rfl, rfl, rfl⟩ := hkeys
      apply both_ofExcept
      exact (hopen blob₁ blob₂ (hfound₁ blob₁ rfl) (hfound₂ blob₂ rfl)).mono
        fun c₁ c₂ hR => ⟨hR, rfl, rfl⟩

/-- A configuration that does not validate is refused for the same reason whatever its secrets. -/
theorem opened_alike {key₁ key₂ : MasterKey} {blob₁ blob₂ : Bytes}
    (h₁ : deps.unseal blob₁ key₁ [] = .ok cfg₁) (h₂ : deps.unseal blob₂ key₂ [] = .ok cfg₂)
    (hsame : cfg₁.redact = cfg₂.redact) :
    Alike (fun c₁ c₂ => c₁ = cfg₁ ∧ c₂ = cfg₂) (opened deps key₁ blob₁) (opened deps key₂ blob₂) := by
  have hvalidate : cfg₁.validate = cfg₂.validate := by
    rw [← Config.validate_redact, hsame, Config.validate_redact]
  unfold opened
  rw [h₁, h₂]
  dsimp only
  rw [hvalidate]
  cases cfg₂.validate with
  | error e => rfl
  | ok _ => exact ⟨rfl, rfl⟩

theorem loadConfig_both_sealed (h₁ : Sealed deps stateDir w₁ cfg₁)
    (h₂ : Sealed deps stateDir w₂ cfg₂) (hsame : cfg₁.redact = cfg₂.redact) :
    BothStore (loadConfig deps stateDir) (loadConfig deps stateDir)
      (fun c₁ c₂ _ _ => c₁.redact = c₂.redact) w₁ w₂ := by
  obtain ⟨blob₁, hblob₁, hopen₁⟩ := h₁
  obtain ⟨blob₂, hblob₂, hopen₂⟩ := h₂
  have hloads : BothStore (loadConfig deps stateDir) (loadConfig deps stateDir)
      (fun c₁ c₂ w₁' w₂' => (c₁ = cfg₁ ∧ c₂ = cfg₂) ∧ w₁' = w₁ ∧ w₂' = w₂) w₁ w₂ := by
    apply loadConfig_both
    intro blob₁' blob₂' hfound₁ hfound₂
    obtain rfl : blob₁ = blob₁' := Option.some.inj (hblob₁.symm.trans hfound₁)
    obtain rfl : blob₂ = blob₂' := Option.some.inj (hblob₂.symm.trans hfound₂)
    exact opened_alike hopen₁ hopen₂ hsame
  apply hloads.mono
  intro c₁ c₂ _ _ hcfgs
  rw [hcfgs.1.1, hcfgs.1.2, hsame]

theorem sealed_of_stored (h : stored deps stateDir w = some cfg₁) : Sealed deps stateDir w cfg₁ := by
  obtain ⟨blob, hblob, hopen⟩ := Option.bind_eq_some_iff.mp h
  refine ⟨blob, hblob, ?_⟩
  unfold unsealed at hopen
  split at hopen
  · next c hun =>
    split_ifs at hopen
    rw [hun, Option.some.inj hopen]
  · cases hopen

/-- Two loads of one store find one configuration. -/
theorem loadConfig_both_same : BothStore (loadConfig deps stateDir) (loadConfig deps stateDir)
    (fun c₁ c₂ w₁' w₂' => (c₁ = c₂ ∧ stored deps stateDir w = some c₁) ∧ w₁' = w ∧ w₂' = w) w w := by
  apply loadConfig_both
  intro blob₁ blob₂ hfound₁ hfound₂
  obtain rfl : blob₁ = blob₂ := Option.some.inj (hfound₁.symm.trans hfound₂)
  cases hopen : opened deps w.key blob₁ with
  | error e => rfl
  | ok c =>
    have hstored : stored deps stateDir w = some c := by
      rw [stored, hfound₁, Option.bind_some, ← opened_eq_ok_iff, hopen]
    exact ⟨rfl, hstored⟩

/-! ## Saves -/

theorem act_both {context : String} {a₁ a₂ : DiskAct Path} :
    BothStore (act context a₁) (act context a₂) (fun _ _ _ _ => True) w₁ w₂ := by
  apply both_recorded_call
  intro r₁ _ r₂ _ _ _ hE
  exact ⟨trivial, both_ofExcept (Alike.mapError hE)⟩

theorem writeAtomic_both {blob₁ blob₂ : Bytes} :
    BothStore (writeAtomic stateDir "config.sealed" blob₁)
      (writeAtomic stateDir "config.sealed" blob₂) (fun _ _ _ _ => True) w₁ w₂ := by
  apply both_bind act_both
  intro _ _ _ _ _
  apply both_bind act_both
  intro _ _ _ _ _
  apply both_bind act_both
  intro _ _ _ _ _
  apply both_bind act_both
  intro _ _ _ _ _
  exact act_both

theorem rotate_both : BothStore (rotate stateDir) (rotate stateDir) (fun _ _ _ _ => True) w₁ w₂ := by
  apply both_recorded_call
  intro found₁ _ found₂ _ _ _ hE
  obtain rfl : found₁ = found₂ := hE
  refine ⟨trivial, ?_⟩
  cases found₁ with
  | false => exact both_ok trivial
  | true =>
    apply both_recorded_call
    intro _ _ _ _ _ _ _
    exact ⟨trivial, act_both⟩

/-- Sealing two configurations under one key ends alike, whatever the salt and the nonce. -/
def SealAlike (deps : SealDeps) (key : MasterKey) (cfg₁ cfg₂ : Config) : Prop :=
  ∀ salt nonce, SameOutcome (deps.seal salt nonce cfg₁ key []) (deps.seal salt nonce cfg₂ key [])

theorem sealWith_both {key : MasterKey} (h : SealAlike deps key cfg₁ cfg₂) :
    BothStore (sealWith deps cfg₁ key) (sealWith deps cfg₂ key) (fun _ _ _ _ => True) w₁ w₂ := by
  apply both_recorded_call
  intro salt₁ _ salt₂ _ _ _ hsalt
  obtain rfl : salt₁ = salt₂ := hsalt
  refine ⟨trivial, ?_⟩
  apply both_recorded_call
  intro nonce₁ _ nonce₂ _ _ _ hnonce
  obtain rfl : nonce₁ = nonce₂ := hnonce
  exact ⟨trivial, both_ofExcept (Alike.mapError (h salt₁ nonce₁))⟩

theorem saveConfig_both (hsame : cfg₁.redact = cfg₂.redact) (h : SealAlike deps w.key cfg₁ cfg₂) :
    BothStore (saveConfig deps stateDir cfg₁) (saveConfig deps stateDir cfg₂)
      (fun _ _ _ _ => True) w w := by
  have hvalidate : cfg₁.validate = cfg₂.validate := by
    rw [← Config.validate_redact, hsame, Config.validate_redact]
  unfold saveConfig
  rw [hvalidate]
  cases cfg₂.validate with
  | error e => exact both_err
  | ok _ =>
    apply both_bind loadKey_both
    intro key₁ key₂ w₁ w₂ hkeys
    obtain ⟨rfl, rfl, rfl, rfl⟩ := hkeys
    apply both_bind (sealWith_both h)
    intro _ _ _ _ _
    apply both_bind rotate_both
    intro _ _ _ _ _
    exact writeAtomic_both

/-! ## Updates -/

/-- Two updates of one store that differ in a secret end alike. -/
theorem withConfig_both {α₁ α₂ : Type} {m₁ : Mutate.ConfigTransform α₁}
    {m₂ : Mutate.ConfigTransform α₂} (hhides : Mutate.HidesSecret m₁ m₂)
    (hseal : ∀ cfg, stored deps stateDir w = some cfg →
      SealAlike deps w.key (m₁.exec cfg).2 (m₂.exec cfg).2) :
    BothStore (withConfig deps stateDir (ofTransform m₁))
      (withConfig deps stateDir (ofTransform m₂)) (fun _ _ _ _ => True) w w := by
  apply both_bind loadConfig_both_same
  intro c₁ c₂ w₁ w₂ hload
  obtain ⟨⟨rfl, hstored⟩, rfl, rfl⟩ := hload
  obtain ⟨hout, hredact⟩ := hhides c₁
  have halike := hseal c₁ hstored
  rcases hrun₁ : m₁.exec c₁ with ⟨r₁, cfg₁⟩
  rcases hrun₂ : m₂.exec c₁ with ⟨r₂, cfg₂⟩
  rw [hrun₁, hrun₂] at hout hredact halike
  cases r₁ with
  | error e₁ =>
    cases r₂ with
    | error e₂ =>
      obtain rfl : e₁ = e₂ := hout
      have hrefused₁ : ofTransform m₁ c₁ = .error (.refused e₁) := by simp [ofTransform, hrun₁]
      have hrefused₂ : ofTransform m₂ c₁ = .error (.refused e₁) := by simp [ofTransform, hrun₂]
      rw [hrefused₁, hrefused₂]
      exact both_err
    | ok a₂ => exact hout.elim
  | ok a₁ =>
    cases r₂ with
    | error e₂ => exact hout.elim
    | ok a₂ =>
      have hok₁ : ofTransform m₁ c₁ = .ok (a₁, cfg₁) := by simp [ofTransform, hrun₁]
      have hok₂ : ofTransform m₂ c₁ = .ok (a₂, cfg₂) := by simp [ofTransform, hrun₂]
      rw [hok₁, hok₂]
      apply both_bind (saveConfig_both hredact halike)
      intro _ _ _ _ _
      exact both_ok trivial

end MiddleWhere.Store
