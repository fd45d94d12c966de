import MiddleWhere.Core.MutateValid
import MiddleWhere.Effects.Returns

/-!
# Updates of the store

What an update that returned has left under the sealed name, and that an update on a machine in
order returns.
-/

namespace MiddleWhere
namespace Store
open Prog

variable {deps : SealDeps} {stateDir : String} {cfg : Config} {w w' : World}

theorem writeAtomic_returns {blob : Bytes} :
    Returns storeSem (writeAtomic stateDir "config.sealed" blob)
      (fun t _ _ => installation stateDir ∈ t) w := by
  refine returns_mem_bind fun _ w₁ => returns_mem_bind fun _ w₂ => ?_
  refine returns_mem_bind fun _ w₃ => returns_mem_bind fun _ w₄ => ?_
  refine returns_call fun r w' _ => ?_
  cases r with
  | error e => exact returns_err
  | ok _ => exact returns_ok (List.mem_singleton_self _)

/-- A save that returned has renamed the new file in. -/
theorem saveConfig_returns : Returns storeSem (saveConfig deps stateDir cfg)
    (fun t _ _ => installation stateDir ∈ t) w := by
  refine returns_mem_bind fun _ w₁ => returns_mem_bind fun _ w₂ => ?_
  exact returns_mem_bind fun _ w₃ => returns_mem_bind fun _ w₄ => writeAtomic_returns

/-- A transform that the store accepted is what lies under the sealed name. -/
theorem withConfig_stored {R : Type} (hdeps : deps.Lawful) {m : Mutate.ConfigTransform R} {a : R}
    {t : List (Event storeSig)}
    (h : Exec storeSem (withConfig deps stateDir (ofTransform m)) w t (.ok a) w') :
    ∃ cfg cfg', stored deps stateDir w = some cfg ∧ m.exec cfg = (.ok a, cfg') ∧
      stored deps stateDir w' = some cfg' := by
  rcases exec_bind_iff.mp h with ⟨cfg, t₁, t₂, w₁, hload, hrest, -⟩ | ⟨e, he, -⟩ | ⟨hp, -⟩
  · obtain ⟨rfl, -, hcfg⟩ := loadConfig_frame _ _ _ hload
    cases hrun : m.exec cfg with
    | mk r cfg' =>
      cases r with
      | error reason =>
        have hrefused : ofTransform m cfg = .error (.refused reason) := by simp [ofTransform, hrun]
        simp only [hrefused, ofExcept_error, bind_eq, halt_err_bind, exec_halt_iff] at hrest
        cases hrest.2.1
      | ok b =>
        have hok : ofTransform m cfg = .ok (b, cfg') := by simp [ofTransform, hrun]
        simp only [hok, ofExcept_ok, bind_eq, halt_ok_bind, pure_eq] at hrest
        rcases exec_bind_iff.mp hrest with ⟨u, t₃, t₄, w₂, hsave, hend, -⟩ | ⟨e, he, -⟩ | ⟨hp, -⟩
        · obtain ⟨-, hout, rfl⟩ := exec_halt_iff.mp hend
          cases hout
          have hcut := saveConfig_cut hdeps _ _ _ hsave.stops
          exact ⟨cfg, cfg', hcfg cfg rfl, hrun, hcut.installed (saveConfig_returns.exec hsave)⟩
        · cases he
        · cases hp
  · cases he
  · cases hp

/-! ## Updates that succeed -/

theorem healthySem_le (w : World) (o : StoreOp) (r : o.Res) (w' : World) (h : healthySem w o r w') :
    storeSem w o r w' := by
  cases o with
  | disk o => exact h.1
  | loadKey =>
    obtain ⟨rfl, rfl⟩ := h
    exact ⟨rfl, fun key hkey => (Except.ok.inj hkey).symm⟩
  | fillBytes len => exact h

theorem loadConfig_succeeds (h : stored deps stateDir w = some cfg) :
    ∃ t, Exec storeSem (loadConfig deps stateDir) w t (.ok cfg) w := by
  obtain ⟨t, w', hload⟩ := loads_iff.mpr h
  have hexec := hload.mono healthySem_le
  obtain ⟨rfl, -⟩ := loadConfig_frame _ _ _ hexec
  exact ⟨t, hexec⟩

/-- A disk step that answers `Ok`. -/
theorem act_bind_succeeds {α : Type} {context : String} {a : DiskAct Path} {k : Unit → StoreProg α}
    {out : Outcome StateError α} (disk' : Disk Path) (hact : w.disk.Act a (.ok ()) disk')
    (h : ∃ t w', Exec storeSem (k ()) ⟨disk', w.key⟩ t out w') :
    ∃ t w', Exec storeSem ((act context a).bind k) w t out w' :=
  exists_exec_call (Except.ok ()) (⟨hact, rfl⟩ : storeSem w (.disk (.act a)) (.ok ()) ⟨disk', w.key⟩) h

theorem writeAtomic_succeeds (blob : Bytes) :
    ∃ t w', Exec storeSem (writeAtomic stateDir "config.sealed" blob) w t (.ok ()) w' := by
  refine act_bind_succeeds _ rfl (act_bind_succeeds _ rfl (act_bind_succeeds _ rfl ?_))
  refine act_bind_succeeds _ rfl ?_
  rw [← bind_ok (act _ _)]
  refine act_bind_succeeds _ ⟨blob, ?_, rfl⟩ ⟨[], _, .halt _ _⟩
  simp

theorem rotate_bind_succeeds {k : Unit → StoreProg Unit} {blob : Bytes}
    (hsealed : w.disk (sealedPath stateDir) = some blob)
    (hk : ∀ w : World, ∃ t w', Exec storeSem (k ()) w t (.ok ()) w') :
    ∃ t w', Exec storeSem ((rotate stateDir).bind k) w t (.ok ()) w' := by
  have hne : sealedPath stateDir ≠ backupPath stateDir := path_ne (by decide)
  have hfound : storeSem w (.disk (.probe (sealedPath stateDir))) true w :=
    ⟨⟨rfl, fun _ => by simp [hsealed]⟩, rfl⟩
  refine exists_exec_call true hfound ?_
  have hremoved : storeSem w (.disk (.act (.remove (backupPath stateDir)))) (.ok ())
      ⟨Function.update w.disk (backupPath stateDir) none, w.key⟩ := ⟨rfl, rfl⟩
  refine exists_exec_call (Except.ok ()) hremoved ?_
  refine act_bind_succeeds _ ⟨blob, ?_, rfl⟩ (hk _)
  exact (Function.update_of_ne hne _ _).trans hsealed

theorem sealWith_bind_succeeds {cfg' : Config} {key : MasterKey} {k : Bytes → StoreProg Unit}
    (hseal : ∀ salt nonce, ∃ blob, deps.seal salt nonce cfg' key [] = .ok blob)
    (hk : ∀ blob, ∃ t w', Exec storeSem (k blob) w t (.ok ()) w') :
    ∃ t w', Exec storeSem ((sealWith deps cfg' key).bind k) w t (.ok ()) w' := by
  have hfill (len : ℕ) : storeSem w (.fillBytes len) (List.replicate len 0) w := ⟨rfl, by simp⟩
  obtain ⟨blob, hblob⟩ := hseal (List.replicate Seal.saltLen 0) (List.replicate Seal.nonceLen 0)
  refine exists_exec_call _ (hfill _) (exists_exec_call _ (hfill _) ?_)
  have hnow : (Prog.ofExcept ((deps.seal (List.replicate Seal.saltLen 0)
      (List.replicate Seal.nonceLen 0) cfg' key []).mapError StateError.sealing)).bind k = k blob := by
    rw [hblob]
    rfl
  exact hnow ▸ hk blob

/-- On a disk that is in order, a transform that returns a valid configuration is stored. -/
theorem withConfig_succeeds {R : Type} {m : Mutate.ConfigTransform R} {a : R} {cfg' : Config}
    (hstored : stored deps stateDir w = some cfg) (hrun : m.exec cfg = (.ok a, cfg'))
    (hvalid : cfg'.Valid)
    (hseal : ∀ salt nonce, ∃ blob, deps.seal salt nonce cfg' w.key [] = .ok blob) :
    ∃ t w', Exec storeSem (withConfig deps stateDir (ofTransform m)) w t (.ok a) w' := by
  obtain ⟨t, hload⟩ := loadConfig_succeeds hstored
  have hok : ofTransform m cfg = .ok (a, cfg') := by simp [ofTransform, hrun]
  have hsave : ∃ t w', Exec storeSem (saveConfig deps stateDir cfg') w t (.ok ()) w' := by
    obtain ⟨blob, hblob, -⟩ := Option.bind_eq_some_iff.mp hstored
    have hvalidate : cfg'.validate = .ok () := hvalid
    have hkey : storeSem w .loadKey (.ok w.key) w := ⟨rfl, fun key h => (Except.ok.inj h).symm⟩
    unfold saveConfig
    simp only [hvalidate, Except.mapError, ofExcept_ok, bind_eq, halt_ok_bind, loadKey_bind]
    refine exists_exec_call _ hkey (sealWith_bind_succeeds hseal fun sealed => ?_)
    exact rotate_bind_succeeds hblob fun w => writeAtomic_succeeds sealed
  obtain ⟨t', w', hsave⟩ := hsave
  refine ⟨t ++ (t' ++ []), w', exec_bind_iff.mpr (Or.inl ⟨cfg, t, t' ++ [], w, hload, ?_, rfl⟩)⟩
  simp only [hok, ofExcept_ok, bind_eq, halt_ok_bind, pure_eq]
  exact hsave.bind (.halt _ _)

/-! ## A serializer for a list of configurations -/

/-- A serializer that numbers the configurations of a list, and a cipher that only adds a tag. -/
def listedSeals (cfgs : List Config) : SealDeps where
  hashPassword ikm _ := .ok ikm
  encrypt _ _ msg _ := some (msg ++ List.replicate 16 0)
  decrypt _ _ ct _ := some (ct.take (ct.length - 16))
  intoWriter cfg :=
    if cfg ∈ cfgs then .ok (List.replicate (cfgs.idxOf cfg) 0) else .error "not listed"
  fromReader bs := .ok (.map [(.text "schema_version", .integer 2), (.null, .integer bs.length)])
  deserialized
    | .map [_, (_, .integer i)] =>
      match cfgs[i.toNat]? with
      | some cfg => .ok cfg
      | none => .error "not listed"
    | _ => .error "not listed"

theorem listedSeals_lawful {cfgs : List Config} (hcfgs : ∀ cfg ∈ cfgs, cfg.schemaVersion = 2) :
    (listedSeals cfgs).Lawful where
  decrypt_encrypt := by
    intro key nonce msg aad ct h
    obtain rfl : msg ++ List.replicate 16 0 = ct := by simpa [listedSeals] using h
    simp [listedSeals]
  length_encrypt := by
    intro key nonce msg aad ct h
    obtain rfl : msg ++ List.replicate 16 0 = ct := by simpa [listedSeals] using h
    simp
  read_back := by
    intro cfg plaintext h
    by_cases hmem : cfg ∈ cfgs
    · obtain rfl : List.replicate (cfgs.idxOf cfg) 0 = plaintext := by
        simpa [listedSeals, hmem] using h
      refine ⟨_, rfl, by rw [hcfgs cfg hmem]; rfl, ?_⟩
      have hfound : cfgs[cfgs.idxOf cfg]? = some cfg := List.getElem?_idxOf hmem
      simp [listedSeals, hfound]
    · simp [listedSeals, hmem] at h

theorem listedSeals_seals {cfgs : List Config} {cfg : Config} (hmem : cfg ∈ cfgs) (key : MasterKey)
    (salt nonce : Bytes) : ∃ blob, (listedSeals cfgs).seal salt nonce cfg key [] = .ok blob :=
  ⟨_, seal_eq_ok_iff.mpr ⟨_, _, _, if_pos hmem, rfl, rfl, rfl⟩⟩

end Store
end MiddleWhere
