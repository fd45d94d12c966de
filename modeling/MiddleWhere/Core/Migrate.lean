import MiddleWhere.Core.Seal

/-!
# Migration

`migrate` looks the version up in the decoded map and leaves the rest to the derived
deserializer, which reads a struct field by field. Whatever is not a version counts as the
oldest one, and is overwritten before the map is read.
-/

namespace MiddleWhere

/-! ## The derived deserializer -/

/-- The deserializers of the parts of a configuration. -/
structure ConfigReaders where
  entries : Cbor → Option (List (Cbor × Cbor))
  text : Cbor → Option String
  optText : Cbor → Option (Option String)
  word16 : Cbor → Option UInt16
  word32 : Cbor → Option UInt32
  bastion : Cbor → Option Bastion
  credential : Cbor → Option Credential
  policy : Cbor → Option Policy
  clientAuth : Cbor → Option ClientAuth
  pool : Cbor → Option PoolSettings
  engine : Cbor → Option EngineKind

structure ConfigReaders.Lawful (r : ConfigReaders) : Prop where
  entries_map : ∀ es, r.entries (.map es) = some es
  text_text : ∀ s, r.text (.text s) = some s
  word32_integer : ∀ n, r.word32 (.integer n) = toU32 n
  engine_mySql : r.engine (.text "my_sql") = some .mySql

section
variable (r : ConfigReaders)

def valuesAt (name : String) (es : List (Cbor × Cbor)) : List Cbor :=
  (es.filter fun e => r.text e.1 = some name).map (·.2)

def keysRead (es : List (Cbor × Cbor)) : Bool := es.all fun e => (r.text e.1).isSome

/-- A field that may be missing; one that stands twice is an error. -/
def defaulted {α : Type} (es : List (Cbor × Cbor)) (name : String) (missing : Option α)
    (read : Cbor → Option α) : Option α :=
  match valuesAt r name es with
  | [] => missing
  | [v] => read v
  | _ => none

def required {α : Type} (es : List (Cbor × Cbor)) (name : String) (read : Cbor → Option α) :
    Option α :=
  defaulted r es name none read

def readEnv (v : Cbor) : Option Env := do
  let es ← r.entries v
  guard (keysRead r es)
  return {
    backendHost := ← required r es "backend_host" r.text
    backendPort := ← required r es "backend_port" r.word16
    defaultDatabase := ← defaulted r es "default_database" (some none) r.optText
    bastion := ← defaulted r es "bastion" (some none) r.optText
    credential := ← required r es "credential" r.text
    policy := ← required r es "policy" r.policy
    clientAuth := ← required r es "client_auth" r.clientAuth
    listenPort := ← required r es "listen_port" r.word16
    pool := ← required r es "pool" r.pool
    engine := ← defaulted r es "engine" (some .mySql) r.engine }

def readTable {α : Type} (read : Cbor → Option α) (v : Cbor) : Option (Table α) := do
  let es ← r.entries v
  let rows ← es.mapM fun e => do return (← r.text e.1, ← read e.2)
  return rows.foldl (fun table row => table.insert row.1 row.2) ∅

def configOf (es : List (Cbor × Cbor)) : Option Config := do
  guard (keysRead r es)
  return {
    schemaVersion := ← required r es "schema_version" r.word32
    bastions := ← required r es "bastions" (readTable r r.bastion)
    credentials := ← required r es "credentials" (readTable r r.credential)
    envs := ← required r es "envs" (readTable r (readEnv r)) }

def readConfig (v : Cbor) : Option Config := r.entries v >>= configOf r

/-- The derived code reads a struct from a map: the value at each field's name, other keys
ignored, `None` for a missing option and the default for a missing field that has one. -/
def SealDeps.Derived (deps : SealDeps) : Prop :=
  ∀ es cfg, deps.deserialized (.map es) = .ok cfg ↔ readConfig r (.map es) = some cfg

/-! ## The migrated map -/

/-- The value that the version is taken from. -/
def versionAt : Cbor → Option Cbor
  | .map es => (es.find? fun e => e.1.isSchemaKey).map (·.2)
  | _ => none

def withEngine (v : Cbor) : Cbor :=
  match r.entries v with
  | some es =>
    if valuesAt r "engine" es = [] then .map (es ++ [(.text "engine", .text "my_sql")]) else v
  | none => v

def withEngines (v : Cbor) : Cbor :=
  match r.entries v with
  | some es => .map (es.map fun e => (e.1, withEngine r e.2))
  | none => v

/-- The same entries with an engine in every environment that lacks one. -/
def completed (es : List (Cbor × Cbor)) : List (Cbor × Cbor) :=
  es.map fun e => if r.text e.1 = some "envs" then (e.1, withEngines r e.2) else e

/-- The same map with the current version and an engine in every environment. -/
def bumped : Cbor → Cbor
  | .map es => .map (setFirstSchema currentSchemaVersion (completed r es))
  | v => v

end

/-- What is expected of the migration of one value. -/
structure MigratesSoundly (deps : SealDeps) (r : ConfigReaders) (v : Cbor) : Prop where
  accepts : ∀ cfg, migrate deps v = .ok cfg → versionAt v = none ∨
    versionAt v = some (.integer 1) ∨ versionAt v = some (.integer currentSchemaVersion.toNat)
  bumps : versionAt v = some (.integer 1) →
    ∀ cfg, migrate deps v = .ok cfg ↔ readConfig r (bumped r v) = some cfg
  keeps : versionAt v = some (.integer currentSchemaVersion.toNat) →
    ∀ cfg, migrate deps v = .ok cfg ↔ readConfig r v = some cfg

/-- All of a configuration but its version. -/
structure OtherFields (r : ConfigReaders) (es : List (Cbor × Cbor)) : Prop where
  keys : keysRead r es = true
  once : (valuesAt r "schema_version" es).length = 1
  bastions : (required r es "bastions" (readTable r r.bastion)).isSome
  credentials : (required r es "credentials" (readTable r r.credential)).isSome
  envs : (required r es "envs" (readTable r (readEnv r))).isSome

/-- A configuration whose version is no integer, or one that does not fit. -/
def VersionMalformed (r : ConfigReaders) (v : Cbor) : Prop :=
  ∃ es value, v = .map es ∧ versionAt v = some value ∧ value.asInteger.bind toU32 = none ∧
    OtherFields r es

/-! ## Completing environments -/

section
variable {r : ConfigReaders} (hr : r.Lawful) {es : List (Cbor × Cbor)} {name : String}

theorem valuesAt_cons (e : Cbor × Cbor) :
    valuesAt r name (e :: es) =
      if r.text e.1 = some name then e.2 :: valuesAt r name es else valuesAt r name es := by
  unfold valuesAt
  rw [List.filter_cons]
  split_ifs <;> simp_all

theorem valuesAt_append (fs : List (Cbor × Cbor)) :
    valuesAt r name (es ++ fs) = valuesAt r name es ++ valuesAt r name fs := by
  simp [valuesAt]

include hr in
/-- An environment with the engine written out reads as the one that lacks it. -/
theorem readEnv_withEngine (v : Cbor) : readEnv r (withEngine r v) = readEnv r v := by
  unfold withEngine
  cases hv : r.entries v with
  | none => rfl
  | some es =>
    dsimp only
    split_ifs with hlacks
    · have hkey : r.text (.text "engine") = some "engine" := hr.text_text _
      have hother {name : String} (hname : name ≠ "engine") :
          valuesAt r name (es ++ [(.text "engine", .text "my_sql")]) = valuesAt r name es := by
        rw [valuesAt_append, valuesAt_cons, hkey, if_neg (by simpa using hname.symm)]
        exact List.append_nil _
      have hengine : valuesAt r "engine" (es ++ [(.text "engine", .text "my_sql")]) =
          [.text "my_sql"] := by
        rw [valuesAt_append, hlacks, valuesAt_cons, hkey, if_pos rfl]
        rfl
      have hkeys : keysRead r (es ++ [(.text "engine", .text "my_sql")]) = keysRead r es := by
        simp [keysRead, hkey]
      unfold readEnv
      rw [hr.entries_map, hv]
      simp only [Option.bind_eq_bind, Option.bind_some, hkeys, required, defaulted, hengine,
        hlacks, hr.engine_mySql, hother (show "backend_host" ≠ "engine" by decide),
        hother (show "backend_port" ≠ "engine" by decide),
        hother (show "default_database" ≠ "engine" by decide),
        hother (show "bastion" ≠ "engine" by decide),
        hother (show "credential" ≠ "engine" by decide),
        hother (show "policy" ≠ "engine" by decide),
        hother (show "client_auth" ≠ "engine" by decide),
        hother (show "listen_port" ≠ "engine" by decide),
        hother (show "pool" ≠ "engine" by decide)]
    · rfl

include hr in
theorem readTable_withEngines (v : Cbor) :
    readTable r (readEnv r) (withEngines r v) = readTable r (readEnv r) v := by
  unfold withEngines
  cases hv : r.entries v with
  | none => rfl
  | some es =>
    unfold readTable
    rw [hr.entries_map, hv]
    simp only [Option.bind_eq_bind, Option.bind_some, List.mapM_map, Function.comp_def,
      readEnv_withEngine hr]

theorem completed_cons (e : Cbor × Cbor) : completed r (e :: es) =
    (if r.text e.1 = some "envs" then (e.1, withEngines r e.2) else e) :: completed r es := rfl

theorem keysRead_completed : keysRead r (completed r es) = keysRead r es := by
  have hkey (e : Cbor × Cbor) :
      (if r.text e.1 = some "envs" then (e.1, withEngines r e.2) else e).1 = e.1 := by
    split_ifs <;> rfl
  simp only [keysRead, completed, List.all_map, Function.comp_def, hkey]

theorem valuesAt_completed : valuesAt r name (completed r es) =
    if name = "envs" then (valuesAt r name es).map (withEngines r) else valuesAt r name es := by
  induction es with
  | nil => simp [completed, valuesAt]
  | cons e es ih =>
    rw [completed_cons, valuesAt_cons, ih, valuesAt_cons]
    by_cases hkey : r.text e.1 = some "envs"
    · rw [if_pos hkey]
      by_cases hname : name = "envs"
      · simp [hkey, hname]
      · have hother : ¬ some "envs" = some name := by simpa [eq_comm] using hname
        simp [hkey, hname, hother]
    · rw [if_neg hkey]
      by_cases hname : name = "envs"
      · simp [hkey, hname]
      · simp [hname]

theorem defaulted_completed {α : Type} {missing : Option α} {read : Cbor → Option α}
    (hread : name = "envs" → ∀ v, read (withEngines r v) = read v) :
    defaulted r (completed r es) name missing read = defaulted r es name missing read := by
  unfold defaulted
  rw [valuesAt_completed]
  by_cases hname : name = "envs"
  · rw [if_pos hname]
    cases valuesAt r name es with
    | nil => rfl
    | cons v vs =>
      cases vs with
      | nil => exact hread hname v
      | cons w ws => rfl
  · rw [if_neg hname]

include hr in
theorem readConfig_completed :
    readConfig r (.map (completed r es)) = readConfig r (.map es) := by
  have hversion := @defaulted_completed r es "schema_version" _ none r.word32 (by simp)
  have hbastions := @defaulted_completed r es "bastions" _ none (readTable r r.bastion) (by simp)
  have hcredentials :=
    @defaulted_completed r es "credentials" _ none (readTable r r.credential) (by simp)
  have henvs := @defaulted_completed r es "envs" _ none (readTable r (readEnv r))
    fun _ => readTable_withEngines hr
  simp only [readConfig, hr.entries_map, Option.bind_eq_bind, Option.bind_some, configOf,
    keysRead_completed, required, hversion, hbastions, hcredentials, henvs]

/-! ## Writing the version -/

theorem schemaKey_iff {k : Cbor} : k.isSchemaKey = true ↔ k = .text "schema_version" := by
  cases k <;> simp [Cbor.isSchemaKey, Cbor.asText]

include hr in
theorem text_schemaKey {k : Cbor} (h : k.isSchemaKey = true) :
    r.text k = some "schema_version" := by
  rw [schemaKey_iff.mp h, hr.text_text]

include hr in
theorem keysRead_setFirst (n : UInt32) : keysRead r (setFirstSchema n es) = keysRead r es := by
  induction es with
  | nil => simp [setFirstSchema, keysRead, hr.text_text]
  | cons e es ih =>
    rw [setFirstSchema]
    split_ifs
    · rfl
    · simp only [keysRead, List.all_cons] at ih ⊢
      rw [ih]

include hr in
theorem completed_setFirst (n : UInt32) :
    completed r (setFirstSchema n es) = setFirstSchema n (completed r es) := by
  induction es with
  | nil => simp [setFirstSchema, completed, hr.text_text]
  | cons e es ih =>
    rw [setFirstSchema]
    by_cases hkey : e.1.isSchemaKey = true
    · have hother : ¬ r.text e.1 = some "envs" := by simp [text_schemaKey hr hkey]
      simp [completed, setFirstSchema, hkey, hother]
    · rw [if_neg hkey, completed_cons, completed_cons, ih]
      split_ifs <;> simp [setFirstSchema, hkey]

include hr in
theorem valuesAt_setFirst_other (n : UInt32) (hname : name ≠ "schema_version") :
    valuesAt r name (setFirstSchema n es) = valuesAt r name es := by
  have hkey : ¬ some "schema_version" = some name := by simpa [eq_comm] using hname
  induction es with
  | nil => simp [setFirstSchema, valuesAt, hr.text_text, hkey]
  | cons e es ih =>
    rw [setFirstSchema]
    split_ifs with hschema
    · rw [valuesAt_cons, valuesAt_cons, text_schemaKey hr hschema, if_neg hkey, if_neg hkey]
    · rw [valuesAt_cons, valuesAt_cons, ih]

include hr in
/-- The version is written over the value that was looked up. -/
theorem valuesAt_setFirst {value : Cbor} (n : UInt32) (hvalue : versionAt (.map es) = some value) :
    ∃ before after, valuesAt r "schema_version" es = before ++ value :: after ∧
      valuesAt r "schema_version" (setFirstSchema n es) =
        before ++ .integer n.toNat :: after := by
  induction es with
  | nil => simp [versionAt] at hvalue
  | cons e es ih =>
    rw [versionAt, List.find?_cons] at hvalue
    rw [setFirstSchema]
    by_cases hkey : e.1.isSchemaKey = true
    · have htext := text_schemaKey hr hkey
      rw [hkey] at hvalue
      obtain rfl : e.2 = value := by simpa using hvalue
      refine ⟨[], valuesAt r "schema_version" es, ?_, ?_⟩
      · rw [valuesAt_cons, if_pos htext]
        rfl
      · rw [if_pos hkey, valuesAt_cons, if_pos htext]
        rfl
    · rw [Bool.not_eq_true] at hkey
      rw [hkey] at hvalue
      obtain ⟨before, after, hold, hnew⟩ := ih hvalue
      rw [if_neg (by simp [hkey]), valuesAt_cons, valuesAt_cons, hold, hnew]
      split_ifs
      · exact ⟨e.2 :: before, after, rfl, rfl⟩
      · exact ⟨before, after, rfl, rfl⟩

include hr in
theorem readConfig_bumped (v : Cbor) :
    readConfig r (bumped r v) = readConfig r (setSchemaVersion v currentSchemaVersion) := by
  cases v with
  | map es =>
    rw [bumped, ← completed_setFirst hr, readConfig_completed hr]
    rfl
  | _ => rfl

theorem toU32_eq_some_iff {n : ℤ} {w : UInt32} : toU32 n = some w ↔ n = w.toNat := by
  unfold toU32
  have hw : w.toNat < 2 ^ 32 := w.toNat_lt
  split_ifs with hrange
  · have hn : n.toNat < 2 ^ 32 := by omega
    rw [Option.some.injEq, ← UInt32.toNat_inj, UInt32.toNat_ofNat_of_lt' hn]
    omega
  · refine iff_of_false (by simp) ?_
    omega

theorem configOf_eq_some_iff {cfg : Config} : configOf r es = some cfg ↔
    keysRead r es = true ∧ required r es "schema_version" r.word32 = some cfg.schemaVersion ∧
      required r es "bastions" (readTable r r.bastion) = some cfg.bastions ∧
      required r es "credentials" (readTable r r.credential) = some cfg.credentials ∧
      required r es "envs" (readTable r (readEnv r)) = some cfg.envs := by
  simp only [configOf, Option.bind_eq_bind, Option.bind_eq_some_iff, Option.guard_eq_some',
    exists_const]
  constructor
  · rintro ⟨hkeys, n, hn, bastions, hbastions, credentials, hcredentials, envs, henvs, hcfg⟩
    obtain rfl := Option.some.inj hcfg
    exact ⟨hkeys, hn, hbastions, hcredentials, henvs⟩
  · rintro ⟨hkeys, hn, hbastions, hcredentials, henvs⟩
    exact ⟨hkeys, _, hn, _, hbastions, _, hcredentials, _, henvs, rfl⟩

include hr in
/-- Over a value that is looked up as the version, the current one makes a configuration of the
map exactly when the other fields do. -/
theorem reads_setFirst_iff {value : Cbor} (hvalue : versionAt (.map es) = some value) :
    (∃ cfg, readConfig r (.map (setFirstSchema currentSchemaVersion es)) = some cfg) ↔
      OtherFields r es := by
  obtain ⟨before, after, hold, hnew⟩ := valuesAt_setFirst hr currentSchemaVersion hvalue
  have hother {name : String} (hname : name ≠ "schema_version") {α : Type}
      (read : Cbor → Option α) :
      required r (setFirstSchema currentSchemaVersion es) name read = required r es name read := by
    rw [required, required, defaulted, defaulted, valuesAt_setFirst_other hr _ hname]
  have hbastions := hother (show "bastions" ≠ "schema_version" by decide) (readTable r r.bastion)
  have hcredentials :=
    hother (show "credentials" ≠ "schema_version" by decide) (readTable r r.credential)
  have henvs := hother (show "envs" ≠ "schema_version" by decide) (readTable r (readEnv r))
  have hword : r.word32 (.integer currentSchemaVersion.toNat) = some currentSchemaVersion := by
    rw [hr.word32_integer, toU32_eq_some_iff]
  simp only [readConfig, hr.entries_map, Option.bind_eq_bind, Option.bind_some,
    configOf_eq_some_iff, keysRead_setFirst hr, hbastions, hcredentials, henvs]
  constructor
  · rintro ⟨cfg, hkeys, hversion, hb, hc, he⟩
    refine ⟨hkeys, ?_, by simp [hb], by simp [hc], by simp [he]⟩
    rw [required, defaulted, hnew] at hversion
    rw [hold]
    cases before with
    | nil =>
      cases after with
      | nil => rfl
      | cons _ _ => simp at hversion
    | cons _ before => cases before <;> simp at hversion
  · rintro ⟨hkeys, honce, hb, hc, he⟩
    obtain ⟨bastions, hb⟩ := Option.isSome_iff_exists.mp hb
    obtain ⟨credentials, hc⟩ := Option.isSome_iff_exists.mp hc
    obtain ⟨envs, he⟩ := Option.isSome_iff_exists.mp he
    refine ⟨⟨currentSchemaVersion, bastions, credentials, envs⟩, hkeys, ?_, hb, hc, he⟩
    rw [hold, List.length_append, List.length_cons] at honce
    obtain rfl : before = [] := List.eq_nil_of_length_eq_zero (by omega)
    obtain rfl : after = [] := List.eq_nil_of_length_eq_zero (by omega)
    rw [required, defaulted, hnew]
    exact hword

end

/-! ## What is accepted -/

section
variable {deps : SealDeps} {r : ConfigReaders} {v : Cbor} {cfg : Config}

theorem schemaVersionOf_eq (v : Cbor) :
    schemaVersionOf v = (versionAt v).bind fun value => value.asInteger.bind toU32 := by
  cases v with
  | map es =>
    simp only [schemaVersionOf, versionAt, Option.bind_map]
    cases es.find? fun e => e.1.isSchemaKey with
    | none => rfl
    | some e => rfl
  | _ => rfl

/-- Only the three kinds of version get as far as the deserializer. -/
theorem migrate_eq_ok_iff : migrate deps v = .ok cfg ↔
    ((schemaVersionOf v).getD 1 = 1 ∧
        deps.deserialized (setSchemaVersion v currentSchemaVersion) = .ok cfg) ∨
      (schemaVersionOf v = some currentSchemaVersion ∧ deps.deserialized v = .ok cfg) := by
  have hne : currentSchemaVersion ≠ 1 := by decide
  cases hsv : schemaVersionOf v with
  | none => simp [migrate, hsv]
  | some n =>
    simp only [migrate, hsv, Option.getD_some, Option.some.injEq]
    split_ifs with hone hcurrent
    · simp [hone, hne.symm]
    · simp [hcurrent, hne]
    · simp [hone, hcurrent]

/-- A version that is read is an integer of that value. -/
theorem versionAt_of_schemaVersion {n : UInt32} (h : schemaVersionOf v = some n) :
    versionAt v = some (.integer n.toNat) := by
  rw [schemaVersionOf_eq, Option.bind_eq_some_iff] at h
  obtain ⟨value, hvalue, hread⟩ := h
  obtain ⟨m, hm, hword⟩ := Option.bind_eq_some_iff.mp hread
  rw [hvalue, ← toU32_eq_some_iff.mp hword]
  cases value <;> simp_all [Cbor.asInteger]

theorem schemaVersion_of_versionAt {n : UInt32} (h : versionAt v = some (.integer n.toNat)) :
    schemaVersionOf v = some n := by
  rw [schemaVersionOf_eq, h, Option.bind_some, Cbor.asInteger, Option.bind_some,
    toU32_eq_some_iff]

theorem map_of_versionAt {value : Cbor} (h : versionAt v = some value) : ∃ es, v = .map es := by
  cases v with
  | map es => exact ⟨es, rfl⟩
  | _ => simp [versionAt] at h

section
variable (hr : r.Lawful) (hdeps : deps.Derived r)

include hr hdeps

/-- A malformed version passes for the oldest when the rest is a configuration. -/
theorem migrates_malformed (h : VersionMalformed r v) : ∃ cfg, migrate deps v = .ok cfg := by
  obtain ⟨es, value, rfl, hvalue, hmalformed, hother⟩ := h
  obtain ⟨cfg, hcfg⟩ := (reads_setFirst_iff hr hvalue).mpr hother
  have hnone : schemaVersionOf (.map es) = none := by
    rw [schemaVersionOf_eq, hvalue, Option.bind_some, hmalformed]
  refine ⟨cfg, migrate_eq_ok_iff.mpr (.inl ⟨by rw [hnone]; rfl, ?_⟩)⟩
  exact (hdeps _ _).mpr hcfg

theorem accepts_of_not_malformed (h : ¬ VersionMalformed r v) (hok : migrate deps v = .ok cfg) :
    versionAt v = none ∨ versionAt v = some (.integer 1) ∨
      versionAt v = some (.integer currentSchemaVersion.toNat) := by
  rcases migrate_eq_ok_iff.mp hok with ⟨hfirst, hread⟩ | ⟨hcurrent, -⟩
  · cases hversion : schemaVersionOf v with
    | some n =>
      rw [hversion, Option.getD_some] at hfirst
      subst hfirst
      exact .inr (.inl (versionAt_of_schemaVersion hversion))
    | none =>
      cases hvalue : versionAt v with
      | none => exact .inl rfl
      | some value =>
        obtain ⟨es, rfl⟩ := map_of_versionAt hvalue
        rw [schemaVersionOf_eq, hvalue, Option.bind_some] at hversion
        have hreads := (hdeps _ _).mp hread
        exact absurd ⟨es, value, rfl, hvalue, hversion,
          (reads_setFirst_iff hr hvalue).mp ⟨cfg, hreads⟩⟩ h
  · exact .inr (.inr (versionAt_of_schemaVersion hcurrent))

end

/-! ## A value of the oldest version -/

def Cbor.untagged : Cbor → Cbor
  | .tag _ v => v.untagged
  | v => v

def Cbor.textAt (es : List (Cbor × Cbor)) (name : String) : Option Cbor :=
  (es.find? fun e => e.1.asText == some name).map (·.2)

def sampleText (v : Cbor) : Option String := v.untagged.asText

def sampleWord32 (v : Cbor) : Option UInt32 := v.untagged.asInteger.bind toU32

/-- What the derived code does with configurations that have no bastion and whose environments
have a fixed policy and a native password. -/
def sampleReaders : ConfigReaders where
  entries v := match v.untagged with
    | .map es => some es
    | _ => none
  text := sampleText
  optText v := match v.untagged with
    | .null => some none
    | v => (sampleText v).map some
  word16 v := (sampleWord32 v).bind fun n => if n.toNat < 2 ^ 16 then some n.toUInt16 else none
  word32 := sampleWord32
  bastion _ := none
  credential v := match v.untagged with
    | .map es => do
      return {
        backendUser := ← (Cbor.textAt es "backend_user").bind sampleText
        backendPassword := ← (Cbor.textAt es "backend_password").bind sampleText }
    | _ => none
  policy v := match v.untagged with
    | .map es => do
      match ← (Cbor.textAt es "kind").bind sampleText with
      | "read_only" => return .readOnly
      | "read_write" => return .readWrite
      | _ => none
    | _ => none
  clientAuth v := match v.untagged with
    | .map es => do
      match ← (Cbor.textAt es "kind").bind sampleText, ← Cbor.textAt es "double_sha1" with
      | "native_password", .bytes bs => if bs.length = 20 then return .nativePassword bs else none
      | _, _ => none
    | _ => none
  pool v := match v.untagged with
    | .map es => do
      return {
        maxSize := ← (Cbor.textAt es "max_size").bind sampleWord32
        idleTimeoutSecs := ← (Cbor.textAt es "idle_timeout_secs").bind sampleWord32 }
    | _ => none
  engine v := do
    match ← sampleText v with
    | "my_sql" => return .mySql
    | "postgres" => return .postgres
    | "ms_sql" => return .msSql
    | _ => none

theorem sampleReaders_lawful : sampleReaders.Lawful :=
  ⟨fun _ => rfl, fun _ => rfl, fun _ => rfl, rfl⟩

def sampleSealDeps : SealDeps where
  hashPassword ikm salt := .ok (salt ++ ikm)
  encrypt _ _ msg _ := some msg
  decrypt _ _ ct _ := some ct
  intoWriter _ := .error "not serialized"
  fromReader _ := .error "not a value"
  deserialized v := match readConfig sampleReaders v with
    | some cfg => .ok cfg
    | none => .error "not a configuration"

theorem sampleSealDeps_derived : sampleSealDeps.Derived sampleReaders := by
  intro es cfg
  simp only [sampleSealDeps]
  cases readConfig sampleReaders (.map es) with
  | none => simp
  | some c => simp

/-- One environment without an engine. -/
def oldestSample : Cbor :=
  .map [(.text "schema_version", .integer 1), (.text "bastions", .map []),
    (.text "credentials", .map [(.text "c", .map [(.text "backend_user", .text "u"),
      (.text "backend_password", .text "pw")])]),
    (.text "envs", .map [(.text "e", .map [(.text "backend_host", .text "h"),
      (.text "backend_port", .integer 3306), (.text "credential", .text "c"),
      (.text "policy", .map [(.text "kind", .text "read_only")]),
      (.text "client_auth", .map [(.text "kind", .text "native_password"),
        (.text "double_sha1", .bytes (List.replicate 20 0))]),
      (.text "listen_port", .integer 6033),
      (.text "pool", .map [(.text "max_size", .integer 16),
        (.text "idle_timeout_secs", .integer 300)])])])]

end

end MiddleWhere
