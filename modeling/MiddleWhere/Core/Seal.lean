import MiddleWhere.Core.Config

/-!
# Sealed configurations

A blob is a magic, a version, a salt, a nonce and the ciphertext of the serialized
configuration. Key derivation, the cipher and the serializer are third-party code: they
are functions of `SealDeps`, and `SealDeps.Lawful` is what their documentation promises.
`unseal_seal` is the round trip that the store relies on.
-/

namespace MiddleWhere

/-- `ciborium::Value`. -/
inductive Cbor
  | integer (n : ℤ)
  | bytes (bs : Bytes)
  | float (bits : UInt64)
  | text (s : String)
  | bool (b : Bool)
  | null
  | tag (t : UInt64) (v : Cbor)
  | array (vs : List Cbor)
  | map (entries : List (Cbor × Cbor))

namespace Cbor

def asText : Cbor → Option String
  | .text s => some s
  | _ => none

def asInteger : Cbor → Option ℤ
  | .integer n => some n
  | _ => none

def isSchemaKey (k : Cbor) : Bool := k.asText == some "schema_version"

end Cbor

def toU32 (n : ℤ) : Option UInt32 :=
  if 0 ≤ n ∧ n < 2 ^ 32 then some (UInt32.ofNat n.toNat) else none

def schemaVersionOf : Cbor → Option UInt32
  | .map entries => do
    let (_, val) ← entries.find? fun entry => entry.1.isSchemaKey
    toU32 (← val.asInteger)
  | _ => none

def setFirstSchema (ver : UInt32) : List (Cbor × Cbor) → List (Cbor × Cbor)
  | [] => [(.text "schema_version", .integer ver.toNat)]
  | (k, val) :: rest =>
    if k.isSchemaKey then (k, .integer ver.toNat) :: rest
    else (k, val) :: setFirstSchema ver rest

def setSchemaVersion (v : Cbor) (ver : UInt32) : Cbor :=
  match v with
  | .map entries => .map (setFirstSchema ver entries)
  | v => v

abbrev MasterKey := Bytes
abbrev Passphrase := Bytes

/-- Argon2id, ChaCha20-Poly1305 and ciborium with the derived serde code. -/
structure SealDeps where
  hashPassword : (ikm salt : Bytes) → Except String Bytes
  encrypt : (key nonce msg aad : Bytes) → Option Bytes
  decrypt : (key nonce ct aad : Bytes) → Option Bytes
  intoWriter : Config → Except String Bytes
  fromReader : Bytes → Except String Cbor
  deserialized : Cbor → Except String Config

structure SealDeps.Lawful (deps : SealDeps) : Prop where
  decrypt_encrypt : ∀ {key nonce msg aad ct}, deps.encrypt key nonce msg aad = some ct →
    deps.decrypt key nonce ct aad = some msg
  length_encrypt : ∀ {key nonce msg aad ct}, deps.encrypt key nonce msg aad = some ct →
    ct.length = msg.length + 16
  read_back : ∀ {cfg plaintext}, deps.intoWriter cfg = .ok plaintext →
    ∃ v, deps.fromReader plaintext = .ok v ∧ schemaVersionOf v = some cfg.schemaVersion ∧
      deps.deserialized v = .ok cfg

/-- The text of a migration error is the deserializer's own. -/
def migrate (deps : SealDeps) (v : Cbor) : Except ConfigError Config :=
  let sv := (schemaVersionOf v).getD 1
  let deserialize (v : Cbor) : Except ConfigError Config :=
    (deps.deserialized v).mapError ConfigError.migrate
  if sv = 1 then deserialize (setSchemaVersion v currentSchemaVersion)
  else if sv = currentSchemaVersion then deserialize v
  else .error (.unsupportedSchema sv)

inductive SealError
  | encrypt
  | decrypt
  | format (what : String)
  | kdf (reason : String)
  | cborEncode (reason : String)
  | cborDecode (reason : String)
  | migrate (e : ConfigError)
deriving DecidableEq

namespace Seal

def magic : Bytes := [0x53, 0x51, 0x4C, 0x50, 0x53, 0x45, 0x41, 0x4C]
def v1 : UInt8 := 1
def version : UInt8 := 2
def saltLen : ℕ := 16
def nonceLen : ℕ := 12
def header : ℕ := 8 + 1 + saltLen + nonceLen
def aad : Bytes := "middlewhere.seal.v1".toUTF8.toList

end Seal

section
variable (deps : SealDeps)

def deriveKey (master : MasterKey) (passphrase : Passphrase) (salt : Bytes) :
    Except SealError Bytes :=
  (deps.hashPassword (master ++ passphrase) salt).mapError .kdf

/-- `salt` and `nonce` are the bytes that the random generator filled in. -/
def SealDeps.seal (salt nonce : Bytes) (cfg : Config) (master : MasterKey) (passphrase : Passphrase) :
    Except SealError Bytes := do
  let plaintext ← (deps.intoWriter cfg).mapError .cborEncode
  let derived ← deriveKey deps master passphrase salt
  match deps.encrypt derived nonce plaintext Seal.aad with
  | none => .error .encrypt
  | some ct => .ok (Seal.magic ++ [Seal.version] ++ salt ++ nonce ++ ct)

def SealDeps.unseal (blob : Bytes) (master : MasterKey) (passphrase : Passphrase) :
    Except SealError Config :=
  if blob.length < Seal.header + 16 then .error (.format "blob too short")
  else if blob.take 8 ≠ Seal.magic then .error (.format "bad magic")
  else if blob[8]? ≠ some Seal.v1 ∧ blob[8]? ≠ some Seal.version then
    .error (.format "unknown version")
  else do
    let salt := (blob.drop 9).take Seal.saltLen
    let nonce := (blob.drop (9 + Seal.saltLen)).take Seal.nonceLen
    let derived ← deriveKey deps master passphrase salt
    match deps.decrypt derived nonce (blob.drop Seal.header) Seal.aad with
    | none => .error .decrypt
    | some plaintext =>
      let value ← (deps.fromReader plaintext).mapError .cborDecode
      (migrate deps value).mapError .migrate

end

variable {deps : SealDeps}

@[simp] theorem mapError_eq_ok_iff {ε ε' α : Type} {x : Except ε α} {f : ε → ε'} {a : α} :
    x.mapError f = .ok a ↔ x = .ok a := by
  cases x <;> simp [Except.mapError]

theorem except_bind_eq_ok_iff {ε α β : Type} {x : Except ε α} {f : α → Except ε β} {b : β} :
    (x >>= f) = .ok b ↔ ∃ a, x = .ok a ∧ f a = .ok b := by
  cases x <;> simp [bind, Except.bind]

theorem migrate_current {v : Cbor} {cfg : Config}
    (hversion : schemaVersionOf v = some currentSchemaVersion)
    (hcfg : deps.deserialized v = .ok cfg) : migrate deps v = .ok cfg := by
  have hne : currentSchemaVersion ≠ 1 := by decide
  simp [migrate, hversion, hcfg, hne]

theorem seal_eq_ok_iff {salt nonce blob : Bytes} {cfg : Config} {master : MasterKey}
    {passphrase : Passphrase} :
    deps.seal salt nonce cfg master passphrase = .ok blob ↔
      ∃ plaintext derived ct, deps.intoWriter cfg = .ok plaintext ∧
        deriveKey deps master passphrase salt = .ok derived ∧
        deps.encrypt derived nonce plaintext Seal.aad = some ct ∧
        blob = Seal.magic ++ [Seal.version] ++ salt ++ nonce ++ ct := by
  simp only [SealDeps.seal, except_bind_eq_ok_iff, mapError_eq_ok_iff]
  constructor
  · rintro ⟨plaintext, hp, derived, hd, h⟩
    cases hct : deps.encrypt derived nonce plaintext Seal.aad with
    | none => simp [hct] at h
    | some ct =>
      refine ⟨plaintext, derived, ct, hp, hd, hct, ?_⟩
      simpa [hct] using h.symm
  · rintro ⟨plaintext, derived, ct, hp, hd, hct, rfl⟩
    exact ⟨plaintext, hp, derived, hd, by simp [hct]⟩

/-! ## The layout of a blob -/

namespace Seal

/-- The header with a given version byte, and the ciphertext. -/
def layout (version : UInt8) (salt nonce ct : Bytes) : Bytes :=
  magic ++ [version] ++ salt ++ nonce ++ ct

section
variable {version : UInt8} {salt nonce ct : Bytes}

theorem layout_magic : (layout version salt nonce ct).take 8 = magic := by
  simp only [layout, List.append_assoc]
  exact List.take_left' rfl

theorem layout_version : (layout version salt nonce ct)[8]? = some version := by
  simp [layout, magic]

theorem layout_set (version' : UInt8) :
    (layout version salt nonce ct).set 8 version' = layout version' salt nonce ct := by
  simp [layout, magic]

variable (hsalt : salt.length = saltLen)

include hsalt in
theorem layout_salt : ((layout version salt nonce ct).drop 9).take saltLen = salt := by
  have hassoc : layout version salt nonce ct = (magic ++ [version]) ++ (salt ++ (nonce ++ ct)) := by
    simp only [layout, List.append_assoc]
  have hlen : (magic ++ [version]).length = 9 := rfl
  rw [hassoc, List.drop_left' hlen, List.take_left' hsalt]

variable (hnonce : nonce.length = nonceLen)
include hsalt hnonce

theorem layout_nonce :
    ((layout version salt nonce ct).drop (9 + saltLen)).take nonceLen = nonce := by
  have hlen : (magic ++ [version] ++ salt).length = 9 + saltLen := by
    rw [List.length_append, hsalt]
    rfl
  rw [layout, List.append_assoc _ nonce, List.drop_left' hlen, List.take_left' hnonce]

theorem layout_ciphertext : (layout version salt nonce ct).drop header = ct := by
  have hlen : (magic ++ [version] ++ salt ++ nonce).length = header := by
    rw [List.length_append, List.length_append, hsalt, hnonce]
    rfl
  rw [layout, List.drop_left' hlen]

theorem layout_length : (layout version salt nonce ct).length = header + ct.length := by
  simp only [layout, List.length_append, hsalt, hnonce]
  rfl

end

/-- A blob that passes the checks of the header is laid out that way. -/
theorem layout_of_header {blob : Bytes} {version : UInt8} (hlen : header + 16 ≤ blob.length)
    (hmagic : blob.take 8 = magic) (hversion : blob[8]? = some version) :
    ∃ salt nonce ct, blob = layout version salt nonce ct ∧ salt.length = saltLen ∧
      nonce.length = nonceLen ∧ 16 ≤ ct.length := by
  have hheader : header = 37 := rfl
  have hcut (n k : ℕ) : (blob.drop n).take k ++ blob.drop (n + k) = blob.drop n := by
    rw [← List.drop_drop, List.take_append_drop]
  have hparts : (blob.drop 9).take 16 ++ ((blob.drop 25).take 12 ++ blob.drop 37) =
      blob.drop 9 := by
    rw [hcut 25 12, hcut 9 16]
  refine ⟨(blob.drop 9).take 16, (blob.drop 25).take 12, blob.drop 37, ?_, ?_, ?_, ?_⟩
  · obtain ⟨h8, hget⟩ := List.getElem?_eq_some_iff.mp hversion
    have hbyte : blob.drop 8 = version :: blob.drop 9 := by
      rw [List.drop_eq_getElem_cons h8, hget]
    calc blob = blob.take 8 ++ blob.drop 8 := (List.take_append_drop 8 blob).symm
      _ = magic ++ version :: ((blob.drop 9).take 16 ++
            ((blob.drop 25).take 12 ++ blob.drop 37)) := by
        rw [hmagic, hbyte, hparts]
      _ = layout version ((blob.drop 9).take 16) ((blob.drop 25).take 12) (blob.drop 37) := by
        simp [layout]
  · simp only [List.length_take, List.length_drop, saltLen]
    omega
  · simp only [List.length_take, List.length_drop, nonceLen]
    omega
  · rw [List.length_drop]
    omega

end Seal

/-- A blob with the header of an accepted version opens when its parts do. -/
theorem unseal_layout_iff {version : UInt8} {salt nonce ct : Bytes} {cfg : Config}
    {master : MasterKey} {passphrase : Passphrase}
    (hversion : version = Seal.v1 ∨ version = Seal.version) (hsalt : salt.length = Seal.saltLen)
    (hnonce : nonce.length = Seal.nonceLen) (hct : 16 ≤ ct.length) :
    deps.unseal (Seal.layout version salt nonce ct) master passphrase = .ok cfg ↔
      ∃ derived plaintext value, deriveKey deps master passphrase salt = .ok derived ∧
        deps.decrypt derived nonce ct Seal.aad = some plaintext ∧
        deps.fromReader plaintext = .ok value ∧ migrate deps value = .ok cfg := by
  have hlong : ¬ (Seal.layout version salt nonce ct).length < Seal.header + 16 := by
    rw [Seal.layout_length hsalt hnonce]
    omega
  have hknown : ¬ ((Seal.layout version salt nonce ct)[8]? ≠ some Seal.v1 ∧
      (Seal.layout version salt nonce ct)[8]? ≠ some Seal.version) := by
    rw [Seal.layout_version]
    rintro ⟨h1, h2⟩
    rcases hversion with rfl | rfl
    · exact h1 rfl
    · exact h2 rfl
  unfold SealDeps.unseal
  rw [if_neg hlong, if_neg (not_not.mpr Seal.layout_magic), if_neg hknown,
    Seal.layout_salt hsalt, Seal.layout_nonce hsalt hnonce, Seal.layout_ciphertext hsalt hnonce]
  rw [except_bind_eq_ok_iff]
  constructor
  · rintro ⟨derived, hd, h⟩
    cases hplain : deps.decrypt derived nonce ct Seal.aad with
    | none => simp [hplain] at h
    | some plaintext =>
      simp only [hplain, except_bind_eq_ok_iff, mapError_eq_ok_iff] at h
      obtain ⟨value, hread, hmigrate⟩ := h
      exact ⟨derived, plaintext, value, hd, hplain, hread, hmigrate⟩
  · rintro ⟨derived, plaintext, value, hd, hplain, hread, hmigrate⟩
    refine ⟨derived, hd, ?_⟩
    simp only [hplain, except_bind_eq_ok_iff, mapError_eq_ok_iff]
    exact ⟨value, hread, hmigrate⟩

theorem unseal_seal (hdeps : deps.Lawful) {salt nonce blob : Bytes} {cfg : Config}
    {master : MasterKey} {passphrase : Passphrase} (hsalt : salt.length = Seal.saltLen)
    (hnonce : nonce.length = Seal.nonceLen) (hschema : cfg.schemaVersion = currentSchemaVersion)
    (hseal : deps.seal salt nonce cfg master passphrase = .ok blob) :
    deps.unseal blob master passphrase = .ok cfg := by
  obtain ⟨plaintext, derived, ct, hp, hd, hct, rfl⟩ := seal_eq_ok_iff.mp hseal
  obtain ⟨v, hread, hversion, hcfg⟩ := hdeps.read_back hp
  have htag : 16 ≤ ct.length := by
    rw [hdeps.length_encrypt hct]
    omega
  refine (unseal_layout_iff (.inr rfl) hsalt hnonce htag).mpr ?_
  exact ⟨derived, plaintext, v, hd, hdeps.decrypt_encrypt hct, hread,
    migrate_current (hschema ▸ hversion) hcfg⟩

end MiddleWhere
