import MiddleWhere.Core.Migrate

/-!
# Integrity of sealed configurations

A blob that opens was sealed with that key, except for its version byte: the two versions that
are accepted share their cryptography, and the byte is not authenticated. The cipher is ideal,
it decrypts what was encrypted and nothing else, and key derivation has no collisions.
-/

namespace MiddleWhere

/-- One call of `seal` that succeeded. -/
structure Sealing where
  salt : Bytes
  nonce : Bytes
  cfg : Config
  master : MasterKey
  passphrase : Passphrase
  blob : Bytes

def masterKeyLen : ℕ := 32

structure Sealing.Made (deps : SealDeps) (s : Sealing) : Prop where
  salt_length : s.salt.length = Seal.saltLen
  nonce_length : s.nonce.length = Seal.nonceLen
  master_length : s.master.length = masterKeyLen
  valid : s.cfg.Valid
  sealed : deps.seal s.salt s.nonce s.cfg s.master s.passphrase = .ok s.blob

/-- What went into a cipher and what came out. -/
structure Encryption where
  key : Bytes
  nonce : Bytes
  aad : Bytes
  msg : Bytes
  ct : Bytes

/-- The encryption that a sealing made. -/
structure Sealing.Encrypts (deps : SealDeps) (s : Sealing) (e : Encryption) : Prop where
  key : deriveKey deps s.master s.passphrase s.salt = .ok e.key
  nonce : e.nonce = s.nonce
  aad : e.aad = Seal.aad
  msg : deps.intoWriter s.cfg = .ok e.msg
  ct : deps.encrypt e.key e.nonce e.msg e.aad = some e.ct

/-- The third-party code after some sealings: the cipher opens what they encrypted and nothing
else, a derived key tells the secrets and the salt, and what was serialized reads back. -/
structure SealDeps.Ideal (deps : SealDeps) (made : List Sealing) : Prop where
  decrypt_iff : ∀ e : Encryption, deps.decrypt e.key e.nonce e.ct e.aad = some e.msg ↔
    ∃ s ∈ made, s.Encrypts deps e
  length_encrypt : ∀ {key nonce msg aad ct}, deps.encrypt key nonce msg aad = some ct →
    ct.length = msg.length + 16
  hash_injective : ∀ {ikm ikm' salt salt' key}, salt.length = Seal.saltLen →
    salt'.length = Seal.saltLen → deps.hashPassword ikm salt = .ok key →
    deps.hashPassword ikm' salt' = .ok key → ikm = ikm' ∧ salt = salt'
  read_back : ∀ {cfg plaintext}, deps.intoWriter cfg = .ok plaintext →
    ∃ v, deps.fromReader plaintext = .ok v ∧ schemaVersionOf v = some cfg.schemaVersion ∧
      deps.deserialized v = .ok cfg

/-! ## What opens -/

variable {deps : SealDeps} {made : List Sealing} {s : Sealing}

theorem Sealing.Made.layout (h : s.Made deps) : ∃ e, s.Encrypts deps e ∧
    s.blob = Seal.layout Seal.version s.salt s.nonce e.ct := by
  obtain ⟨plaintext, derived, ct, hmsg, hkey, hct, hblob⟩ := seal_eq_ok_iff.mp h.sealed
  exact ⟨⟨derived, s.nonce, Seal.aad, plaintext, ct⟩, ⟨hkey, rfl, rfl, hmsg, hct⟩, hblob⟩

theorem Sealing.Encrypts.unique {e e' : Encryption} (h : s.Encrypts deps e)
    (h' : s.Encrypts deps e') : e = e' := by
  obtain ⟨hkey, hnonce, haad, hmsg, hct⟩ := h
  obtain ⟨hkey', hnonce', haad', hmsg', hct'⟩ := h'
  cases e
  cases e'
  simp_all

section
variable (hmade : ∀ s ∈ made, s.Made deps) (hideal : deps.Ideal made)

include hideal in
/-- What a sealing wrote opens under both accepted versions. -/
theorem opens (hs : s ∈ made) (h : s.Made deps) {e : Encryption} (he : s.Encrypts deps e)
    {version : UInt8} (hversion : version = Seal.v1 ∨ version = Seal.version) :
    deps.unseal (Seal.layout version s.salt s.nonce e.ct) s.master s.passphrase = .ok s.cfg := by
  obtain ⟨v, hread, hschema, hcfg⟩ := hideal.read_back he.msg
  have hplain : deps.decrypt e.key s.nonce e.ct Seal.aad = some e.msg := by
    have hdecrypt := (hideal.decrypt_iff e).mpr ⟨s, hs, he⟩
    rwa [he.nonce, he.aad] at hdecrypt
  have htag : 16 ≤ e.ct.length := by
    rw [hideal.length_encrypt he.ct]
    omega
  rw [unseal_layout_iff hversion h.salt_length h.nonce_length htag]
  refine ⟨e.key, e.msg, v, he.key, hplain, hread, migrate_current ?_ hcfg⟩
  rw [hschema, Config.schemaVersion_of_valid h.valid]

include hmade hideal in
/-- A blob opens exactly when it was sealed with that key and passphrase, or is such a blob with
the older version in its header; it opens to the configuration that was sealed. -/
theorem unseal_eq_ok_iff {blob : Bytes} {master : MasterKey} {passphrase : Passphrase}
    {cfg : Config} (hmaster : master.length = masterKeyLen) :
    deps.unseal blob master passphrase = .ok cfg ↔
      ∃ s ∈ made, s.master = master ∧ s.passphrase = passphrase ∧ s.cfg = cfg ∧
        (blob = s.blob ∨ blob = s.blob.set 8 Seal.v1) := by
  constructor
  · intro hopen
    have hheader : Seal.header + 16 ≤ blob.length ∧ blob.take 8 = Seal.magic ∧
        ∃ version, blob[8]? = some version ∧ (version = Seal.v1 ∨ version = Seal.version) := by
      unfold SealDeps.unseal at hopen
      split_ifs at hopen with hshort hmagic hversion
      have hknown : blob[8]? = some Seal.v1 ∨ blob[8]? = some Seal.version := by tauto
      refine ⟨by omega, not_not.mp hmagic, ?_⟩
      rcases hknown with h1 | h2
      · exact ⟨_, h1, .inl rfl⟩
      · exact ⟨_, h2, .inr rfl⟩
    obtain ⟨hlen, hmagic, version, hbyte, hversion⟩ := hheader
    obtain ⟨salt, nonce, ct, rfl, hsalt, hnonce, htag⟩ :=
      Seal.layout_of_header hlen hmagic hbyte
    obtain ⟨key, msg, value, hkey, hplain, hread, hmigrate⟩ :=
      (unseal_layout_iff hversion hsalt hnonce htag).mp hopen
    obtain ⟨s, hs, he⟩ := (hideal.decrypt_iff ⟨key, nonce, Seal.aad, msg, ct⟩).mp hplain
    have h := hmade s hs
    obtain ⟨hikm, rfl⟩ := hideal.hash_injective h.salt_length hsalt
      (mapError_eq_ok_iff.mp he.key) (mapError_eq_ok_iff.mp hkey)
    obtain ⟨rfl, rfl⟩ := List.append_inj hikm (h.master_length.trans hmaster.symm)
    obtain rfl : nonce = s.nonce := he.nonce
    have hcfg := opens hideal hs h he hversion
    rw [hopen] at hcfg
    obtain ⟨e, he', hblob⟩ := h.layout
    obtain rfl := he.unique he'
    refine ⟨s, hs, rfl, rfl, (Except.ok.inj hcfg).symm, ?_⟩
    rw [hblob, Seal.layout_set]
    rcases hversion with rfl | rfl
    · exact .inr rfl
    · exact .inl rfl
  · rintro ⟨s, hs, rfl, rfl, rfl, hblob⟩
    have h := hmade s hs
    obtain ⟨e, he, hlayout⟩ := h.layout
    rw [hlayout, Seal.layout_set] at hblob
    rcases hblob with rfl | rfl
    · exact opens hideal hs h he (.inr rfl)
    · exact opens hideal hs h he (.inl rfl)

end

/-! ## One sealing of the empty configuration -/

def emptyValue : Cbor :=
  .map [(.text "schema_version", .integer 2), (.text "bastions", .map []),
    (.text "credentials", .map []), (.text "envs", .map [])]

/-- `emptyValue` in CBOR. -/
def emptyPlaintext : Bytes :=
  [0xA4, 0x6E] ++ "schema_version".toUTF8.toList ++ [0x02, 0x68] ++ "bastions".toUTF8.toList ++
    [0xA0, 0x6B] ++ "credentials".toUTF8.toList ++ [0xA0, 0x64] ++ "envs".toUTF8.toList ++ [0xA0]

def sealedSample : Sealing where
  salt := List.replicate 16 1
  nonce := List.replicate 12 2
  cfg := {}
  master := List.replicate 32 3
  passphrase := []
  blob := Seal.layout Seal.version (List.replicate 16 1) (List.replicate 12 2)
    (emptyPlaintext ++ List.replicate 16 0)

/-- An ideal cipher that has sealed the empty configuration once. -/
def idealSealDeps : SealDeps where
  hashPassword ikm salt := .ok (salt ++ ikm)
  encrypt _ _ msg _ := some (msg ++ List.replicate 16 0)
  decrypt key nonce ct aad :=
    if key = sealedSample.salt ++ sealedSample.master ∧ nonce = sealedSample.nonce ∧
        ct = emptyPlaintext ++ List.replicate 16 0 ∧ aad = Seal.aad then some emptyPlaintext
    else none
  intoWriter cfg := if cfg = {} then .ok emptyPlaintext else .error "not serialized"
  fromReader bytes := if bytes = emptyPlaintext then .ok emptyValue else .error "not a value"
  deserialized := sampleSealDeps.deserialized

theorem sealedSample_made : ∀ s ∈ [sealedSample], s.Made idealSealDeps := by
  intro s hs
  obtain rfl := List.mem_singleton.mp hs
  exact ⟨rfl, rfl, rfl, rfl, rfl⟩

theorem idealSealDeps_ideal : idealSealDeps.Ideal [sealedSample] where
  decrypt_iff e := by
    simp only [idealSealDeps, List.mem_singleton, exists_eq_left]
    constructor
    · intro hplain
      split_ifs at hplain with hknown
      obtain ⟨hkey, hnonce, hct, haad⟩ := hknown
      refine ⟨congrArg Except.ok ?_, hnonce, haad, ?_, ?_⟩
      · exact hkey.symm
      · rw [← Option.some.inj hplain]
        rfl
      · rw [hct, ← Option.some.inj hplain]
    · rintro ⟨hkey, hnonce, haad, hmsg, hct⟩
      have hmsg' : emptyPlaintext = e.msg := Except.ok.inj hmsg
      have hkey' : sealedSample.salt ++ sealedSample.master = e.key := Except.ok.inj hkey
      have hct' : e.msg ++ List.replicate 16 0 = e.ct := Option.some.inj hct
      rw [← hmsg', if_pos ⟨hkey'.symm, hnonce, by rw [← hct', hmsg'], haad⟩]
  length_encrypt h := by
    rw [← Option.some.inj h, List.length_append, List.length_replicate]
  hash_injective hsalt hsalt' h h' := by
    have heq := (Except.ok.inj h).trans (Except.ok.inj h').symm
    obtain ⟨hsalts, hikm⟩ := List.append_inj heq (hsalt.trans hsalt'.symm)
    exact ⟨hikm, hsalts⟩
  read_back {cfg plaintext} h := by
    simp only [idealSealDeps] at h
    split_ifs at h with hcfg
    obtain rfl := Except.ok.inj h
    subst hcfg
    exact ⟨emptyValue, if_pos rfl, rfl, rfl⟩

theorem unseal_sealedSample : idealSealDeps.unseal sealedSample.blob sealedSample.master [] =
      .ok {} ↔
    ∃ s ∈ [sealedSample], s.master = sealedSample.master ∧ s.passphrase = [] ∧ s.cfg = {} ∧
      (sealedSample.blob = s.blob ∨ sealedSample.blob = s.blob.set 8 Seal.v1) :=
  unseal_eq_ok_iff sealedSample_made idealSealDeps_ideal rfl

/-- A sealed blob whose version byte is changed to the older version still opens. -/
theorem downgraded_opens : (∀ s ∈ [sealedSample], s.Made idealSealDeps) ∧
    idealSealDeps.Ideal [sealedSample] ∧
    sealedSample.blob.set 8 Seal.v1 ≠ sealedSample.blob ∧
    idealSealDeps.unseal (sealedSample.blob.set 8 Seal.v1) sealedSample.master
      sealedSample.passphrase = .ok sealedSample.cfg := by
  have hmem : sealedSample ∈ [sealedSample] := List.mem_singleton_self _
  have h := sealedSample_made _ hmem
  obtain ⟨e, he, hblob⟩ := h.layout
  refine ⟨sealedSample_made, idealSealDeps_ideal, by decide, ?_⟩
  rw [hblob, Seal.layout_set]
  exact opens idealSealDeps_ideal hmem h he (.inl rfl)

end MiddleWhere
