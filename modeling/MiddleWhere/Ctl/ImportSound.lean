import MiddleWhere.Ctl.ImportReads
import MiddleWhere.Effects.Eval

/-!
# What an environment is imported with

An environment is to get the login that its own keys resolve to, the bastion that it names or else
the longest one that prefixes its name, and its place among the ports. What can stand in the way is
that names which differ in case become one: of the logins of one name the first is kept, of the
bastions the last.
-/

namespace MiddleWhere.Ctl.Import
open Prog Store

variable {lib : Library} {vars : Vars} {overflowChecks : Bool} {dir secrets up lc name user file : String}
  {files : Path → Except String Bytes} {s s' : List Path} {cfg : Config}

/-! ## What the keys say -/

/-- The user and the file of the password: the environment's own, or those of a shared login. -/
def OwnLogin (lib : Library) (vars : Vars) (name user file : String) : Prop :=
  (vars[name ++ "_USER"]? = some user ∧ file = lib.toLowercase name ++ "_password") ∨
    (vars[name ++ "_USER"]? = none ∧ ∃ key, vars[name ++ "_CREDENTIALS"]? = some key ∧
      vars[lib.toUppercase key ++ "_USER"]? = some user ∧ file = lib.toLowercase key ++ "_password")

/-- The text of the file without the ends of its last lines. -/
def SecretText (files : Path → Except String Bytes) (secrets file secret : String) : Prop :=
  ∃ text, files ⟨secrets, file⟩ = .ok (Str.asBytes text) ∧ secret = trimEndOfLine text

def Prefixes (up name : String) : Prop := (up ++ "_").toList <+: (name ++ "_").toList

/-- A bastion of the very name, or where there is none, one whose name differs in case only. -/
def Named (lib : Library) (vars : Vars) (explicit up : String) : Prop :=
  up ∈ bastionNames vars ∧ (up = explicit ∨
    (explicit ∉ bastionNames vars ∧ lib.toLowercase up = lib.toLowercase explicit))

def Longest (vars : Vars) (name up : String) : Prop :=
  up ∈ bastionNames vars ∧ Prefixes up name ∧
    ∀ other ∈ bastionNames vars, Prefixes other name → Str.len other ≤ Str.len up

/-- The environment goes through this bastion. -/
def OwnBastion (lib : Library) (vars : Vars) (name up : String) : Prop :=
  (∃ explicit, vars[name ++ "_BASTION"]? = some explicit ∧ explicit ≠ "direct" ∧ explicit ≠ "none" ∧
    Named lib vars explicit up) ∨
  (vars[name ++ "_BASTION"]? = none ∧ Longest vars name up)

/-- The environment goes through no bastion. -/
def Direct (vars : Vars) (name : String) : Prop :=
  (∃ explicit, vars[name ++ "_BASTION"]? = some explicit ∧ (explicit = "direct" ∨ explicit = "none")) ∨
  (vars[name ++ "_BASTION"]? = none ∧ ∀ up ∈ bastionNames vars, ¬ Prefixes up name)

def BastionSecret (lib : Library) (vars : Vars) (files : Path → Except String Bytes)
    (secrets up : String) (auth : BastionAuth) : Prop :=
  if authKind vars up = "key" then
    ∃ pem, files ⟨secrets, "bastion_" ++ lib.toLowercase up ++ "_key"⟩ = .ok pem ∧
      auth = .key pem none
  else ∃ pw, SecretText files secrets ("bastion_" ++ lib.toLowercase up ++ "_password") pw ∧
    auth = .password pw

/-- The host, port and secret are those of this bastion. -/
structure IsBastion (lib : Library) (vars : Vars) (files : Path → Except String Bytes)
    (secrets up : String) (b : Bastion) : Prop where
  host : bastionVar vars up "HOST" = some b.host
  port : b.port = bastionPort vars up
  secret : BastionSecret lib vars files secrets up b.auth

structure ImportFaithful (lib : Library) (vars : Vars) (files : Path → Except String Bytes)
    (secrets : String) (cfg : Config) : Prop where
  logins : ∀ name env, cfg.envs[name]? = some env → ∃ user file credential,
    OwnLogin lib vars name user file ∧ cfg.credentials[env.credential]? = some credential ∧
      credential.backendUser = user ∧ SecretText files secrets file credential.backendPassword
  bastions : ∀ name env, cfg.envs[name]? = some env → (Direct vars name → env.bastion = none) ∧
    ∀ up, OwnBastion lib vars name up → ∃ lc b, env.bastion = some lc ∧
      cfg.bastions[lc]? = some b ∧ IsBastion lib vars files secrets up b
  ports : ∃ names : List String, names.Pairwise (· < ·) ∧ (∀ name, name ∈ names ↔ name ∈ cfg.envs) ∧
    ∀ (i : ℕ) name, names[i]? = some name → ∃ env, cfg.envs[name]? = some env ∧
      env.listenPort.toNat = 6033 + i

/-! ## What stands in the way -/

/-- Environments whose logins go by one name have one user. -/
def LoginsAgree (lib : Library) (vars : Vars) : Prop :=
  ∀ name ∈ envNames vars, ∀ name' ∈ envNames vars, ∀ credential user file user' file',
    envLogin lib vars name = .ok (credential, user, file) →
    envLogin lib vars name' = .ok (credential, user', file') → user = user'

/-- Of the bastions of one lower-cased name, the last. -/
def lastNamed (lib : Library) (names : List String) (lc : String) : Option String :=
  names.reverse.find? fun up => lib.toLowercase up = lc

/-- A bastion that an environment goes through has the host, port and kind of secret of the last one
with its lower-cased name. -/
def BastionsAgree (lib : Library) (vars : Vars) : Prop :=
  ∀ name ∈ envNames vars, ∀ up, OwnBastion lib vars name up →
    ∀ last, lastNamed lib (bastionNames vars) (lib.toLowercase up) = some last →
      bastionVar vars last "HOST" = bastionVar vars up "HOST" ∧
        bastionPort vars last = bastionPort vars up ∧
        (authKind vars last = "key" ↔ authKind vars up = "key")

/-! ## The steps -/

theorem fromUtf8_eq_ok {bytes : Bytes} {text : String} :
    fromUtf8 bytes = .ok text ↔ Str.asBytes text = bytes := by
  constructor
  · intro h
    unfold fromUtf8 at h
    dsimp only at h
    split_ifs at h with hvalid
    obtain rfl := Except.ok.inj h
    exact hvalid
  · rintro rfl
    exact fromUtf8_asBytes text

theorem ends_readSecretFile {file secret : String}
    (h : Ends (fileSem files) (readSecretFile secrets file) s secret s') :
    SecretText files secrets file secret := by
  unfold readSecretFile at h
  split_ifs at h with hrefused
  · exact absurd h ends_halt_err
  · obtain ⟨r, s₁, hask, hrest⟩ := ends_bind.mp h
    obtain ⟨hr, -⟩ := ends_perform.mp hask
    obtain ⟨text, s₂, hok, hlast⟩ := ends_bind.mp hrest
    obtain ⟨htext, -⟩ := ends_ofExcept.mp hok
    obtain ⟨rfl, -⟩ := ends_halt_ok.mp hlast
    rw [mapError_eq_ok_iff.mp htext] at hr
    refine ⟨text, ?_, rfl⟩
    cases hfile : files ⟨secrets, file⟩ with
    | error e => rw [hfile] at hr; cases hr
    | ok bytes =>
      rw [hfile] at hr
      rw [fromUtf8_eq_ok.mp hr.symm]

theorem ends_bastionAuth {auth : BastionAuth} (h : Ends (fileSem files)
    (bastionAuth secrets (lib.toLowercase up) (authKind vars up)) s auth s') :
    BastionSecret lib vars files secrets up auth := by
  unfold bastionAuth at h
  unfold BastionSecret
  split_ifs at h ⊢ with hkey
  · obtain ⟨r, s₁, hask, hrest⟩ := ends_bind.mp h
    obtain ⟨hr, -⟩ := ends_perform.mp hask
    obtain ⟨pem, s₂, hok, hlast⟩ := ends_bind.mp hrest
    obtain ⟨hpem, -⟩ := ends_ofExcept.mp hok
    obtain ⟨rfl, -⟩ := ends_halt_ok.mp hlast
    rw [mapError_eq_ok_iff.mp hpem] at hr
    exact ⟨pem, hr.symm, rfl⟩
  · obtain ⟨pw, s₁, hread, hlast⟩ := ends_bind.mp h
    obtain ⟨rfl, -⟩ := ends_halt_ok.mp hlast
    exact ⟨pw, ends_readSecretFile hread, rfl⟩

theorem ends_importBastion {state state' : Config × ImportReport}
    (h : Ends (fileSem files) (importBastion lib vars secrets up state) s state' s') :
    ∃ b warns, IsBastion lib vars files secrets up b ∧
      state' = addBastion (lib.toLowercase up) b warns state := by
  obtain ⟨host, s₁, hhost, hrest⟩ := ends_bind.mp h
  obtain ⟨auth, s₂, hauth, hrest⟩ := ends_bind.mp hrest
  obtain ⟨pinned, s₃, -, hlast⟩ := ends_bind.mp hrest
  obtain ⟨rfl, -⟩ := ends_halt_ok.mp hlast
  refine ⟨bastionOf vars up host auth pinned.1, pinned.2, ⟨?_, rfl, ends_bastionAuth hauth⟩, rfl⟩
  cases hvar : bastionVar vars up "HOST" with
  | none => rw [hvar] at hhost; exact absurd hhost ends_halt_err
  | some found =>
    rw [hvar] at hhost
    rw [(ends_halt_ok.mp hhost).1]
    rfl

/-! ## The bastions -/

/-- The table after the bastions `done`. -/
structure BastionsOf (lib : Library) (vars : Vars) (files : Path → Except String Bytes)
    (secrets : String) (done : List String) (bastions : Table Bastion) : Prop where
  last : ∀ lc up, lastNamed lib done lc = some up →
    ∃ b, bastions[lc]? = some b ∧ IsBastion lib vars files secrets up b
  known : ∀ lc ∈ bastions, ∃ up ∈ done, lib.toLowercase up = lc

theorem lastNamed_append (done : List String) (up lc : String) :
    lastNamed lib (done ++ [up]) lc =
      if lib.toLowercase up = lc then some up else lastNamed lib done lc := by
  rw [lastNamed, List.reverse_append, List.reverse_singleton, List.singleton_append]
  split_ifs with h
  · exact List.find?_cons_of_pos (by simpa using h)
  · exact List.find?_cons_of_neg (by simpa using h)

theorem lastNamed_spec {names : List String} (h : lastNamed lib names lc = some up) :
    up ∈ names ∧ lib.toLowercase up = lc :=
  ⟨List.mem_reverse.mp (List.mem_of_find?_eq_some h), by simpa using List.find?_some h⟩

theorem lastNamed_of_mem (lib : Library) {names : List String} (h : up ∈ names) :
    ∃ last, lastNamed lib names (lib.toLowercase up) = some last := by
  cases hlast : lastNamed lib names (lib.toLowercase up) with
  | some last => exact ⟨last, rfl⟩
  | none =>
    have hnone := List.find?_eq_none.mp hlast up (List.mem_reverse.mpr h)
    simp at hnone

theorem BastionsOf.insert {done : List String} {bastions : Table Bastion} {b : Bastion}
    (h : BastionsOf lib vars files secrets done bastions) (hb : IsBastion lib vars files secrets up b) :
    BastionsOf lib vars files secrets (done ++ [up]) (bastions.insert (lib.toLowercase up) b) where
  last lc up' hlast := by
    rw [lastNamed_append] at hlast
    split_ifs at hlast with hlc
    · obtain rfl := Option.some.inj hlast
      exact ⟨b, Tables.getElem?_insert_eq_some.mpr (Or.inl ⟨hlc, rfl⟩), hb⟩
    · obtain ⟨b', hb', his⟩ := h.last lc up' hlast
      exact ⟨b', Tables.getElem?_insert_eq_some.mpr (Or.inr ⟨hlc, hb'⟩), his⟩
  known lc hmem := by
    obtain hlc | hold := Std.ExtTreeMap.mem_insert.mp hmem
    · exact ⟨up, List.mem_append_right done List.mem_cons_self, by simpa using hlc⟩
    · obtain ⟨up', hup', hlc⟩ := h.known lc hold
      exact ⟨up', List.mem_append_left [up] hup', hlc⟩

/-- Only the table of bastions changes. -/
theorem ends_importBastions {names done : List String} {state state' : Config × ImportReport}
    (h : Ends (fileSem files) (importBastions lib vars secrets names state) s state' s')
    (hdone : BastionsOf lib vars files secrets done state.1.bastions) :
    BastionsOf lib vars files secrets (done ++ names) state'.1.bastions ∧
      state'.1.credentials = state.1.credentials ∧ state'.1.envs = state.1.envs := by
  induction names generalizing done state s with
  | nil =>
    obtain ⟨rfl, -⟩ := ends_halt_ok.mp h
    exact ⟨by rwa [List.append_nil], rfl, rfl⟩
  | cons up rest ih =>
    obtain ⟨state₁, s₁, hfirst, hrest⟩ := ends_bind.mp h
    obtain ⟨b, warns, hb, rfl⟩ := ends_importBastion hfirst
    have hall := ih hrest (hdone.insert hb)
    rwa [List.append_assoc, List.singleton_append] at hall

/-! ## The longest prefix -/

theorem stripPrefix_isSome : (stripPrefix (up ++ "_") (name ++ "_")).isSome = true ↔ Prefixes up name := by
  unfold stripPrefix Prefixes
  split_ifs with h
  · exact iff_of_true rfl h
  · exact iff_of_false Bool.false_ne_true h

/-- The best of the candidates so far. -/
structure BestPrefix (name : String) (seen : List String) (best : Option String) : Prop where
  some : ∀ up, best = some up → up ∈ seen ∧ Prefixes up name ∧
    ∀ other ∈ seen, Prefixes other name → Str.len other ≤ Str.len up
  none : best = none → ∀ up ∈ seen, ¬ Prefixes up name

/-- A candidate that is no prefix, or no longer than the best, changes nothing. -/
theorem BestPrefix.skip {seen : List String} {best : Option String} (h : BestPrefix name seen best)
    (hskip : Prefixes up name → ∃ b, best = Option.some b ∧ Str.len up ≤ Str.len b) :
    BestPrefix name (seen ++ [up]) best where
  some b hb := by
    obtain ⟨hmem, hpre, hlongest⟩ := h.some b hb
    refine ⟨List.mem_append_left [up] hmem, hpre, fun other hother hpre => ?_⟩
    obtain hother | hother := List.mem_append.mp hother
    · exact hlongest other hother hpre
    · obtain rfl := List.mem_singleton.mp hother
      obtain ⟨b', hb', hle⟩ := hskip hpre
      obtain rfl : b' = b := Option.some.inj (hb'.symm.trans hb)
      exact hle
  none hnone other hother hpre := by
    obtain hother | hother := List.mem_append.mp hother
    · exact h.none hnone other hother hpre
    · obtain rfl := List.mem_singleton.mp hother
      obtain ⟨b, hb, -⟩ := hskip hpre
      rw [hnone] at hb
      cases hb

theorem BestPrefix.take {seen : List String} {best : Option String} (h : BestPrefix name seen best)
    (hpre : Prefixes up name) (hlonger : ∀ b, best = Option.some b → Str.len b < Str.len up) :
    BestPrefix name (seen ++ [up]) (Option.some up) where
  some b hb := by
    obtain rfl := Option.some.inj hb
    refine ⟨List.mem_append_right seen List.mem_cons_self, hpre, fun other hother hpre => ?_⟩
    obtain hother | hother := List.mem_append.mp hother
    · cases hbest : best with
      | none => exact absurd hpre (h.none hbest other hother)
      | some b => exact ((h.some b hbest).2.2 other hother hpre).trans (hlonger b hbest).le
    · rw [List.mem_singleton.mp hother]
  none hnone := by cases hnone

theorem BestPrefix.better {seen : List String} {best : Option String} (h : BestPrefix name seen best)
    (up : String) : BestPrefix name (seen ++ [up]) (better name best up) := by
  unfold Import.better
  split_ifs with hbetter
  · rw [Bool.and_eq_true, stripPrefix_isSome] at hbetter
    refine h.take hbetter.1 fun b hb => ?_
    simpa [hb] using hbetter.2
  · refine h.skip fun hpre => ?_
    rw [stripPrefix_isSome.mpr hpre, Bool.true_and] at hbetter
    cases hbest : best with
    | none => simp [hbest] at hbetter
    | some b => exact ⟨b, rfl, by simpa [hbest] using hbetter⟩

theorem bestPrefix_foldl (names : List String) {seen : List String} {best : Option String}
    (h : BestPrefix name seen best) :
    BestPrefix name (seen ++ names) (names.foldl (Import.better name) best) := by
  induction names generalizing seen best with
  | nil => rwa [List.append_nil]
  | cons up rest ih =>
    have hrest := ih (h.better up)
    rwa [List.append_assoc, List.singleton_append] at hrest

theorem longestPrefix_spec (names : List String) (name : String) :
    BestPrefix name names (longestPrefix names name) := by
  have hempty : BestPrefix name [] Option.none :=
    { some := fun _ h => by cases h
      none := fun _ _ h => absurd h List.not_mem_nil }
  have hall := bestPrefix_foldl names hempty
  rwa [List.nil_append] at hall

/-- Of two prefixes of one name neither is longer only if they are the same. -/
theorem prefixes_unique {other : String} (h : Prefixes up name) (h' : Prefixes other name)
    (hlen : Str.len up = Str.len other) : up = other := by
  have hstep {a b : String} (hab : (a ++ "_").toList <+: (b ++ "_").toList)
      (hlen : Str.len a = Str.len b) : a = b := by
    obtain ⟨tail, htail⟩ := hab
    have hbytes : Str.len (a ++ "_") + (tail.flatMap String.utf8EncodeChar).length =
        Str.len (b ++ "_") := by
      rw [Str.len, Str.len, Str.asBytes, Str.asBytes, ← htail, List.flatMap_append, List.length_append]
    have hadd (c : String) : Str.len (c ++ "_") = Str.len c + 1 := by
      rw [Str.len, Str.asBytes_append, List.length_append]
      rfl
    have hnil : tail = [] := by
      cases tail with
      | nil => rfl
      | cons c rest =>
        have hchar : 0 < (String.utf8EncodeChar c).length := by
          rw [String.length_utf8EncodeChar]
          exact Char.utf8Size_pos c
        rw [List.flatMap_cons, List.length_append, hadd, hadd] at hbytes
        omega
    rw [hnil, List.append_nil] at htail
    exact (String.append_left_inj "_").mp (String.toList_inj.mp htail)
  obtain hle | hle := le_total (up ++ "_").toList.length (other ++ "_").toList.length
  · exact hstep (List.prefix_of_prefix_length_le h h' hle) hlen
  · exact (hstep (List.prefix_of_prefix_length_le h' h hle) hlen.symm).symm

/-! ## The environments -/

theorem envLogin_own {login : String × String × String} (h : envLogin lib vars name = .ok login) :
    OwnLogin lib vars name login.2.1 login.2.2 := by
  unfold envLogin at h
  cases huser : vars[name ++ "_USER"]? with
  | some user =>
    rw [huser] at h
    cases h
    exact Or.inl ⟨huser, rfl⟩
  | none =>
    rw [huser] at h
    cases hkey : vars[name ++ "_CREDENTIALS"]? with
    | none => rw [hkey] at h; cases h
    | some key =>
      rw [hkey] at h
      cases hshared : vars[lib.toUppercase key ++ "_USER"]? with
      | none => simp [hshared] at h
      | some user =>
        simp only [hshared] at h
        cases h
        exact Or.inr ⟨huser, key, hkey, hshared, rfl⟩

theorem ownLogin_unique {user' file' : String} (h : OwnLogin lib vars name user file)
    (h' : OwnLogin lib vars name user' file') : user = user' ∧ file = file' := by
  obtain ⟨hu, rfl⟩ | ⟨hu, key, hk, hs, rfl⟩ := h
  · obtain ⟨hu', rfl⟩ | ⟨hu', -⟩ := h'
    · exact ⟨Option.some.inj (hu.symm.trans hu'), rfl⟩
    · rw [hu] at hu'
      cases hu'
  · obtain ⟨hu', -⟩ | ⟨-, key', hk', hs', rfl⟩ := h'
    · rw [hu] at hu'
      cases hu'
    · obtain rfl : key = key' := Option.some.inj (hk.symm.trans hk')
      exact ⟨Option.some.inj (hs.symm.trans hs'), rfl⟩

/-- What an environment at this place is imported with. -/
structure EnvMade (lib : Library) (vars : Vars) (bastions : Table Bastion) (names : List String)
    (i : ℕ) (name : String) (env : Env) : Prop where
  login : ∃ user, envLogin lib vars name = .ok (env.credential, user, env.credential ++ "_password")
  bastion : envBastion lib vars bastions names name = .ok env.bastion
  port : env.listenPort = UInt16.ofNat (clientPortBase + i % 2 ^ 16)

/-- The configuration after the environments `done`. -/
structure EnvsOf (lib : Library) (vars : Vars) (files : Path → Except String Bytes) (secrets : String)
    (bastions : Table Bastion) (names done : List String) (cfg : Config) : Prop where
  sameBastions : cfg.bastions = bastions
  credentials : ∀ credential c, cfg.credentials[credential]? = some c → ∃ name ∈ done,
    envLogin lib vars name = .ok (credential, c.backendUser, credential ++ "_password") ∧
      SecretText files secrets (credential ++ "_password") c.backendPassword
  known : ∀ (name : String) (env : Env), cfg.envs[name]? = some env → env.credential ∈ cfg.credentials
  envs : ∀ (name : String) (env : Env), cfg.envs[name]? = some env →
    ∃ i, done[i]? = some name ∧ EnvMade lib vars bastions names i name env
  all : ∀ name ∈ done, name ∈ cfg.envs

theorem ends_importCredential {login : String × String × String} {state state' : Config × ImportReport}
    (h : Ends (fileSem files) (importCredential secrets login state) s state' s') :
    (login.1 ∈ state.1.credentials ∧ state' = state) ∨ ∃ pw, SecretText files secrets login.2.2 pw ∧
      state' = addCredential login.1 ⟨login.2.1, pw⟩ state := by
  obtain ⟨credential, user, file⟩ := login
  unfold importCredential at h
  dsimp only at h
  split_ifs at h with hmem
  · obtain ⟨rfl, -⟩ := ends_halt_ok.mp h
    exact Or.inl ⟨hmem, rfl⟩
  · obtain ⟨pw, s₁, hread, hlast⟩ := ends_bind.mp h
    obtain ⟨rfl, -⟩ := ends_halt_ok.mp hlast
    exact Or.inr ⟨pw, ends_readSecretFile hread, rfl⟩

theorem ends_listenPort {idx : ℕ} {port : UInt16}
    (h : Ends (fileSem files) (listenPort overflowChecks idx) s port s') :
    port = UInt16.ofNat (clientPortBase + idx % 2 ^ 16) ∧
      (overflowChecks = true → clientPortBase + idx % 2 ^ 16 < 2 ^ 16) := by
  unfold listenPort at h
  dsimp only at h
  split_ifs at h with hpanic
  · obtain ⟨t, ht⟩ := h
    cases ht
  · refine ⟨(ends_halt_ok.mp h).1, fun hchecks => ?_⟩
    rw [hchecks, Bool.true_and, decide_eq_true_eq] at hpanic
    omega

theorem ends_importEnv {names : List String} {idx : ℕ} {state state' : Config × ImportReport}
    (h : Ends (fileSem files) (importEnv lib vars secrets overflowChecks names idx name state) s
      state' s') :
    ∃ login state₁ env, envLogin lib vars name = .ok login ∧
      ((login.1 ∈ state.1.credentials ∧ state₁ = state) ∨ ∃ pw, SecretText files secrets login.2.2 pw ∧
        state₁ = addCredential login.1 ⟨login.2.1, pw⟩ state) ∧
      env.credential = login.1 ∧ EnvMade lib vars state.1.bastions names idx name env ∧
      state' = addEnv name env state₁ := by
  obtain ⟨host, s₁, -, hrest⟩ := ends_bind.mp h
  obtain ⟨login, s₂, hlogin, hrest⟩ := ends_bind.mp hrest
  obtain ⟨hlogin, -⟩ := ends_ofExcept.mp hlogin
  obtain ⟨state₁, s₃, hcredential, hrest⟩ := ends_bind.mp hrest
  have hstep := ends_importCredential hcredential
  obtain ⟨bastion, s₄, hbastion, hrest⟩ := ends_bind.mp hrest
  obtain ⟨hbastion, -⟩ := ends_ofExcept.mp hbastion
  obtain ⟨port, s₅, hport, hrest⟩ := ends_bind.mp hrest
  obtain ⟨raw, s₆, -, hlast⟩ := ends_bind.mp hrest
  obtain ⟨rfl, -⟩ := ends_halt_ok.mp hlast
  have hsame : state₁.1.bastions = state.1.bastions := by
    obtain ⟨-, rfl⟩ | ⟨pw, -, rfl⟩ := hstep
    · rfl
    · rfl
  refine ⟨login, state₁, _, hlogin, hstep, rfl, ⟨⟨login.2.1, ?_⟩, ?_, ?_⟩, rfl⟩
  · rw [hlogin, envOf, ← envLogin_file hlogin]
  · rw [← hsame]
    exact hbastion
  · exact (ends_listenPort hport).1

/-- One credential more, or one that was there: the login of the environment is known. -/
theorem EnvsOf.login {bastions : Table Bastion} {names done : List String}
    {state state₁ : Config × ImportReport} {login : String × String × String}
    (h : EnvsOf lib vars files secrets bastions names done state.1)
    (hlogin : envLogin lib vars name = .ok login)
    (hstep : (login.1 ∈ state.1.credentials ∧ state₁ = state) ∨
      ∃ pw, SecretText files secrets login.2.2 pw ∧
        state₁ = addCredential login.1 ⟨login.2.1, pw⟩ state) :
    login.1 ∈ state₁.1.credentials ∧ state₁.1.bastions = bastions ∧ state₁.1.envs = state.1.envs ∧
    (∀ c ∈ state.1.credentials, c ∈ state₁.1.credentials) ∧
    ∀ credential c, state₁.1.credentials[credential]? = some c → ∃ name' ∈ done ++ [name],
      envLogin lib vars name' = .ok (credential, c.backendUser, credential ++ "_password") ∧
        SecretText files secrets (credential ++ "_password") c.backendPassword := by
  have hold : ∀ credential c, state.1.credentials[credential]? = some c → ∃ name' ∈ done ++ [name],
      envLogin lib vars name' = .ok (credential, c.backendUser, credential ++ "_password") ∧
        SecretText files secrets (credential ++ "_password") c.backendPassword := by
    intro credential c hc
    obtain ⟨name', hmem, hmade⟩ := h.credentials credential c hc
    exact ⟨name', List.mem_append_left [name] hmem, hmade⟩
  obtain ⟨hmem, rfl⟩ | ⟨pw, hpw, rfl⟩ := hstep
  · exact ⟨hmem, h.sameBastions, rfl, fun c hc => hc, hold⟩
  · refine ⟨Std.ExtTreeMap.mem_insert_self, h.sameBastions, rfl, ?_, ?_⟩
    · exact fun c hc => Std.ExtTreeMap.mem_insert.mpr (Or.inr hc)
    · intro credential c hc
      obtain ⟨rfl, rfl⟩ | ⟨-, hc⟩ := Tables.getElem?_insert_eq_some.mp hc
      · have hfile := envLogin_file hlogin
        refine ⟨name, List.mem_append_right done List.mem_cons_self, ?_, hfile ▸ hpw⟩
        rw [hlogin, ← hfile]
      · exact hold credential c hc

theorem EnvsOf.step {bastions : Table Bastion} {names done : List String}
    {state state' : Config × ImportReport}
    (h : EnvsOf lib vars files secrets bastions names done state.1)
    (hends : Ends (fileSem files) (importEnv lib vars secrets overflowChecks names done.length name
      state) s state' s') :
    EnvsOf lib vars files secrets bastions names (done ++ [name]) state'.1 := by
  obtain ⟨login, state₁, env, hlogin, hstep, hcredential, hmade, rfl⟩ := ends_importEnv hends
  obtain ⟨hknown, hbastions, henvs, hkept, hcredentials⟩ := h.login hlogin hstep
  rw [h.sameBastions] at hmade
  refine ⟨hbastions, hcredentials, ?_, ?_, ?_⟩
  · intro name' env' hget
    obtain ⟨rfl, rfl⟩ | ⟨-, hget⟩ := Tables.getElem?_insert_eq_some.mp hget
    · exact hcredential ▸ hknown
    · rw [henvs] at hget
      exact hkept _ (h.known name' env' hget)
  · intro name' env' hget
    obtain ⟨rfl, rfl⟩ | ⟨-, hget⟩ := Tables.getElem?_insert_eq_some.mp hget
    · exact ⟨done.length, by simp, hmade⟩
    · rw [henvs] at hget
      obtain ⟨i, hi, hmade'⟩ := h.envs name' env' hget
      have hlt : i < done.length := (List.getElem?_eq_some_iff.mp hi).1
      exact ⟨i, by rwa [List.getElem?_append_left hlt], hmade'⟩
  · intro name' hmem
    obtain hmem | hmem := List.mem_append.mp hmem
    · exact Std.ExtTreeMap.mem_insert.mpr (Or.inr (henvs ▸ h.all name' hmem))
    · rw [List.mem_singleton.mp hmem]
      exact Std.ExtTreeMap.mem_insert_self

theorem ends_importEnvs {bastions : Table Bastion} {names envs done : List String}
    {state state' : Config × ImportReport}
    (h : EnvsOf lib vars files secrets bastions names done state.1)
    (hends : Ends (fileSem files) (importEnvs lib vars secrets overflowChecks names done.length envs
      state) s state' s') :
    EnvsOf lib vars files secrets bastions names (done ++ envs) state'.1 := by
  induction envs generalizing done state s with
  | nil =>
    obtain ⟨rfl, -⟩ := ends_halt_ok.mp hends
    rwa [List.append_nil]
  | cons name rest ih =>
    obtain ⟨state₁, s₁, hfirst, hrest⟩ := ends_bind.mp hends
    have hnext := h.step hfirst
    have hall := ih hnext (by rwa [List.length_append, List.length_singleton])
    rwa [List.append_assoc, List.singleton_append] at hall

/-- An accepted import is made of its bastions and its environments. -/
theorem ends_importVars {result : Config × ImportReport} (h : Ends (fileSem files)
    (importVars lib vars secrets overflowChecks dir) s result s') :
    BastionsOf lib vars files secrets (bastionNames vars) result.1.bastions ∧
      EnvsOf lib vars files secrets result.1.bastions (bastionNames vars) (envNames vars) result.1 := by
  obtain ⟨state, s₁, hbastions, hrest⟩ := ends_bind.mp h
  have hempty : BastionsOf lib vars files secrets [] (∅ : Table Bastion) :=
    ⟨fun _ _ h => (by cases h), fun _ h => absurd h Std.ExtTreeMap.not_mem_empty⟩
  obtain ⟨hof, hcredentials, henvs⟩ := ends_importBastions hbastions hempty
  rw [List.nil_append] at hof
  dsimp only at hrest
  split_ifs at hrest with hnone
  · exact absurd hrest ends_halt_err
  · obtain ⟨state', s₂, hends, hlast⟩ := ends_bind.mp hrest
    have hstart : EnvsOf lib vars files secrets state.1.bastions (bastionNames vars) [] state.1 := by
      refine ⟨rfl, ?_, ?_, ?_, fun _ hmem => absurd hmem List.not_mem_nil⟩
      · intro credential c hc
        simp [hcredentials] at hc
      · intro name env hget
        simp [henvs] at hget
      · intro name env hget
        simp [henvs] at hget
    have hall := ends_importEnvs hstart hends
    obtain ⟨u, s₃, hvalid, hlast⟩ := ends_bind.mp hlast
    obtain ⟨rfl, -⟩ := ends_halt_ok.mp hlast
    rw [List.nil_append] at hall
    have hsame : state'.1.bastions = state.1.bastions := hall.sameBastions
    exact ⟨hsame ▸ hof, hsame ▸ hall⟩

/-! ## Whether it is faithful -/

theorem envBastion_direct {bastions : Table Bastion} {names : List String} {bastion : Option String}
    (hnames : names = bastionNames vars) (hdirect : Direct vars name)
    (h : envBastion lib vars bastions names name = .ok bastion) : bastion = none := by
  subst hnames
  unfold envBastion at h
  obtain ⟨explicit, hvar, hnone⟩ | ⟨hvar, hnot⟩ := hdirect
  · simp only [hvar, if_pos hnone] at h
    exact (Except.ok.inj h).symm
  · simp only [hvar] at h
    have hbest := longestPrefix_spec (bastionNames vars) name
    cases hlongest : longestPrefix (bastionNames vars) name with
    | none =>
      rw [hlongest] at h
      exact (Except.ok.inj h).symm
    | some up =>
      obtain ⟨hmem, hpre, -⟩ := hbest.some up hlongest
      exact absurd hpre (hnot up hmem)

theorem envBastion_own {bastions : Table Bastion} {bastion : Option String}
    (hown : OwnBastion lib vars name up)
    (h : envBastion lib vars bastions (bastionNames vars) name = .ok bastion) :
    bastion = some (lib.toLowercase up) := by
  unfold envBastion at h
  obtain ⟨explicit, hvar, hdirect, hnone, -, hnamed⟩ | ⟨hvar, hmem, hpre, hlongest⟩ := hown
  · have hlower : lib.toLowercase up = lib.toLowercase explicit := by
      obtain rfl | ⟨-, hlower⟩ := hnamed
      · rfl
      · exact hlower
    simp only [hvar, if_neg (not_or.mpr ⟨hdirect, hnone⟩)] at h
    split_ifs at h with hknown
    rw [← Except.ok.inj h, hlower]
  · simp only [hvar] at h
    have hbest := longestPrefix_spec (bastionNames vars) name
    cases hfound : longestPrefix (bastionNames vars) name with
    | none => exact absurd hpre (hbest.none hfound up hmem)
    | some best =>
      obtain ⟨hmem', hpre', hlongest'⟩ := hbest.some best hfound
      have hlen : Str.len up = Str.len best :=
        le_antisymm (hlongest' up hmem hpre) (hlongest best hmem' hpre')
      rw [hfound] at h
      rw [prefixes_unique hpre hpre' hlen, ← Except.ok.inj h]
      rfl

theorem ownBastion_mem (h : OwnBastion lib vars name up) : up ∈ bastionNames vars := by
  obtain ⟨explicit, -, -, -, hmem, -⟩ | ⟨-, hmem, -⟩ := h
  · exact hmem
  · exact hmem

/-- Two bastions of one lower-cased name are the same to an environment when their hosts, ports and
kinds of secret are. -/
theorem isBastion_iff {last : String} {b : Bastion}
    (hlower : lib.toLowercase last = lib.toLowercase up) (h : IsBastion lib vars files secrets last b) :
    IsBastion lib vars files secrets up b ↔ bastionVar vars last "HOST" = bastionVar vars up "HOST" ∧
      bastionPort vars last = bastionPort vars up ∧ (authKind vars last = "key" ↔ authKind vars up = "key") := by
  have hsecret := h.secret
  constructor
  · intro hup
    refine ⟨h.host.trans hup.host.symm, h.port.symm.trans hup.port, ?_⟩
    have hsecret' := hup.secret
    unfold BastionSecret at hsecret hsecret'
    split_ifs at hsecret hsecret' with hlast hkey hkey
    · exact iff_of_true hlast hkey
    · obtain ⟨pem, -, hauth⟩ := hsecret
      obtain ⟨pw, -, hauth'⟩ := hsecret'
      rw [hauth] at hauth'
      cases hauth'
    · obtain ⟨pw, -, hauth⟩ := hsecret
      obtain ⟨pem, -, hauth'⟩ := hsecret'
      rw [hauth] at hauth'
      cases hauth'
    · exact iff_of_false hlast hkey
  · rintro ⟨hhost, hport, hkind⟩
    refine ⟨hhost ▸ h.host, h.port.trans hport, ?_⟩
    unfold BastionSecret at hsecret ⊢
    rw [hlower] at hsecret
    simpa only [hkind] using hsecret

theorem pairwise_sortedNames (names : List String) : (sortedNames names).Pairwise (· < ·) := by
  have hle : (sortedNames names).Pairwise (· ≤ ·) :=
    (List.pairwise_insertionSort (· ≤ ·) names).sublist (List.dedup_sublist _)
  have hne : (sortedNames names).Pairwise (· ≠ ·) := List.nodup_dedup _
  exact (hle.and hne).imp fun h => lt_of_le_of_ne h.1 h.2

/-- The most environments whose ports fit. -/
def maxEnvs : ℕ := 2 ^ 16 - clientPortBase

section
variable (henvs : EnvsOf lib vars files secrets cfg.bastions (bastionNames vars) (envNames vars) cfg)
include henvs

theorem imported_bastion {env : Env}
    (hbastions : BastionsOf lib vars files secrets (bastionNames vars) cfg.bastions)
    (hget : cfg.envs[name]? = some env)
    (hown : OwnBastion lib vars name up) :
    ∃ last b, lastNamed lib (bastionNames vars) (lib.toLowercase up) = some last ∧
      env.bastion = some (lib.toLowercase up) ∧ cfg.bastions[lib.toLowercase up]? = some b ∧
      IsBastion lib vars files secrets last b := by
  obtain ⟨i, -, hmade⟩ := henvs.envs name env hget
  obtain ⟨last, hlast⟩ := lastNamed_of_mem lib (ownBastion_mem hown)
  obtain ⟨b, hb, his⟩ := hbastions.last _ last hlast
  exact ⟨last, b, hlast, envBastion_own hown hmade.bastion, hb, his⟩

theorem loginsAgree_of_faithful (h : ImportFaithful lib vars files secrets cfg) :
    LoginsAgree lib vars := by
  have huser {name : String} {credential user file : String} (hmem : name ∈ envNames vars)
      (hlogin : envLogin lib vars name = .ok (credential, user, file)) :
      ∃ c, cfg.credentials[credential]? = some c ∧ c.backendUser = user := by
    obtain ⟨env, hget⟩ := Tables.exists_of_mem (henvs.all name hmem)
    obtain ⟨i, -, hmade⟩ := henvs.envs name env hget
    obtain ⟨user₀, hlogin₀⟩ := hmade.login
    rw [hlogin] at hlogin₀
    obtain ⟨rfl, -⟩ := Prod.mk.inj (Except.ok.inj hlogin₀)
    obtain ⟨user₁, file₁, c, hown, hc, rfl, -⟩ := h.logins name env hget
    exact ⟨c, hc, (ownLogin_unique hown (envLogin_own hlogin)).1⟩
  intro name hmem name' hmem' credential user file user' file' hlogin hlogin'
  obtain ⟨c, hc, rfl⟩ := huser hmem hlogin
  obtain ⟨c', hc', rfl⟩ := huser hmem' hlogin'
  rw [Option.some.inj (hc.symm.trans hc')]

theorem bastionsAgree_of_faithful
    (hbastions : BastionsOf lib vars files secrets (bastionNames vars) cfg.bastions) (h : ImportFaithful lib vars files secrets cfg) :
    BastionsAgree lib vars := by
  intro name hmem up hown last hlast
  obtain ⟨env, hget⟩ := Tables.exists_of_mem (henvs.all name hmem)
  obtain ⟨last', b, hlast', henv, hb, his⟩ := imported_bastion henvs hbastions hget hown
  obtain rfl : last' = last := Option.some.inj (hlast'.symm.trans hlast)
  obtain ⟨lc, b', henv', hb', his'⟩ := (h.bastions name env hget).2 up hown
  rw [henv] at henv'
  obtain rfl := Option.some.inj henv'
  obtain rfl : b = b' := Option.some.inj (hb.symm.trans hb')
  exact (isBastion_iff (lastNamed_spec hlast).2 his).mp his'

theorem port_made {i : ℕ} (hi : (envNames vars)[i]? = some name) :
    ∃ env, cfg.envs[name]? = some env ∧
      env.listenPort = UInt16.ofNat (clientPortBase + i % 2 ^ 16) := by
  have hmem : name ∈ envNames vars := List.mem_of_getElem? hi
  obtain ⟨env, hget⟩ := Tables.exists_of_mem (henvs.all name hmem)
  obtain ⟨j, hj, hmade⟩ := henvs.envs name env hget
  have hnodup : (envNames vars).Nodup := List.nodup_dedup _
  obtain rfl : j = i := by
    have hlt : j < (envNames vars).length := (List.getElem?_eq_some_iff.mp hj).1
    exact (List.getElem?_inj hlt hnodup).mp (hj.trans hi.symm)
  exact ⟨env, hget, hmade.port⟩

theorem length_of_faithful (h : ImportFaithful lib vars files secrets cfg) :
    (envNames vars).length ≤ maxEnvs := by
  obtain ⟨names, hsorted, hnames, hports⟩ := h.ports
  have hsame : names = envNames vars := by
    have hsorted' : (envNames vars).Pairwise (· < ·) := pairwise_sortedNames _
    have hmem : ∀ name, name ∈ names ↔ name ∈ envNames vars := by
      intro name
      rw [hnames]
      constructor
      · intro hmem
        obtain ⟨env, hget⟩ := Tables.exists_of_mem hmem
        obtain ⟨i, hi, -⟩ := henvs.envs name env hget
        exact List.mem_of_getElem? hi
      · exact henvs.all name
    exact hsorted.eq_of_mem_iff hsorted' hmem
  subst hsame
  by_contra hlong
  have hlt : maxEnvs < (envNames vars).length := by omega
  obtain ⟨env, hget, hport⟩ := hports maxEnvs _ (List.getElem?_eq_getElem hlt)
  obtain ⟨env', hget', hport'⟩ := port_made henvs (List.getElem?_eq_getElem hlt)
  obtain rfl : env = env' := Option.some.inj (hget.symm.trans hget')
  rw [hport'] at hport
  revert hport
  decide

theorem faithful_of_agree
    (hbastions : BastionsOf lib vars files secrets (bastionNames vars) cfg.bastions) (hlogins : LoginsAgree lib vars) (hagree : BastionsAgree lib vars)
    (hlength : (envNames vars).length ≤ maxEnvs) : ImportFaithful lib vars files secrets cfg where
  logins name env hget := by
    obtain ⟨i, hi, hmade⟩ := henvs.envs name env hget
    obtain ⟨user, hlogin⟩ := hmade.login
    obtain ⟨c, hc⟩ := Tables.exists_of_mem (henvs.known name env hget)
    obtain ⟨name', hmem', hlogin', hpw⟩ := henvs.credentials _ c hc
    have huser := hlogins name' hmem' name (List.mem_of_getElem? hi) _ _ _ _ _ hlogin' hlogin
    exact ⟨user, _, c, envLogin_own hlogin, hc, huser, hpw⟩
  bastions name env hget := by
    obtain ⟨i, hi, hmade⟩ := henvs.envs name env hget
    refine ⟨fun hdirect => envBastion_direct rfl hdirect hmade.bastion, fun up hown => ?_⟩
    obtain ⟨last, b, hlast, henv, hb, his⟩ := imported_bastion henvs hbastions hget hown
    refine ⟨_, b, henv, hb, (isBastion_iff (lastNamed_spec hlast).2 his).mpr ?_⟩
    exact hagree name (List.mem_of_getElem? hi) up hown last hlast
  ports := by
    refine ⟨envNames vars, pairwise_sortedNames _, fun name => ⟨henvs.all name, fun hmem => ?_⟩, ?_⟩
    · obtain ⟨env, hget⟩ := Tables.exists_of_mem hmem
      obtain ⟨i, hi, -⟩ := henvs.envs name env hget
      exact List.mem_of_getElem? hi
    · intro i name hi
      obtain ⟨env, hget, hport⟩ := port_made henvs hi
      have hlt : i < (envNames vars).length := (List.getElem?_eq_some_iff.mp hi).1
      refine ⟨env, hget, ?_⟩
      rw [hport, UInt16.toNat_ofNat']
      unfold maxEnvs clientPortBase at *
      omega

end

/-- After `.env` the rest depends on its text only. -/
theorem ends_buildFromDir {text : String} {result : Config × ImportReport}
    (hfile : files (envPath dir) = .ok (Str.asBytes text))
    (h : Ends (fileSem files) (buildFromDir lib overflowChecks dir) s result s') :
    ∃ s₁, Ends (fileSem files) (importVars lib (parseEnv text) (secretsDir dir) overflowChecks dir) s₁
      result s' := by
  obtain ⟨r, s₁, hask, hrest⟩ := ends_bind.mp h
  obtain ⟨hr, -⟩ := ends_perform.mp hask
  rw [bind_fromUtf8 hfile] at hr
  subst hr
  obtain ⟨text', s₂, hok, hvars⟩ := ends_bind.mp hrest
  obtain ⟨htext, -⟩ := ends_ofExcept.mp hok
  obtain rfl : text = text' := Except.ok.inj (mapError_eq_ok_iff.mp htext)
  exact ⟨s₂, hvars⟩

/-- An import that is accepted is faithful exactly when logins of one name have one user, the
bastions that are used are the last of their lower-cased names, and there are ports enough. -/
theorem importFaithful_iff {text : String} {report : ImportReport}
    (hfile : files (envPath dir) = .ok (Str.asBytes text))
    (h : Ends (fileSem files) (buildFromDir lib overflowChecks dir) [] (cfg, report) s') :
    ImportFaithful lib (parseEnv text) files (secretsDir dir) cfg ↔
      LoginsAgree lib (parseEnv text) ∧ BastionsAgree lib (parseEnv text) ∧
        (envNames (parseEnv text)).length ≤ maxEnvs := by
  obtain ⟨s₁, hvars⟩ := ends_buildFromDir hfile h
  obtain ⟨hbastions, henvs⟩ := ends_importVars hvars
  constructor
  · intro hfaithful
    exact ⟨loginsAgree_of_faithful henvs hfaithful, bastionsAgree_of_faithful henvs hbastions hfaithful,
      length_of_faithful henvs hfaithful⟩
  · rintro ⟨hlogins, hagree, hlength⟩
    exact faithful_of_agree henvs hbastions hlogins hagree hlength

/-! ### Two imports -/

/-- The answers of files that do not change, and of a generator of zeros. -/
def fileAnswer (files : Path → Except String Bytes) : Answerer importSig (List Path)
  | s, .readToString path => ((files path).bind fromUtf8, s ++ [path])
  | s, .read path => (files path, s ++ [path])
  | s, .fillBytes len => (List.replicate len 0, s)

def returned {ε α : Type} : Outcome ε α → Option α
  | .ok a => some a
  | .err _ | .panic => none

theorem ends_of_eval {α : Type} {p : ImportProg α}
    (h : (returned (p.eval (fileAnswer files) s).1).isSome = true) :
    ∃ a s', Ends (fileSem files) p s a s' := by
  have hanswers : ∀ s o r s', Sem.ofAnswerer (fileAnswer files) s o r s' → fileSem files s o r s' := by
    intro s o r s' hM
    cases o with
    | readToString path => cases hM; exact ⟨rfl, rfl⟩
    | read path => cases hM; exact ⟨rfl, rfl⟩
    | fillBytes len => cases hM; exact ⟨List.length_replicate, rfl⟩
  obtain ⟨t, ht⟩ := exec_iff_eval.mpr (Eq.refl (p.eval (fileAnswer files) s))
  cases hout : (p.eval (fileAnswer files) s).1 with
  | ok a =>
    rw [hout] at ht
    exact ⟨a, _, t, ht.mono hanswers⟩
  | err e => simp [hout, returned] at h
  | panic => simp [hout, returned] at h

def oneEnv : String := "DB_HOST=db.internal\nDB_USER=reader\n"

theorem importFaithful_oneEnv : ∃ cfg report reads,
    Ends (fileSem (emptyFiles "/srv/poc" oneEnv)) (buildFromDir asciiLibrary false "/srv/poc") []
      (cfg, report) reads ∧
    ImportFaithful asciiLibrary (parseEnv oneEnv) (emptyFiles "/srv/poc" oneEnv) "/srv/poc/secrets" cfg := by
  have haccepted : ∃ result reads, Ends (fileSem (emptyFiles "/srv/poc" oneEnv))
      (buildFromDir asciiLibrary false "/srv/poc") [] result reads :=
    ends_of_eval (by decide +kernel)
  obtain ⟨⟨cfg, report⟩, reads, hends⟩ := haccepted
  have hnames : envNames (parseEnv oneEnv) = ["DB"] := by decide +kernel
  have hnone : bastionNames (parseEnv oneEnv) = [] := by decide +kernel
  refine ⟨cfg, report, reads, hends, (importFaithful_iff (emptyFiles_env _ _) hends).mpr ⟨?_, ?_, ?_⟩⟩
  · intro name hmem name' hmem' credential user file user' file' hlogin hlogin'
    rw [hnames, List.mem_singleton] at hmem hmem'
    rw [hmem, ← hmem', hlogin'] at hlogin
    exact (congrArg Prod.fst (congrArg Prod.snd (Except.ok.inj hlogin))).symm
  · intro name hmem up hown
    have hup := ownBastion_mem hown
    rw [hnone] at hup
    exact absurd hup List.not_mem_nil
  · rw [hnames]
    decide

def twoCases : String := "Prod_HOST=a.internal\nProd_USER=reader\nPROD_HOST=b.internal\nPROD_USER=root\n"

/-- Two environments whose names differ in case: one is given the other's user. -/
theorem not_importFaithful_twoCases : ∃ cfg report reads,
    Ends (fileSem (emptyFiles "/srv/poc" twoCases)) (buildFromDir asciiLibrary false "/srv/poc") []
      (cfg, report) reads ∧
    ¬ ImportFaithful asciiLibrary (parseEnv twoCases) (emptyFiles "/srv/poc" twoCases) "/srv/poc/secrets"
      cfg := by
  have haccepted : ∃ result reads, Ends (fileSem (emptyFiles "/srv/poc" twoCases))
      (buildFromDir asciiLibrary false "/srv/poc") [] result reads :=
    ends_of_eval (by decide +kernel)
  obtain ⟨⟨cfg, report⟩, reads, hends⟩ := haccepted
  refine ⟨cfg, report, reads, hends, fun hfaithful => ?_⟩
  obtain ⟨s₁, hvars⟩ := ends_buildFromDir (emptyFiles_env _ _) hends
  have hlogins := loginsAgree_of_faithful (ends_importVars hvars).2 hfaithful
  have husers := hlogins "Prod" (by decide +kernel) "PROD" (by decide +kernel) "prod" "reader"
    "prod_password" "root" "prod_password" (by decide +kernel) (by decide +kernel)
  revert husers
  decide

end MiddleWhere.Ctl.Import
