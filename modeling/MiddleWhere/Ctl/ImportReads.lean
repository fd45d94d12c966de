import MiddleWhere.Ctl.Import
import MiddleWhere.Effects.Reach
import MiddleWhere.Data.Sha
import MiddleWhere.Data.Utf8

/-!
# What an import reads

The names of the files of secrets are made of the keys of `.env`. The reader of passwords refuses a
name that is not a plain one; the private key and the known hosts of a bastion are read without it.
A bastion whose name has a separator stops the import at its password, unless it has a key instead.
-/

namespace MiddleWhere.Ctl.Import
open Prog Store

/-- The name of a direct child. -/
def PlainName (name : String) : Prop :=
  name ≠ "" ∧ hasSeparator name = false ∧ name ≠ "." ∧ name ≠ ".."

def InSecrets (dir : String) (path : Path) : Prop :=
  path.dir = secretsDir dir ∧ PlainName path.name

variable {lib : Library} {vars : Vars} {overflowChecks : Bool} {dir secrets up lc : String}
  {files : Path → Except String Bytes} {s s' : List Path}

/-- At every point of an import of this text, all that has been read is `.env` and direct children
of `secrets`. -/
def Contained (lib : Library) (overflowChecks : Bool) (dir text : String) : Prop :=
  ∀ files : Path → Except String Bytes, files (envPath dir) = .ok (Str.asBytes text) →
    always (fileSem files) (buildFromDir lib overflowChecks dir)
      (fun _ reads => ∀ path ∈ reads, path = envPath dir ∨ InSecrets dir path) []

/-- The first bastion with a separator in its lower-cased name has a key. -/
def KeyEscapes (lib : Library) (vars : Vars) : Prop :=
  ∃ up, (bastionNames vars).find? (fun up => hasSeparator (lib.toLowercase up)) = some up ∧
    authKind vars up = "key"

/-! ## Names -/

theorem hasSeparator_append (a b : String) :
    hasSeparator (a ++ b) = (hasSeparator a || hasSeparator b) := by
  simp [hasSeparator, String.toList_append, List.any_append]

theorem plainName_iff {pre suffix : String} (hpre : hasSeparator pre = false)
    (hsuffix : hasSeparator suffix = false) (hlength : 3 ≤ suffix.toList.length) :
    PlainName (pre ++ lc ++ suffix) ↔ hasSeparator lc = false := by
  have hlong (short : String) (hshort : short.toList.length < 3) : pre ++ lc ++ suffix ≠ short := by
    rintro rfl
    simp only [String.toList_append, List.length_append] at hshort
    omega
  unfold PlainName
  rw [hasSeparator_append, hasSeparator_append, hpre, hsuffix, Bool.false_or, Bool.or_false]
  constructor
  · exact fun h => h.2.1
  · intro h
    exact ⟨hlong "" (by decide), h, hlong "." (by decide), hlong ".." (by decide)⟩

/-- A name without a separator is all one piece. -/
theorem refusedName_of_plain {name : String} (h : PlainName name) : refusedName name = false := by
  obtain ⟨hempty, hsep, hdot, hdots⟩ := h
  have hnone : ∀ c ∈ name.toList, (c == '/' || c == '\\') = false := by
    simpa [hasSeparator] using hsep
  have hpieces : (name.toList.splitOnP fun c => c == '/' || c == '\\') = [name.toList] :=
    List.splitOnP_eq_singleton hnone
  have hhead : name.toList.head? ≠ some '/' := by
    intro hhead
    have hmem := List.mem_of_head? hhead
    simpa using hnone _ hmem
  have hlist : name.toList ≠ ['.', '.'] := fun h => hdots (String.toList_inj.mp h)
  simp [refusedName, hempty, hsep, hpieces, hhead, hlist]

theorem refusedName_of_separator {name : String} (h : hasSeparator name = true) :
    refusedName name = true := by
  simp [refusedName, h]

/-- The three files of a bastion and the password of a credential. -/
theorem plain_key : PlainName ("bastion_" ++ lc ++ "_key") ↔ hasSeparator lc = false :=
  plainName_iff (by decide) (by decide) (by decide)

theorem plain_knownHosts : PlainName ("bastion_" ++ lc ++ "_known_hosts") ↔ hasSeparator lc = false :=
  plainName_iff (by decide) (by decide) (by decide)

theorem plain_bastionPassword :
    PlainName ("bastion_" ++ lc ++ "_password") ↔ hasSeparator lc = false :=
  plainName_iff (by decide) (by decide) (by decide)

theorem plain_password : PlainName (lc ++ "_password") ↔ hasSeparator lc = false := by
  have h : PlainName ("" ++ lc ++ "_password") ↔ hasSeparator lc = false :=
    plainName_iff (by decide) (by decide) (by decide)
  rwa [String.empty_append] at h

/-! ## Where nothing escapes -/

def ReadsInSecrets (dir : String) : ImportOp → Prop
  | .readToString path | .read path => InSecrets dir path
  | .fillBytes _ => True

theorem orContext_uses {A : ImportOp → Prop} {α : Type} (context : String) (r : Except String α) :
    (orContext context r).Uses A :=
  uses_ofExcept _

theorem orFail_uses {A : ImportOp → Prop} {α : Type} (e : String) (x : Option α) :
    (orFail e x).Uses A := by
  cases x <;> exact uses_halt _

theorem readSecretFile_uses {name : String} (hname : hasSeparator name = false → PlainName name) :
    (readSecretFile (secretsDir dir) name).Uses (ReadsInSecrets dir) := by
  unfold readSecretFile
  split_ifs with hrefused
  · exact uses_halt _
  · have hsep : hasSeparator name = false := by
      by_contra h
      exact hrefused (refusedName_of_separator (Bool.not_eq_false _ ▸ h))
    refine uses_bind ⟨⟨rfl, hname hsep⟩, fun _ => uses_halt _⟩ fun r => ?_
    exact uses_bind (orContext_uses _ _) fun _ => uses_halt _

theorem pinnedHostKeys_uses (h : hasSeparator lc = false) :
    (pinnedHostKeys lib (secretsDir dir) lc).Uses (ReadsInSecrets dir) := by
  refine uses_bind ⟨⟨rfl, plain_knownHosts.mpr h⟩, fun _ => uses_halt _⟩ fun r => ?_
  cases r with
  | ok kh => exact uses_halt _
  | error e => exact uses_halt _

theorem bastionAuth_uses {kind : String} (h : hasSeparator lc = false) :
    (bastionAuth (secretsDir dir) lc kind).Uses (ReadsInSecrets dir) := by
  unfold bastionAuth
  split_ifs with hkey
  · refine uses_bind ⟨⟨rfl, plain_key.mpr h⟩, fun _ => uses_halt _⟩ fun r => ?_
    exact uses_bind (orContext_uses _ _) fun _ => uses_halt _
  · refine uses_bind (readSecretFile_uses fun _ => plain_bastionPassword.mpr h) fun pw => ?_
    exact uses_halt _

/-- A password is refused before anything is read under the name. -/
theorem bastionAuth_refused {kind : String} (secrets : String) (hkind : kind ≠ "key")
    (h : hasSeparator lc = true) : ∃ e, bastionAuth secrets lc kind = .halt (.err e) := by
  have hrefused : refusedName ("bastion_" ++ lc ++ "_password") = true :=
    refusedName_of_separator (by rw [hasSeparator_append, hasSeparator_append, h]; rfl)
  rw [bastionAuth, if_neg hkind, readSecretFile, if_pos hrefused]
  exact ⟨_, rfl⟩

theorem importBastion_uses {state : Config × ImportReport}
    (h : hasSeparator (lib.toLowercase up) = true → authKind vars up ≠ "key") :
    (importBastion lib vars (secretsDir dir) up state).Uses (ReadsInSecrets dir) := by
  refine uses_bind (orFail_uses _ _) fun host => ?_
  cases hsep : hasSeparator (lib.toLowercase up) with
  | true =>
    obtain ⟨e, he⟩ := bastionAuth_refused (secretsDir dir) (h hsep) hsep
    rw [he]
    exact uses_halt _
  | false =>
    refine uses_bind (bastionAuth_uses hsep) fun auth => ?_
    exact uses_bind (pinnedHostKeys_uses hsep) fun pinned => uses_halt _

/-- A bastion that is refused ends the import. -/
theorem importBastion_refused {state : Config × ImportReport} {M : Sem importSig (List Path)}
    {state' : Config × ImportReport} (hkind : authKind vars up ≠ "key")
    (h : hasSeparator (lib.toLowercase up) = true) :
    ¬ Ends M (importBastion lib vars secrets up state) s state' s' := by
  intro hends
  obtain ⟨host, s₁, -, hends⟩ := ends_bind.mp hends
  obtain ⟨auth, s₂, hauth, -⟩ := ends_bind.mp hends
  obtain ⟨e, he⟩ := bastionAuth_refused secrets hkind h
  exact ends_halt_err (he ▸ hauth)

theorem envLogin_file {envUp : String} {login : String × String × String}
    (h : envLogin lib vars envUp = .ok login) : login.2.2 = login.1 ++ "_password" := by
  unfold envLogin at h
  split at h
  · cases h
    rfl
  · split at h
    · cases h
    · dsimp only at h
      split at h
      · cases h
        rfl
      · cases h

theorem importCredential_uses {login : String × String × String} {state : Config × ImportReport}
    (h : login.2.2 = login.1 ++ "_password") :
    (importCredential (secretsDir dir) login state).Uses (ReadsInSecrets dir) := by
  obtain ⟨name, user, file⟩ := login
  obtain rfl : file = name ++ "_password" := h
  unfold importCredential
  dsimp only
  split_ifs with hmem
  · exact uses_halt _
  · refine uses_bind (readSecretFile_uses fun hsep => ?_) fun pw => uses_halt _
    rw [hasSeparator_append, Bool.or_eq_false_iff] at hsep
    exact plain_password.mpr hsep.1

theorem listenPort_uses {A : ImportOp → Prop} (idx : ℕ) : (listenPort overflowChecks idx).Uses A := by
  unfold listenPort
  dsimp only
  split_ifs <;> exact uses_halt _

theorem importEnv_uses {names : List String} {idx : ℕ} {envUp : String}
    {state : Config × ImportReport} :
    (importEnv lib vars (secretsDir dir) overflowChecks names idx envUp state).Uses
      (ReadsInSecrets dir) := by
  refine uses_bind (by cases vars[envUp ++ "_HOST"]? <;> exact uses_halt _) fun host => ?_
  cases hlogin : envLogin lib vars envUp with
  | error e => exact uses_halt _
  | ok login =>
    simp only [ofExcept_ok, bind_eq, halt_ok_bind]
    refine uses_bind (importCredential_uses (envLogin_file hlogin)) fun state' => ?_
    refine uses_bind (uses_ofExcept _) fun bastion => ?_
    refine uses_bind (listenPort_uses _) fun port => ?_
    exact uses_bind ⟨trivial, fun _ => uses_halt _⟩ fun raw => uses_halt _

theorem importEnvs_uses {names envs : List String} {idx : ℕ} {state : Config × ImportReport} :
    (importEnvs lib vars (secretsDir dir) overflowChecks names idx envs state).Uses
      (ReadsInSecrets dir) := by
  induction envs generalizing idx state with
  | nil => exact uses_halt _
  | cons envUp rest ih => exact uses_bind importEnv_uses fun state' => ih

/-- What has been read is in its place. -/
def Placed (dir : String) (reads : List Path) : Prop :=
  ∀ path ∈ reads, path = envPath dir ∨ InSecrets dir path

theorem placed_append {path : Path} (hs : Placed dir s) (hpath : path = envPath dir ∨ InSecrets dir path) :
    Placed dir (s ++ [path]) := by
  intro p hp
  obtain hp | hp := List.mem_append.mp hp
  · exact hs p hp
  · exact List.mem_singleton.mp hp ▸ hpath

theorem placed_of_uses {α : Type} {p : ImportProg α} (hp : p.Uses (ReadsInSecrets dir))
    (h : Reaches (fileSem files) p s s') (hs : Placed dir s) : Placed dir s' := by
  refine h.keeps hp ?_ hs
  intro s o r s' ho hM hs
  cases o with
  | readToString path =>
    obtain ⟨-, rfl⟩ := hM
    exact placed_append hs (Or.inr ho)
  | read path =>
    obtain ⟨-, rfl⟩ := hM
    exact placed_append hs (Or.inr ho)
  | fillBytes len =>
    obtain ⟨-, rfl⟩ := hM
    exact hs

/-- Either a bastion is refused, and the rest of the list does not matter, or it is plain. -/
theorem placed_of_bastions {names : List String} {state : Config × ImportReport}
    (hsafe : ∀ up, names.find? (fun up => hasSeparator (lib.toLowercase up)) = some up →
      authKind vars up ≠ "key")
    (h : Reaches (fileSem files) (importBastions lib vars (secretsDir dir) names state) s s')
    (hs : Placed dir s) : Placed dir s' := by
  induction names generalizing state s with
  | nil => exact reaches_halt.mp h ▸ hs
  | cons up rest ih =>
    have hfirst : hasSeparator (lib.toLowercase up) = true → authKind vars up ≠ "key" :=
      fun hsep => hsafe up (List.find?_cons_of_pos hsep)
    obtain h | ⟨state', s₁, hdone, hrest⟩ := reaches_bind.mp h
    · exact placed_of_uses (importBastion_uses hfirst) h hs
    · have hplain : hasSeparator (lib.toLowercase up) = false := by
        by_contra hsep
        rw [Bool.not_eq_false] at hsep
        exact importBastion_refused (hfirst hsep) hsep hdone
      refine ih (fun up' hup' => hsafe up' ?_) hrest
        (placed_of_uses (importBastion_uses hfirst) hdone.reaches hs)
      rwa [List.find?_cons_of_neg (by simp [hplain])]

theorem placed_of_vars (hsafe : ¬ KeyEscapes lib vars)
    (h : Reaches (fileSem files) (importVars lib vars (secretsDir dir) overflowChecks dir) s s')
    (hs : Placed dir s) : Placed dir s' := by
  have hbastions : ∀ up, (bastionNames vars).find? (fun up => hasSeparator (lib.toLowercase up)) =
      some up → authKind vars up ≠ "key" :=
    fun up hup hkey => hsafe ⟨up, hup, hkey⟩
  obtain h | ⟨state, s₁, hdone, hrest⟩ := reaches_bind.mp h
  · exact placed_of_bastions hbastions h hs
  · have hs₁ := placed_of_bastions hbastions hdone.reaches hs
    refine placed_of_uses ?_ hrest hs₁
    dsimp only
    split_ifs
    · exact uses_halt _
    · exact uses_bind importEnvs_uses fun _ => uses_bind (uses_ofExcept _) fun _ => uses_halt _

theorem fromUtf8_asBytes (text : String) : fromUtf8 (Str.asBytes text) = .ok text := by
  simp [fromUtf8, Str.fromUtf8Lossy_asBytes]

theorem bind_fromUtf8 {path : Path} {text : String} (h : files path = .ok (Str.asBytes text)) :
    (files path).bind fromUtf8 = .ok text := by
  have hbind (bytes : Bytes) : (Except.ok bytes).bind fromUtf8 = fromUtf8 bytes := rfl
  rw [h, hbind, fromUtf8_asBytes]

theorem contained {text : String} (hsafe : ¬ KeyEscapes lib (parseEnv text)) :
    Contained lib overflowChecks dir text := by
  intro files hfile
  refine always_iff_reaches.mpr fun reads h => ?_
  have hempty : Placed dir [] := fun _ hp => absurd hp List.not_mem_nil
  have hfirst : Placed dir ([] ++ [envPath dir]) := placed_append hempty (Or.inl rfl)
  obtain h | ⟨r, s₁, hask, hrest⟩ := reaches_bind.mp h
  · obtain rfl | ⟨r, hM⟩ := reaches_perform.mp h
    · exact hempty
    · exact hM.2 ▸ hfirst
  · obtain ⟨hr, rfl⟩ := ends_perform.mp hask
    rw [bind_fromUtf8 hfile] at hr
    subst hr
    exact placed_of_vars hsafe hrest hfirst

/-! ## Where a key escapes -/

theorem stripPrefix_eq_some {pre text rest : String} :
    stripPrefix pre text = some rest ↔ text = pre ++ rest := by
  unfold stripPrefix
  split_ifs with h
  · obtain ⟨tail, htail⟩ := h
    have hdrop : text.toList.drop pre.toList.length = tail := by rw [← htail, List.drop_left]
    have htext : text = pre ++ String.ofList tail := by
      apply String.toList_inj.mp
      rw [String.toList_append, String.toList_ofList, htail]
    rw [hdrop, Option.some.injEq, htext, String.append_right_inj, eq_comm]
  · simp only [false_iff]
    rintro rfl
    exact h ⟨rest.toList, by rw [String.toList_append]⟩

theorem stripSuffix_eq_some {suffix text rest : String} :
    stripSuffix suffix text = some rest ↔ text = rest ++ suffix := by
  unfold stripSuffix
  split_ifs with h
  · obtain ⟨front, hfront⟩ := h
    have htake : text.toList.take (text.toList.length - suffix.toList.length) = front := by
      rw [← hfront, List.length_append, Nat.add_sub_cancel, List.take_left]
    have htext : text = String.ofList front ++ suffix := by
      apply String.toList_inj.mp
      rw [String.toList_append, String.toList_ofList, hfront]
    rw [htake, Option.some.injEq, htext, String.append_left_inj, eq_comm]
  · simp only [false_iff]
    rintro rfl
    exact h ⟨rest.toList, by rw [String.toList_append]⟩

theorem mem_sortedNames {names : List String} {name : String} :
    name ∈ sortedNames names ↔ name ∈ names := by
  rw [sortedNames, List.mem_dedup, List.mem_insertionSort]

theorem mem_bastionNames : up ∈ bastionNames vars ↔ "BASTION_" ++ up ++ "_HOST" ∈ vars := by
  simp only [bastionNames, mem_sortedNames, List.mem_filterMap, Option.bind_eq_some_iff,
    stripPrefix_eq_some, stripSuffix_eq_some, Std.ExtTreeMap.mem_keys]
  constructor
  · rintro ⟨k, hk, rest, rfl, rfl⟩
    rwa [String.append_assoc]
  · intro h
    exact ⟨_, h, up ++ "_HOST", by rw [String.append_assoc], rfl⟩

theorem host_of_mem (h : up ∈ bastionNames vars) : ∃ host, bastionVar vars up "HOST" = some host := by
  have hmem := mem_bastionNames.mp h
  have hkey : "BASTION_" ++ up ++ "_" ++ "HOST" = "BASTION_" ++ up ++ "_HOST" := by
    rw [String.append_assoc]
    rfl
  rw [bastionVar, hkey]
  exact Tables.exists_of_mem hmem

/-- Every file is there and is a text. -/
def Readable (files : Path → Except String Bytes) : Prop :=
  ∀ path, ∃ text, files path = .ok (Str.asBytes text)

section
variable (secrets : String) (hfiles : Readable files)
include hfiles

theorem readSecretFile_can {name : String} (hname : PlainName name) (s : List Path) :
    ∃ pw s', Ends (fileSem files) (readSecretFile secrets name) s pw s' := by
  obtain ⟨text, htext⟩ := hfiles ⟨secrets, name⟩
  refine ⟨trimEndOfLine text, s ++ [⟨secrets, name⟩], ?_⟩
  rw [readSecretFile, refusedName_of_plain hname, if_neg Bool.false_ne_true]
  refine ends_bind.mpr ⟨.ok text, _, ends_perform.mpr ⟨(bind_fromUtf8 htext).symm, rfl⟩, ?_⟩
  exact ends_bind.mpr ⟨text, _, ends_ofExcept.mpr ⟨rfl, rfl⟩, ends_halt_ok.mpr ⟨rfl, rfl⟩⟩

theorem readKey_can (lc : String) (s : List Path) : ∃ auth, Ends (fileSem files)
    (bastionAuth secrets lc "key") s auth (s ++ [⟨secrets, "bastion_" ++ lc ++ "_key"⟩]) := by
  obtain ⟨text, htext⟩ := hfiles ⟨secrets, "bastion_" ++ lc ++ "_key"⟩
  refine ⟨.key (Str.asBytes text) none, ?_⟩
  rw [bastionAuth, if_pos rfl]
  refine ends_bind.mpr ⟨.ok (Str.asBytes text), _, ends_perform.mpr ⟨htext.symm, rfl⟩, ?_⟩
  exact ends_bind.mpr ⟨_, _, ends_ofExcept.mpr ⟨rfl, rfl⟩, ends_halt_ok.mpr ⟨rfl, rfl⟩⟩

theorem bastionAuth_can (kind : String) (hplain : hasSeparator lc = false) (s : List Path) :
    ∃ auth s', Ends (fileSem files) (bastionAuth secrets lc kind) s auth s' := by
  by_cases hkey : kind = "key"
  · obtain ⟨auth, hends⟩ := readKey_can secrets hfiles lc s
    exact ⟨auth, _, hkey ▸ hends⟩
  · obtain ⟨pw, s', hends⟩ := readSecretFile_can secrets hfiles (plain_bastionPassword.mpr hplain) s
    refine ⟨.password pw, s', ?_⟩
    rw [bastionAuth, if_neg hkey]
    exact ends_bind.mpr ⟨pw, s', hends, ends_halt_ok.mpr ⟨rfl, rfl⟩⟩

theorem pinnedHostKeys_can (lib : Library) (lc : String) (s : List Path) :
    ∃ pinned s', Ends (fileSem files) (pinnedHostKeys lib secrets lc) s pinned s' := by
  obtain ⟨text, htext⟩ := hfiles ⟨secrets, "bastion_" ++ lc ++ "_known_hosts"⟩
  let found := fingerprintsFromKnownHosts lib text
  refine ⟨(found.1, if found.1.isEmpty then found.2 ++ [unusableWarning lc] else found.2),
    s ++ [⟨secrets, "bastion_" ++ lc ++ "_known_hosts"⟩], ?_⟩
  refine ends_bind.mpr ⟨.ok text, _, ends_perform.mpr ⟨(bind_fromUtf8 htext).symm, rfl⟩, ?_⟩
  exact ends_halt_ok.mpr ⟨rfl, rfl⟩

theorem importBastion_can (hmem : up ∈ bastionNames vars)
    (hplain : hasSeparator (lib.toLowercase up) = false) (state : Config × ImportReport)
    (s : List Path) :
    ∃ state' s', Ends (fileSem files) (importBastion lib vars secrets up state) s state' s' := by
  obtain ⟨host, hhost⟩ := host_of_mem hmem
  obtain ⟨auth, s₁, hauth⟩ := bastionAuth_can secrets hfiles (authKind vars up) hplain s
  obtain ⟨pinned, s₂, hpinned⟩ := pinnedHostKeys_can secrets hfiles lib (lib.toLowercase up) s₁
  refine ⟨addBastion (lib.toLowercase up) (bastionOf vars up host auth pinned.1) pinned.2 state, s₂, ?_⟩
  refine ends_bind.mpr ⟨host, s, by rw [hhost]; exact ends_halt_ok.mpr ⟨rfl, rfl⟩, ?_⟩
  refine ends_bind.mpr ⟨auth, s₁, hauth, ends_bind.mpr ⟨pinned, s₂, hpinned, ?_⟩⟩
  exact ends_halt_ok.mpr ⟨rfl, rfl⟩

/-- The key of a bastion with a separator in its name is read. -/
theorem importBastion_escapes (hmem : up ∈ bastionNames vars) (hkey : authKind vars up = "key")
    (state : Config × ImportReport) (s : List Path) :
    Reaches (fileSem files) (importBastion lib vars secrets up state) s
      (s ++ [⟨secrets, "bastion_" ++ lib.toLowercase up ++ "_key"⟩]) := by
  obtain ⟨host, hhost⟩ := host_of_mem hmem
  obtain ⟨auth, hauth⟩ := readKey_can secrets hfiles (lib.toLowercase up) s
  refine reaches_bind.mpr (Or.inr ⟨host, s, by rw [hhost]; exact ends_halt_ok.mpr ⟨rfl, rfl⟩, ?_⟩)
  refine reaches_bind.mpr (Or.inl ?_)
  rw [hkey]
  exact hauth.reaches

/-- The bastions before the first with a separator are imported, and then its key is read. -/
theorem importBastions_escapes {names : List String} (hmem : ∀ up ∈ names, up ∈ bastionNames vars)
    (hfind : names.find? (fun up => hasSeparator (lib.toLowercase up)) = some up)
    (hkey : authKind vars up = "key") (state : Config × ImportReport) (s : List Path) :
    ∃ s', Reaches (fileSem files) (importBastions lib vars secrets names state) s
      (s' ++ [⟨secrets, "bastion_" ++ lib.toLowercase up ++ "_key"⟩]) := by
  induction names generalizing state s with
  | nil => simp at hfind
  | cons first rest ih =>
    have hfirst := hmem first List.mem_cons_self
    cases hsep : hasSeparator (lib.toLowercase first) with
    | true =>
      rw [List.find?_cons_of_pos (by simpa using hsep)] at hfind
      obtain rfl : first = up := Option.some.inj hfind
      exact ⟨s, reaches_bind.mpr (Or.inl (importBastion_escapes secrets hfiles hfirst hkey state s))⟩
    | false =>
      rw [List.find?_cons_of_neg (by simp [hsep])] at hfind
      obtain ⟨state', s₁, hends⟩ := importBastion_can secrets hfiles hfirst hsep state s
      obtain ⟨s', hreach⟩ :=
        ih (fun up hup => hmem up (List.mem_cons_of_mem first hup)) hfind state' s₁
      exact ⟨s', reaches_bind.mpr (Or.inr ⟨state', s₁, hends, hreach⟩)⟩

end

/-- Every file but `.env` is empty. -/
def emptyFiles (dir text : String) (path : Path) : Except String Bytes :=
  .ok (if path = envPath dir then Str.asBytes text else [])

theorem emptyFiles_env (dir text : String) :
    emptyFiles dir text (envPath dir) = .ok (Str.asBytes text) := by
  rw [emptyFiles, if_pos rfl]

theorem readable_emptyFiles (dir text : String) : Readable (emptyFiles dir text) := by
  intro path
  unfold emptyFiles
  split_ifs
  · exact ⟨text, rfl⟩
  · exact ⟨"", rfl⟩

theorem not_contained {text : String} (h : KeyEscapes lib (parseEnv text)) :
    ¬ Contained lib overflowChecks dir text := by
  obtain ⟨up, hfind, hkey⟩ := h
  intro hcontained
  have hread := emptyFiles_env dir text
  obtain ⟨s, hbastions⟩ := importBastions_escapes (secretsDir dir) (readable_emptyFiles dir text)
    (fun _ hup => hup) hfind hkey ({}, {}) [envPath dir]
  have hreach : Reaches (fileSem (emptyFiles dir text)) (buildFromDir lib overflowChecks dir) []
      (s ++ [⟨secretsDir dir, "bastion_" ++ lib.toLowercase up ++ "_key"⟩]) := by
    refine reaches_bind.mpr (Or.inr ⟨.ok text, [envPath dir],
      ends_perform.mpr ⟨(bind_fromUtf8 hread).symm, rfl⟩, ?_⟩)
    refine reaches_bind.mpr (Or.inr ⟨text, _, ends_ofExcept.mpr ⟨rfl, rfl⟩, ?_⟩)
    exact reaches_bind.mpr (Or.inl hbastions)
  have hplaced := always_iff_reaches.mp (hcontained _ hread) _ hreach
    ⟨secretsDir dir, "bastion_" ++ lib.toLowercase up ++ "_key"⟩ (by simp)
  obtain henv | ⟨-, hplain⟩ := hplaced
  · have hname := congrArg (fun p : Path => p.name.toList.length) henv
    simp [envPath] at hname
  · have hsep : hasSeparator (lib.toLowercase up) = true := by simpa using List.find?_some hfind
    rw [plain_key.mp hplain] at hsep
    exact Bool.false_ne_true hsep

/-- Letters of ASCII have the case of ASCII. -/
def asciiLibrary : Library where
  toLowercase s := String.ofList (s.toList.map Char.toLower)
  toUppercase s := String.ofList (s.toList.map Char.toUpper)
  base64Decode _ := none
  base64NoPad _ := ""
  hashes := ⟨Sha.sha1, Sha.sha256⟩

def hostileText : String := "BASTION_/../../etc/ssh/ssh_host_rsa_HOST=b
" ++
  "BASTION_/../../etc/ssh/ssh_host_rsa_SSH_AUTH=key
"

end MiddleWhere.Ctl.Import
