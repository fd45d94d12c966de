import MiddleWhere.Ctl.ConnectionUrl
import MiddleWhere.Data.Separators

/-!
# What is read back of a connection URL

The URL that is printed for an environment shows each of its parts, and the reader gets them
back, but for a database named `.` or `..`: as a segment of a path that is no name.
-/

namespace MiddleWhere.Ctl
open Percent Separators

/-! ## What the library promises -/

/-- A scheme that the WHATWG rules give no meaning of its own. -/
def NonSpecial (scheme : String) : Prop :=
  scheme.toList.all Char.isLower = true ∧ scheme ≠ "" ∧
    scheme ∉ ["http", "https", "ws", "wss", "ftp", "file"]

instance (scheme : String) : Decidable (NonSpecial scheme) :=
  inferInstanceAs (Decidable (_ ∧ _ ∧ _))

/-- `.` and `..`, also with their dots escaped. -/
def isDotSegment (segment : String) : Bool :=
  [".", "%2e", "..", ".%2e", "%2e.", "%2e%2e"].contains
    (String.ofList (segment.toList.map Char.toLower))

def orEmpty (before : String) (part : Option String) : String :=
  match part with
  | some text => before ++ text
  | none => ""

/-- A URL with one segment in its path at most. -/
def urlText (scheme user password host : String) (port : UInt16) (segment query : Option String) :
    String :=
  scheme ++ "://" ++ (user ++ ":" ++ password ++ "@" ++ host ++ ":" ++ toString port.toNat) ++
    orEmpty "/" segment ++ orEmpty "?" query

/-- Dot segments are removed; escapes stay as they are. -/
def keptPath (segment : Option String) : String :=
  match segment with
  | some text => if isDotSegment text then "/" else "/" ++ text
  | none => ""

structure UrlLib.Whatwg (lib : UrlLib) : Prop where
  parse_nonSpecial : ∀ {scheme user password host : String} (port : UInt16)
    {segment query : Option String}, NonSpecial scheme →
    Escaped user.toList → user ≠ "" → Escaped password.toList → password ≠ "" →
    host.toList.all isUnreserved = true → host ≠ "" →
    (∀ text, segment = some text → Escaped text.toList) →
    (∀ text, query = some text → text.toList.all (fun c => isUnreserved c || c == '=') = true) →
    lib.parse (urlText scheme user password host port segment query) =
      .ok ⟨scheme, user, some password, some host, some port, keptPath segment⟩

/-! ## What is written -/

/-- What a connection URL is printed for. -/
structure Endpoint where
  engine : EngineKind
  env : String
  token : String
  port : UInt16
  database : Option String
  supported : engine ≠ .msSql
  env_ne : env ≠ ""
  token_ne : token ≠ ""
  database_ne : database ≠ some ""

def Endpoint.uri (e : Endpoint) : Option String :=
  engineUri e.engine e.env e.token e.port e.database

/-- What the reader is to get back. -/
def Endpoint.parsed (e : Endpoint) : ParsedUrl :=
  ⟨e.engine, "127.0.0.1", some e.port, e.database, e.env, some e.token⟩

def Endpoint.scheme (e : Endpoint) : String :=
  if e.engine = .mySql then "mysql" else "postgresql"

def Endpoint.query (e : Endpoint) : Option String :=
  if e.engine = .mySql then none else some "sslmode=disable"

theorem Endpoint.uri_eq (e : Endpoint) : e.uri = some (urlText e.scheme (pct e.env) (pct e.token)
    "127.0.0.1" e.port (e.database.map pct) e.query) := by
  have hpath : uriPath e.database = orEmpty "/" (e.database.map pct) := by
    cases hdb : e.database with
    | none => rfl
    | some db =>
      have hne : db ≠ "" := fun h => e.database_ne (by rw [hdb, h])
      simp [uriPath, Option.filter, hne, orEmpty]
  have hmysql : "mysql" ++ "://" = "mysql://" := by decide
  have hpostgres : "postgresql" ++ "://" = "postgresql://" := by decide
  have hquery : "?" ++ "sslmode=disable" = "?sslmode=disable" := by decide
  have hhost : "@" ++ "127.0.0.1" ++ ":" = "@127.0.0.1:" := by decide
  simp only [uri, engineUri, hpath, scheme, query, urlText]
  cases hengine : e.engine with
  | msSql => exact absurd hengine e.supported
  | mySql =>
    rw [if_pos rfl, if_pos rfl, hmysql, ← hhost]
    simp only [orEmpty, String.append_assoc, String.append_empty]
  | postgres =>
    rw [if_neg (by decide), if_neg (by decide), hpostgres, ← hhost]
    simp only [orEmpty, String.append_assoc, hquery]

/-! ## What is read back -/

theorem pct_escaped (s : String) : Escaped (pct s).toList := encodeText_escaped s

theorem percentDecode_pct (s : String) : percentDecode (pct s) = s :=
  Percent.decodeText_encodeText s

theorem schemeEngine_scheme (lib : UrlLib) (e : Endpoint) :
    schemeEngine lib e.scheme = .ok e.engine := by
  unfold Endpoint.scheme schemeEngine
  cases hengine : e.engine with
  | msSql => exact absurd hengine e.supported
  | mySql => rfl
  | postgres => rfl

/-- The characters whose lower case is `d`. -/
theorem of_toLower {c d : Char} (h : c.toLower = d) : c = d ∨ c = d.toUpper := by
  by_cases hc : c.toNat < 128
  · have hall : ∀ k : Fin 128, Char.ofNat k.val = (Char.ofNat k.val).toLower ∨
        Char.ofNat k.val = (Char.ofNat k.val).toLower.toUpper := by decide +kernel
    have hlow := hall ⟨c.toNat, hc⟩
    rw [Char.ofNat_toNat, h] at hlow
    exact hlow
  · left
    rw [← h, Char.toLower, dif_neg]
    rintro ⟨-, hle⟩
    have hnat : c.toNat ≤ 'Z'.toNat := hle
    exact hc (lt_of_le_of_lt hnat (by decide))

/-- What is read of a dot segment. -/
theorem decodeText_dotSegment {segment : String} (h : isDotSegment segment = true) :
    decodeText segment = "." ∨ decodeText segment = ".." := by
  have hdot {c : Char} (hc : c.toLower = '.') : c = '.' := (of_toLower hc).elim id id
  have hpercent {c : Char} (hc : c.toLower = '%') : c = '%' := (of_toLower hc).elim id id
  have htwo {c : Char} (hc : c.toLower = '2') : c = '2' := (of_toLower hc).elim id id
  have he {c : Char} (hc : c.toLower = 'e') : c = 'e' ∨ c = 'E' := of_toLower hc
  obtain ⟨text, rfl⟩ : ∃ text, segment = String.ofList text :=
    ⟨segment.toList, String.ofList_toList.symm⟩
  have hread (word : List Char) (hword : String.ofList (text.map Char.toLower) = String.ofList word) :
      text.map Char.toLower = word := String.ofList_injective hword
  simp only [isDotSegment, List.contains_iff_mem, List.mem_cons, List.not_mem_nil, or_false,
    String.toList_ofList] at h
  obtain h | h | h | h | h | h := h
  · obtain ⟨a, rfl, ha⟩ := by simpa [List.map_eq_cons_iff] using hread ['.'] h
    rw [hdot ha]
    decide +kernel
  · obtain ⟨a, b, c, rfl, ha, hb, hc⟩ := by
      simpa [List.map_eq_cons_iff] using hread ['%', '2', 'e'] h
    rw [hpercent ha, htwo hb]
    obtain rfl | rfl := he hc <;> decide +kernel
  · obtain ⟨a, b, rfl, ha, hb⟩ := by simpa [List.map_eq_cons_iff] using hread ['.', '.'] h
    rw [hdot ha, hdot hb]
    decide +kernel
  · obtain ⟨a, b, c, d, rfl, ha, hb, hc, hd⟩ := by
      simpa [List.map_eq_cons_iff] using hread ['.', '%', '2', 'e'] h
    rw [hdot ha, hpercent hb, htwo hc]
    obtain rfl | rfl := he hd <;> decide +kernel
  · obtain ⟨a, b, c, d, rfl, ha, hb, hc, hd⟩ := by
      simpa [List.map_eq_cons_iff] using hread ['%', '2', 'e', '.'] h
    rw [hpercent ha, htwo hb, hdot hd]
    obtain rfl | rfl := he hc <;> decide +kernel
  · obtain ⟨a, b, c, d, e, f, rfl, ha, hb, hc, hd, hetwo, hf⟩ := by
      simpa [List.map_eq_cons_iff] using hread ['%', '2', 'e', '%', '2', 'e'] h
    rw [hpercent ha, htwo hb, hpercent hd, htwo hetwo]
    obtain rfl | rfl := he hc <;> obtain rfl | rfl := he hf <;> decide +kernel

/-- A name whose escaped text is a dot segment is a dot or two. -/
theorem isDotSegment_pct {db : String} : isDotSegment (pct db) = true ↔ db = "." ∨ db = ".." := by
  constructor
  · intro h
    rw [← decodeText_encodeText db]
    exact decodeText_dotSegment h
  · rintro (rfl | rfl)
    · decide
    · decide

theorem trimSlashes_slash {text : String} (h : Escaped text.toList) :
    trimSlashes ("/" ++ text) = text := by
  have hslash : ∀ c ∈ text.toList, (c == '/') = false := by
    intro c hc
    rw [beq_eq_false_iff_ne]
    rintro rfl
    exact h.not_mem (by decide) hc
  have hkept : text.toList.dropWhile (· == '/') = text.toList := by
    cases htext : text.toList with
    | nil => rfl
    | cons c rest =>
      rw [htext] at hslash
      rw [List.dropWhile_cons_of_neg]
      simp [hslash c List.mem_cons_self]
  rw [trimSlashes, String.toList_append, show "/".toList = ['/'] from rfl, List.singleton_append,
    List.dropWhile_cons_of_pos (by decide), hkept, String.ofList_toList]

theorem databaseOf_keptPath {database : Option String} (hne : database ≠ some "") :
    databaseOf (keptPath (database.map pct)) = database ↔
      database ≠ some "." ∧ database ≠ some ".." := by
  cases database with
  | none => exact iff_of_true rfl ⟨nofun, nofun⟩
  | some db =>
    have hdb : db ≠ "" := fun h => hne (by rw [h])
    simp only [Option.map_some, keptPath, ne_eq, Option.some.injEq, ← not_or]
    rw [← isDotSegment_pct]
    by_cases hdot : isDotSegment (pct db) = true
    · rw [if_pos hdot]
      exact iff_of_false nofun (not_not_intro hdot)
    · rw [if_neg hdot]
      refine iff_of_true ?_ hdot
      simp only [databaseOf]
      have htrim : trimSlashes ("/" ++ pct db) = pct db :=
        trimSlashes_slash (pct_escaped db)
      have hname : pct db ≠ "" := encodeText_ne hdb
      rw [htrim, if_neg hname]
      exact congrArg some (percentDecode_pct db)

theorem Endpoint.scheme_nonSpecial (e : Endpoint) : NonSpecial e.scheme := by
  unfold scheme
  split_ifs
  · decide
  · decide

theorem Endpoint.query_plain (e : Endpoint) : ∀ text, e.query = some text →
    text.toList.all (fun c => isUnreserved c || c == '=') = true := by
  intro text htext
  unfold query at htext
  split_ifs at htext
  obtain rfl := Option.some.inj htext
  decide

theorem Endpoint.segment_escaped (e : Endpoint) : ∀ text, e.database.map pct = some text →
    Escaped text.toList := by
  intro text htext
  obtain ⟨db, -, rfl⟩ := Option.map_eq_some_iff.mp htext
  exact pct_escaped db

/-- All that the printed URL shows is read back, but for what the path says of the database. -/
theorem parse_uri {lib : UrlLib} (hlib : lib.Whatwg) (e : Endpoint) :
    e.uri.map (parseConnectionUrl lib) = some (.ok { e.parsed with
      database := databaseOf (keptPath (e.database.map pct)) }) := by
  have hurl := hlib.parse_nonSpecial e.port e.scheme_nonSpecial (pct_escaped e.env)
    (encodeText_ne e.env_ne) (pct_escaped e.token) (encodeText_ne e.token_ne)
    (show "127.0.0.1".toList.all isUnreserved = true by decide) (by decide) e.segment_escaped
    e.query_plain
  have henv := percentDecode_pct e.env
  have htoken := percentDecode_pct e.token
  rw [e.uri_eq, Option.map_some, parseConnectionUrl]
  simp only [hurl, Except.mapError, bind, Except.bind, schemeEngine_scheme, hostOf,
    Option.filter_some, henv, htoken, if_neg e.env_ne, pure, Except.pure, Option.map_some]
  rfl

/-! ## The parts of a URL -/

structure Parts where
  scheme : List Char
  user : List Char
  password : Option (List Char)
  host : List Char
  port : Option (List Char)
  segment : Option (List Char)

def readParts (text : List Char) : Parts :=
  let (scheme, rest) := cut ':' text
  let (userinfo, rest) := cut '@' ((rest.getD []).drop 2)
  let (user, password) := cut ':' userinfo
  let (front, _) := cut '?' (rest.getD [])
  let (hostPort, segment) := cut '/' front
  let (host, port) := cut ':' hostPort
  ⟨scheme, user, password, host, port, segment⟩

theorem digits_not_mem {c : Char} (n : ℕ) (hc : c.isDigit = false) : c ∉ (toString n).toList := by
  intro hmem
  rw [Nat.toString_eq_ofList_toDigits, String.toList_ofList] at hmem
  rw [Nat.isDigit_of_mem_toDigits (by decide) (by decide) hmem] at hc
  cases hc

theorem unreserved_not_mem {c : Char} {text : String} (h : text.toList.all isUnreserved = true)
    (hc : isUnreserved c = false) : c ∉ text.toList := by
  intro hmem
  rw [List.all_eq_true.mp h c hmem] at hc
  cases hc

theorem readParts_urlText {scheme user password host : String} {port : UInt16}
    {segment query : Option String} (hscheme : scheme.toList.all Char.isLower = true)
    (huser : Escaped user.toList) (hpassword : Escaped password.toList)
    (hhost : host.toList.all isUnreserved = true)
    (hsegment : ∀ text, segment = some text → Escaped text.toList) :
    readParts (urlText scheme user password host port segment query).toList =
      ⟨scheme.toList, user.toList, some password.toList, host.toList,
        some (toString port.toNat).toList, segment.map String.toList⟩ := by
  have hcolon : ':' ∉ scheme.toList := fun h => by
    have hlower := List.all_eq_true.mp hscheme ':' h
    exact absurd hlower (by decide)
  have huserinfo : '@' ∉ user.toList ++ ':' :: password.toList := by
    simp [huser.not_mem (show isEscapedChar '@' = false by decide),
      hpassword.not_mem (show isEscapedChar '@' = false by decide)]
  have huser' : ':' ∉ user.toList := huser.not_mem (by decide)
  have hhost' : ':' ∉ host.toList := unreserved_not_mem hhost (by decide)
  have haddress {c : Char} (hplain : isUnreserved c = false) (hdigit : c.isDigit = false)
      (hc : c ≠ ':') : c ∉ host.toList ++ ':' :: (toString port.toNat).toList := by
    intro hmem
    rw [List.mem_append, List.mem_cons] at hmem
    obtain h | h | h := hmem
    · exact unreserved_not_mem hhost hplain h
    · exact hc h
    · exact digits_not_mem _ hdigit h
  have hport : '/' ∉ host.toList ++ ':' :: (toString port.toNat).toList :=
    haddress (by decide) (by decide) (by decide)
  have hsegmentText : '?' ∉ (orEmpty "/" segment).toList := by
    cases segment with
    | none => simp [orEmpty]
    | some text =>
      have htext := (hsegment text rfl).not_mem (show isEscapedChar '?' = false by decide)
      simp [orEmpty, htext]
  have hfront : '?' ∉ host.toList ++ ':' :: (toString port.toNat).toList ++
      (orEmpty "/" segment).toList := by
    rw [List.mem_append, not_or]
    exact ⟨haddress (by decide) (by decide) (by decide), hsegmentText⟩
  have htext : (urlText scheme user password host port segment query).toList =
      scheme.toList ++ ':' :: '/' :: '/' :: ((user.toList ++ ':' :: password.toList) ++
        '@' :: (host.toList ++ ':' :: (toString port.toNat).toList ++
          (orEmpty "/" segment).toList ++ (orEmpty "?" query).toList)) := by
    simp [urlText]
  have hquery : (cut '?' (host.toList ++ ':' :: (toString port.toNat).toList ++
      (orEmpty "/" segment).toList ++ (orEmpty "?" query).toList)).1 =
      host.toList ++ ':' :: (toString port.toNat).toList ++ (orEmpty "/" segment).toList := by
    cases query with
    | none => rw [orEmpty, String.toList_empty, List.append_nil, cut_whole hfront]
    | some text =>
      rw [orEmpty, String.toList_append, show "?".toList = ['?'] from rfl, List.singleton_append,
        cut_append hfront]
  have hpath : cut '/' (host.toList ++ ':' :: (toString port.toNat).toList ++
      (orEmpty "/" segment).toList) =
      (host.toList ++ ':' :: (toString port.toNat).toList, segment.map String.toList) := by
    cases segment with
    | none => rw [orEmpty, String.toList_empty, List.append_nil, cut_whole hport]; rfl
    | some text =>
      rw [orEmpty, String.toList_append, show "/".toList = ['/'] from rfl, List.singleton_append,
        cut_append hport]
      rfl
  simp only [readParts, htext, cut_append hcolon, Option.getD_some, List.drop_succ_cons,
    List.drop_zero, cut_append huserinfo, cut_append huser', hquery, hpath, cut_append hhost']

theorem Endpoint.readParts_uri (e : Endpoint) : e.uri.map (readParts ·.toList) =
    some ⟨e.scheme.toList, (pct e.env).toList, some (pct e.token).toList, "127.0.0.1".toList,
      some (toString e.port.toNat).toList, (e.database.map pct).map String.toList⟩ := by
  rw [e.uri_eq, Option.map_some, readParts_urlText e.scheme_nonSpecial.1
    (pct_escaped e.env) (pct_escaped e.token) (by decide) e.segment_escaped]

theorem Endpoint.scheme_inj {e e' : Endpoint} (h : e.scheme = e'.scheme) : e.engine = e'.engine := by
  have hengine (e : Endpoint) : e.engine = .mySql ∨ e.engine = .postgres := by
    cases hengine : e.engine with
    | mySql => exact Or.inl rfl
    | postgres => exact Or.inr rfl
    | msSql => exact absurd hengine e.supported
  unfold scheme at h
  obtain he | he := hengine e <;> obtain he' | he' := hengine e' <;> rw [he, he'] at h ⊢
  · exact absurd h (by decide)
  · exact absurd h (by decide)

/-- No two endpoints have one URL. -/
theorem Endpoint.uri_injective : Endpoint.uri.Injective := by
  intro e e' h
  have hparts := e'.readParts_uri
  rw [← h, e.readParts_uri, Option.some.injEq, Parts.mk.injEq] at hparts
  obtain ⟨hscheme, henv, htoken, -, hport, hdatabase⟩ := hparts
  have hengine := scheme_inj (String.toList_inj.mp hscheme)
  have henv' := encodeText_injective (String.toList_inj.mp henv)
  have htoken' := encodeText_injective (String.toList_inj.mp (Option.some.inj htoken))
  have hport' : e.port.toNat = e'.port.toNat :=
    Nat.repr_injective (String.toList_inj.mp (Option.some.inj hport))
  have hdatabase' := Option.map_injective encodeText_injective
    (Option.map_injective (fun _ _ => String.toList_inj.mp) hdatabase)
  cases e
  cases e'
  simp only [Endpoint.mk.injEq]
  exact ⟨hengine, henv', htoken', UInt16.toNat_inj.mp hport', hdatabase'⟩

/-! ## A library that keeps the promise -/

/-- Cuts a URL at its separators. -/
def cuttingLib : UrlLib where
  parse text :=
    let parts := readParts text.toList
    .ok ⟨String.ofList parts.scheme, String.ofList parts.user, parts.password.map String.ofList,
      some (String.ofList parts.host),
      parts.port.map fun digits => UInt16.ofNat (Nat.ofDigitChars 10 digits 0),
      keptPath (parts.segment.map String.ofList)⟩
  debug := id

theorem cuttingLib_whatwg : cuttingLib.Whatwg where
  parse_nonSpecial := by
    intro scheme user password host port segment query hscheme huser _ hpassword _ hhost _
      hsegment _
    have hparts : readParts (urlText scheme user password host port segment query).toList = _ :=
      readParts_urlText hscheme.1 huser hpassword hhost hsegment
    have hport : Nat.ofDigitChars 10 (toString port.toNat).toList 0 = port.toNat := by
      rw [Nat.toString_eq_ofList_toDigits, String.toList_ofList, Nat.ofDigitChars_ten_toDigits]
    simp only [cuttingLib, hparts, String.ofList_toList, Option.map_some, hport, UInt16.ofNat_toNat,
      Option.map_map, Function.comp_def, Option.map_id']

/-! ## The round trip -/

/-- Escapes are lossless, a URL shows each of its parts, and reading it gives them back unless the
database is named by one dot or two. -/
theorem connectionUrl_roundTrip_iff (lib : UrlLib) (hlib : lib.Whatwg) :
    (∀ s, Escaped (pct s).toList ∧ percentDecode (pct s) = s) ∧ Endpoint.uri.Injective ∧
      ∀ e : Endpoint, e.uri.map (parseConnectionUrl lib) = some (.ok e.parsed) ↔
        e.database ≠ some "." ∧ e.database ≠ some ".." := by
  refine ⟨fun s => ⟨pct_escaped s, percentDecode_pct s⟩, Endpoint.uri_injective, ?_⟩
  intro e
  rw [parse_uri hlib e, ← databaseOf_keptPath e.database_ne, Option.some.injEq, Except.ok.injEq]
  constructor
  · intro h
    exact congrArg ParsedUrl.database h
  · intro h
    rw [h]
    rfl

/-- Reserved characters in every component. -/
theorem connectionUrl_roundTrip_reserved :
    (engineUri .postgres "a@b" "p/w:ä" 6033 (some "my db")).map (parseConnectionUrl cuttingLib) =
      some (.ok ⟨.postgres, "127.0.0.1", some 6033, some "my db", "a@b", some "p/w:ä"⟩) :=
  ((connectionUrl_roundTrip_iff cuttingLib cuttingLib_whatwg).2.2
    ⟨.postgres, "a@b", "p/w:ä", 6033, some "my db", nofun, by decide, by decide, by decide⟩).mpr
    ⟨by decide, by decide⟩

/-- A database named by a dot is lost. -/
theorem connectionUrl_dot : cuttingLib.Whatwg ∧
    (engineUri .mySql "app" "tok" 6033 (some ".")).map (parseConnectionUrl cuttingLib) =
      some (.ok ⟨.mySql, "127.0.0.1", some 6033, none, "app", some "tok"⟩) :=
  ⟨cuttingLib_whatwg, by decide +kernel⟩

end MiddleWhere.Ctl
