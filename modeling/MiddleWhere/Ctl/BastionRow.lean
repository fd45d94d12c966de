import MiddleWhere.Data.Separators
import MiddleWhere.Daemon.Handlers

/-!
# Rows of bastions

The daemon lists a bastion as one line of fields between tabs, and the wizard takes its name, its
host and the number of its pins out of the line again. Names, hosts and users are not checked
for the separators.
-/

namespace MiddleWhere.Ctl
open Separators

structure BastionInfo where
  name : String
  host : String
  pinned : ℕ
deriving DecidableEq

/-- `parse::<usize>` -/
def parseUsize (text : List Char) : Option ℕ :=
  let digits := if text.head? = some '+' then text.drop 1 else text
  if digits ≠ [] ∧ digits.all Char.isDigit = true ∧ Nat.ofDigitChars 10 digits 0 < 2 ^ 64 then
    some (Nat.ofDigitChars 10 digits 0)
  else none

/-- `strip_prefix("pinned=")?.parse().ok()?` -/
def pinCount (field : List Char) : Option ℕ :=
  if "pinned=".toList <+: field then parseUsize (field.drop "pinned=".toList.length) else none

/-- The host of `user@host:port`: after the last `@`, before the last `:`. -/
def hostOfEndpoint (endpoint : List Char) : List Char :=
  beforeLast ':' (afterLast '@' endpoint)

/-- Each `f.next()?` is a cut at the next tab. -/
def parseBastionRow (row : String) : Option BastionInfo := do
  let (name, rest) := cut '\t' row.toList
  let (endpoint, rest) := cut '\t' (← rest)
  let (_, rest) := cut '\t' (← rest)
  let (pinned, _) := cut '\t' (← rest)
  let pinned ← pinCount pinned
  return ⟨String.ofList name, String.ofList (hostOfEndpoint endpoint), pinned⟩

/-! ## Numbers -/

theorem parseUsize_toString {n : ℕ} (hn : n < 2 ^ 64) : parseUsize (toString n).toList = some n := by
  have hdigits : ∀ c ∈ Nat.toDigits 10 n, c.isDigit = true := fun c hc =>
    Nat.isDigit_of_mem_toDigits (by decide) (by decide) hc
  have hne : Nat.toDigits 10 n ≠ [] := Nat.toDigits_ne_nil
  have hplus : (Nat.toDigits 10 n).head? ≠ some '+' := by
    intro h
    exact absurd (hdigits '+' (List.mem_of_head? h)) (by decide)
  rw [Nat.toString_eq_ofList_toDigits, String.toList_ofList, parseUsize, if_neg hplus,
    Nat.ofDigitChars_ten_toDigits, if_pos ⟨hne, List.all_eq_true.mpr hdigits, hn⟩]

theorem parseUsize_lt {text : List Char} {n : ℕ} (h : parseUsize text = some n) : n < 2 ^ 64 := by
  simp only [parseUsize] at h
  split_ifs at h with hplus hvalid hvalid
  · obtain rfl := Option.some.inj h
    exact hvalid.2.2
  · obtain rfl := Option.some.inj h
    exact hvalid.2.2

/-- A number is made of digits, with one sign at most before them. -/
theorem parseUsize_chars {text : List Char} {n : ℕ} (h : parseUsize text = some n) :
    ∀ c ∈ text, c.isDigit = true ∨ c = '+' := by
  intro c hc
  simp only [parseUsize] at h
  split_ifs at h with hplus hvalid hvalid
  · obtain ⟨rest, rfl⟩ := List.head?_eq_some_iff.mp hplus
    rcases List.mem_cons.mp hc with rfl | hc
    · exact Or.inr rfl
    · exact Or.inl (List.all_eq_true.mp hvalid.2.1 c (by simpa using hc))
  · exact Or.inl (List.all_eq_true.mp hvalid.2.1 c hc)

theorem pinCount_row {n : ℕ} (hn : n < 2 ^ 64) :
    pinCount ("pinned=".toList ++ (toString n).toList) = some n := by
  rw [pinCount, if_pos (List.prefix_append _ _), List.drop_left, parseUsize_toString hn]

/-! ## Endpoints -/

variable {user host port : List Char}

theorem hostOfEndpoint_endpoint (hhost : '@' ∉ host) (hport : ∀ c ∈ port, c.isDigit = true) :
    hostOfEndpoint (user ++ '@' :: (host ++ ':' :: port)) = host := by
  have hat : '@' ∉ host ++ ':' :: port := by
    intro hmem
    rw [List.mem_append, List.mem_cons] at hmem
    obtain h | h | h := hmem
    · exact hhost h
    · exact absurd h (by decide)
    · exact absurd (hport _ h) (by decide)
  have hcolon : ':' ∉ port := fun h => absurd (hport _ h) (by decide)
  rw [hostOfEndpoint, afterLast_append user hat, beforeLast_append host hcolon]

/-- No `@` is left in what is taken for the host. -/
theorem hostOfEndpoint_at (endpoint : List Char) : '@' ∉ hostOfEndpoint endpoint := fun h =>
  afterLast_not_mem '@' endpoint (beforeLast_subset ':' _ h)

theorem hostOfEndpoint_subset (endpoint : List Char) : hostOfEndpoint endpoint ⊆ endpoint :=
  List.Subset.trans (beforeLast_subset ':' _) (afterLast_subset '@' endpoint)

/-! ## The row -/

/-- `user` looks like the fields of a row for this host and this number of pins. -/
def Forged (user host : List Char) (pins : ℕ) : Prop :=
  ∃ endpoint auth pinned rest,
    user = endpoint ++ '\t' :: (auth ++ '\t' :: (pinned ++ '\t' :: rest)) ∧
    '\t' ∉ endpoint ∧ '\t' ∉ auth ∧ '\t' ∉ pinned ∧
    hostOfEndpoint endpoint = host ∧ pinCount pinned = some pins

/-- The fields of a row that `parse_bastion_row` looks at. -/
theorem parseBastionRow_eq_some_iff {row : String} {info : BastionInfo} :
    parseBastionRow row = some info ↔ ∃ endpoint auth rest,
      row.toList = info.name.toList ++ '\t' :: (endpoint ++ '\t' :: (auth ++ '\t' :: rest)) ∧
      '\t' ∉ info.name.toList ∧ '\t' ∉ endpoint ∧ '\t' ∉ auth ∧
      hostOfEndpoint endpoint = info.host.toList ∧ pinCount (cut '\t' rest).1 = some info.pinned := by
  constructor
  · intro h
    simp only [parseBastionRow, Option.bind_eq_bind, Option.bind_eq_some_iff, Option.pure_def,
      Option.some.injEq] at h
    obtain ⟨rest₁, hname, rest₂, hendpoint, rest₃, hauth, pinned, hpinned, rfl⟩ := h
    have hrow := cut_eq_some (Prod.ext rfl hname)
    have hrest₁ := cut_eq_some (Prod.ext rfl hendpoint)
    have hrest₂ := cut_eq_some (Prod.ext rfl hauth)
    refine ⟨_, _, rest₃, ?_, ?_, hrest₁.2, hrest₂.2, ?_, hpinned⟩
    · rw [String.toList_ofList, ← hrest₂.1, ← hrest₁.1]
      exact hrow.1
    · rw [String.toList_ofList]
      exact hrow.2
    · rw [String.toList_ofList]
  · rintro ⟨endpoint, auth, rest, hrow, hname, hendpoint, hauth, hhost, hpinned⟩
    simp only [parseBastionRow, hrow, cut_append hname, cut_append hendpoint, cut_append hauth,
      hhost, hpinned, Option.bind_eq_bind, Option.bind_some, Option.pure_def, String.ofList_toList]

def authLabel (auth : BastionAuth) : String :=
  match auth with
  | .password _ => "password"
  | .key _ _ => "key"

/-- What follows the user in a row, up to the next tab and from there on. -/
def address (b : Bastion) : List Char :=
  '@' :: (b.host.toList ++ ':' :: (toString b.port.toNat).toList)

def afterEndpoint (b : Bastion) : List Char :=
  (authLabel b.auth).toList ++ '\t' ::
    ("pinned=".toList ++ (toString b.pinnedHostKeys.length).toList)

theorem toList_bastionRow (name : String) (b : Bastion) : (Daemon.bastionRow name b).toList =
    name.toList ++ '\t' :: ((b.sshUser.toList ++ address b) ++ '\t' :: afterEndpoint b) := by
  have hpinned : "\tpinned=".toList = '\t' :: "pinned=".toList := by decide
  unfold Daemon.bastionRow address afterEndpoint authLabel
  cases b.auth with
  | password p => simp [hpinned]
  | key pem passphrase => simp [hpinned]

theorem pinCount_at {field : List Char} {n : ℕ} (h : pinCount field = some n) : '@' ∉ field := by
  unfold pinCount at h
  split_ifs at h with hpre
  obtain ⟨tail, rfl⟩ := hpre
  rw [List.drop_left] at h
  intro hmem
  rcases List.mem_append.mp hmem with hmem | hmem
  · exact absurd hmem (by decide)
  · exact absurd (parseUsize_chars h _ hmem) (by decide)

theorem authLabel_eq (auth : BastionAuth) : authLabel auth = "password" ∨ authLabel auth = "key" := by
  cases auth with
  | password p => exact Or.inl rfl
  | key pem passphrase => exact Or.inr rfl

theorem pinCount_authLabel (auth : BastionAuth) : pinCount (authLabel auth).toList = none := by
  obtain h | h := authLabel_eq auth <;> rw [h] <;> decide

theorem authLabel_tab (auth : BastionAuth) : '\t' ∉ (authLabel auth).toList := by
  obtain h | h := authLabel_eq auth <;> rw [h] <;> decide

theorem address_tab {b : Bastion} (hhost : '\t' ∉ b.host.toList) : '\t' ∉ address b := by
  intro hmem
  rw [address, List.mem_cons, List.mem_append, List.mem_cons] at hmem
  obtain h | h | h | h := hmem
  · exact absurd h (by decide)
  · exact hhost h
  · exact absurd h (by decide)
  · rw [Nat.toString_eq_ofList_toDigits, String.toList_ofList] at h
    exact absurd (Nat.isDigit_of_mem_toDigits (by decide) (by decide) h) (by decide)

theorem portText_digits (port : UInt16) : ∀ c ∈ (toString port.toNat).toList, c.isDigit = true := by
  intro c hc
  rw [Nat.toString_eq_ofList_toDigits, String.toList_ofList] at hc
  exact Nat.isDigit_of_mem_toDigits (by decide) (by decide) hc

/-- The row tells which bastion it is about. -/
def Tells (name : String) (b : Bastion) : Prop :=
  parseBastionRow (Daemon.bastionRow name b) = some ⟨name, b.host, b.pinnedHostKeys.length⟩

variable {name : String} {b : Bastion}

theorem tells_of_plain (hname : '\t' ∉ name.toList) (hhost : '\t' ∉ b.host.toList)
    (hat : '@' ∉ b.host.toList) (huser : '\t' ∉ b.sshUser.toList)
    (hpins : b.pinnedHostKeys.length < 2 ^ 64) : Tells name b := by
  refine parseBastionRow_eq_some_iff.mpr ⟨_, _, _, toList_bastionRow name b, hname, ?_,
    authLabel_tab b.auth, hostOfEndpoint_endpoint hat (portText_digits b.port), ?_⟩
  · rw [List.mem_append, not_or]
    exact ⟨huser, address_tab hhost⟩
  · have hcount : '\t' ∉ "pinned=".toList ++ (toString b.pinnedHostKeys.length).toList := by
      rw [List.mem_append, not_or]
      refine ⟨by decide, fun h => ?_⟩
      rw [Nat.toString_eq_ofList_toDigits, String.toList_ofList] at h
      exact absurd (Nat.isDigit_of_mem_toDigits (by decide) (by decide) h) (by decide)
    rw [cut_whole hcount]
    exact pinCount_row hpins

theorem tells_of_forged (hname : '\t' ∉ name.toList)
    (huser : Forged b.sshUser.toList b.host.toList b.pinnedHostKeys.length) : Tells name b := by
  obtain ⟨endpoint, auth, pinned, rest, huser, hendpoint, hauth, hpinned, hhost, hpins⟩ := huser
  refine parseBastionRow_eq_some_iff.mpr ⟨endpoint, auth,
    pinned ++ '\t' :: (rest ++ address b ++ '\t' :: afterEndpoint b), ?_, hname, hendpoint, hauth,
    hhost, ?_⟩
  · rw [toList_bastionRow, huser]
    simp
  · rw [cut_append hpinned]
    exact hpins

/-- Which fields a row that tells its bastion was cut into. -/
theorem Tells.fields (h : Tells name b) :
    '\t' ∉ name.toList ∧ '\t' ∉ b.host.toList ∧ '@' ∉ b.host.toList ∧
      (('\t' ∉ b.sshUser.toList ∧ b.pinnedHostKeys.length < 2 ^ 64) ∨
        Forged b.sshUser.toList b.host.toList b.pinnedHostKeys.length) := by
  obtain ⟨endpoint, auth, rest, hrow, hname, hendpoint, hauth, hhost, hpins⟩ :=
    parseBastionRow_eq_some_iff.mp h
  have hat : '@' ∉ b.host.toList := hhost ▸ hostOfEndpoint_at endpoint
  have htab : '\t' ∉ b.host.toList := fun hmem => by
    rw [← hhost] at hmem
    exact hendpoint (hostOfEndpoint_subset endpoint hmem)
  have haddress : '\t' ∉ address b := address_tab htab
  refine ⟨hname, htab, hat, ?_⟩
  rw [toList_bastionRow] at hrow
  obtain ⟨-, hfields⟩ := append_inj hname hname hrow
  by_cases huser : '\t' ∈ b.sshUser.toList
  · obtain ⟨user₀, user₁, huser, huser₀⟩ := exists_cut huser
    rw [huser, List.append_assoc, List.append_assoc, List.cons_append] at hfields
    obtain ⟨rfl, hafter⟩ := append_inj huser₀ hendpoint hfields
    by_cases huser₁ : '\t' ∈ user₁
    · obtain ⟨second, others, rfl, hsecond⟩ := exists_cut huser₁
      rw [List.append_assoc, List.cons_append] at hafter
      obtain ⟨rfl, rfl⟩ := append_inj hsecond hauth hafter
      by_cases hothers : '\t' ∈ others
      · obtain ⟨third, fourth, rfl, hthird⟩ := exists_cut hothers
        rw [List.append_assoc, List.cons_append, cut_append hthird] at hpins
        exact Or.inr ⟨_, _, third, fourth, huser, huser₀, hsecond, hthird, hhost, hpins⟩
      · -- the third field ends with the address, which is no number
        have hend : '\t' ∉ others ++ address b := by
          rw [List.mem_append, not_or]
          exact ⟨hothers, haddress⟩
        rw [← List.append_assoc, cut_append hend] at hpins
        exact absurd (pinCount_at hpins) (by simp [address])
    · -- the third field is the kind of authentication
      have hend : '\t' ∉ user₁ ++ address b := by
        rw [List.mem_append, not_or]
        exact ⟨huser₁, haddress⟩
      rw [← List.append_assoc] at hafter
      obtain ⟨-, rfl⟩ := append_inj hend hauth hafter
      rw [afterEndpoint, cut_append (authLabel_tab b.auth), pinCount_authLabel] at hpins
      cases hpins
  · left
    have hend : '\t' ∉ b.sshUser.toList ++ address b := by
      rw [List.mem_append, not_or]
      exact ⟨huser, haddress⟩
    obtain ⟨-, hfields⟩ := append_inj hend hendpoint hfields
    obtain ⟨-, rfl⟩ := append_inj (authLabel_tab b.auth) hauth hfields
    refine ⟨huser, ?_⟩
    unfold pinCount at hpins
    split_ifs at hpins
    exact parseUsize_lt hpins

/-- The wizard is told of the right bastion if and only if no separator is in the name or the host
and no tab in the user, unless the user is itself laid out as a row for this host. -/
theorem bastionRow_tells_iff (name : String) (b : Bastion) : Tells name b ↔
    '\t' ∉ name.toList ∧ '\t' ∉ b.host.toList ∧ '@' ∉ b.host.toList ∧
      (('\t' ∉ b.sshUser.toList ∧ b.pinnedHostKeys.length < 2 ^ 64) ∨
        Forged b.sshUser.toList b.host.toList b.pinnedHostKeys.length) := by
  constructor
  · exact Tells.fields
  · rintro ⟨hname, hhost, hat, ⟨huser, hpins⟩ | huser⟩
    · exact tells_of_plain hname hhost hat huser hpins
    · exact tells_of_forged hname huser

/-- A name with a tab: the row cannot be read at all. -/
theorem bastionRow_tab_in_name : ¬ Tells "jump\tbox" ⟨"db.example.com", 22, "ops", .password "", []⟩ ∧
    parseBastionRow (Daemon.bastionRow "jump\tbox"
      ⟨"db.example.com", 22, "ops", .password "", []⟩) = none := by
  constructor
  · intro h
    exact h.fields.1 (by decide)
  · decide +kernel

end MiddleWhere.Ctl
