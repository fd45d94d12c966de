import MiddleWhere.Data.Separators
import MiddleWhere.Data.IpAddr
import MiddleWhere.Daemon.RegistryRuns

/-!
# The host the environments listen on

The host is read twice: by itself, to decide whether a token may cross it in clear, and with a
port behind it, to bind a listener. The second reading knows no names, and no IPv6 address out
of brackets.
-/

namespace MiddleWhere.Daemon
open IpAddr

/-- The daemon with the address readers of the standard library. -/
def DaemonDeps.withStdNet (deps : DaemonDeps) (showAddr : IpAddr.SocketAddr → String)
    (syntaxError : String) : DaemonDeps where
  __ := deps
  parseSocketAddr s := ((IpAddr.parseSocketAddr s).map showAddr).elim (.error syntaxError) .ok
  parsesLoopback host := ((parseIpAddr host).map Ip.isLoopback).getD false

/-! ## Numbers -/

theorem toDigit_ten {c : Char} (h : c.isDigit = true) :
    toDigit 10 c = some (c.toNat - '0'.toNat) := by
  have hc : '0' ≤ c ∧ c ≤ '9' := by
    simpa [Char.isDigit, Char.le_def] using h
  have hlt : c.toNat - '0'.toNat < 10 := by
    have := UInt32.le_iff_toNat_le.mp hc.2
    change c.toNat ≤ 57 at this
    change c.toNat - 48 < 10
    omega
  simp only [toDigit, if_pos hc, if_pos hlt]

theorem numberOf_ten {digits : List Char} (h : ∀ c ∈ digits, c.isDigit = true) :
    numberOf 10 digits = Nat.ofDigitChars 10 digits 0 := by
  unfold numberOf Nat.ofDigitChars
  apply List.foldl_ext
  intro n c hc
  rw [toDigit_ten (h c hc), Option.getD_some, Nat.mul_comm]

variable {host port text : List Char} {addr : IpAddr.SocketAddr}

theorem readNumber_portText (n : UInt16) :
    readNumber 10 none true 65536 (toString n.toNat).toList = some (n.toNat, []) := by
  have hdigits : ∀ c ∈ Nat.toDigits 10 n.toNat, c.isDigit = true := fun c hc =>
    Nat.isDigit_of_mem_toDigits (by decide) (by decide) hc
  have hall : ∀ c ∈ Nat.toDigits 10 n.toNat, isDigit 10 c = true := fun c hc => by
    rw [isDigit, toDigit_ten (hdigits c hc), Option.isSome_some]
  have htake : (Nat.toDigits 10 n.toNat).takeWhile (isDigit 10) = Nat.toDigits 10 n.toNat :=
    List.takeWhile_eq_self_iff.mpr hall
  have hdrop : (Nat.toDigits 10 n.toNat).dropWhile (isDigit 10) = [] :=
    List.dropWhile_eq_nil_iff.mpr hall
  have hlt : n.toNat < 65536 := n.toNat_lt
  have hne : (Nat.toDigits 10 n.toNat).isEmpty = false := by
    rw [List.isEmpty_eq_false_iff]
    exact Nat.toDigits_ne_nil
  rw [Nat.toString_eq_ofList_toDigits, String.toList_ofList]
  simp only [readNumber, htake, hdrop, hne, numberOf_ten hdigits, Nat.ofDigitChars_ten_toDigits, hlt]
  simp

/-- A number that is read to the end has nothing but digits. -/
theorem readNumber_whole {maxDigits : Option ℕ} {zero : Bool} {bound n : ℕ}
    (h : readNumber 10 maxDigits zero bound text = some (n, [])) : ':' ∉ text := by
  simp only [readNumber] at h
  split_ifs at h
  obtain ⟨-, hdrop⟩ := Prod.mk.inj (Option.some.inj h)
  intro hmem
  have hdigit := List.dropWhile_eq_nil_iff.mp hdrop ':' hmem
  exact absurd hdigit (by decide)

/-- A port at the end of a text is what is behind the last colon. -/
theorem port_split {front digits : List Char} (hport : ':' ∉ port) (hdigits : ':' ∉ digits)
    (h : host ++ ':' :: port = front ++ ':' :: digits) : host = front ∧ port = digits := by
  have hcut := congrArg (Separators.rcut ':') h
  rw [Separators.rcut_append _ hport, Separators.rcut_append _ hdigits] at hcut
  exact Prod.mk.inj (Option.some.inj hcut)

theorem readPort_portText (n : UInt16) :
    readPort (':' :: (toString n.toNat).toList) = some (n.toNat, []) := readNumber_portText n

theorem portText_colon (n : UInt16) : ':' ∉ (toString n.toNat).toList :=
  readNumber_whole (readNumber_portText n)

theorem readPort_whole {n : ℕ} (h : readPort text = some (n, [])) :
    ∃ digits, text = ':' :: digits ∧ ':' ∉ digits := by
  change (given ':' text).bind (fun p => readNumber 10 none true 65536 p.2) = some (n, []) at h
  obtain ⟨⟨_, digits⟩, hcolon, hnumber⟩ := Option.bind_eq_some_iff.mp h
  exact ⟨digits, given_eq_some_iff.mp hcolon, readNumber_whole hnumber⟩

/-! ## Addresses with a port -/

/-- The rest of a text that a reader leaves before a port is the port. -/
theorem rest_eq_port {used rest : List Char} {port : UInt16} {n : ℕ}
    (htext : host ++ ':' :: (toString port.toNat).toList = used ++ rest)
    (h : readPort rest = some (n, [])) :
    used = host ∧ rest = ':' :: (toString port.toNat).toList ∧ n = port.toNat := by
  obtain ⟨digits, rfl, hdigits⟩ := readPort_whole h
  obtain ⟨rfl, rfl⟩ := port_split (portText_colon port) hdigits htext
  rw [readPort_portText] at h
  cases h
  exact ⟨rfl, rfl, rfl⟩

theorem endsV4_port (port : List Char) : EndsV4 (':' :: port) := by
  intro c hc
  obtain rfl : ':' = c := by simpa using hc
  decide

theorem scanner_ipv4 : Scanner EndsV4 readIpv4Addr := scanner_readIpv4Addr fun _ h => h

theorem readSocketAddrV4_eq (text : List Char) : readSocketAddrV4 text =
    (readIpv4Addr text).bind fun p => (readPort p.2).bind fun q =>
      some ((⟨.v4 p.1, q.1, 0⟩ : IpAddr.SocketAddr), q.2) := rfl

theorem readSocketAddrV4_iff (port : UInt16) :
    readSocketAddrV4 (host ++ ':' :: (toString port.toNat).toList) = some (addr, []) ↔
      ∃ ip, whole readIpv4Addr host = some ip ∧ addr = ⟨.v4 ip, port.toNat, 0⟩ := by
  constructor
  · intro h
    rw [readSocketAddrV4_eq] at h
    obtain ⟨⟨ip, rest⟩, hip, h⟩ := Option.bind_eq_some_iff.mp h
    obtain ⟨⟨n, rest'⟩, hport, h⟩ := Option.bind_eq_some_iff.mp h
    cases h
    obtain ⟨used, hused⟩ := scanner_ipv4.suffix _ _ _ hip
    obtain ⟨rfl, rfl, rfl⟩ := rest_eq_port hused hport
    exact ⟨ip, scanner_ipv4.whole_of_append (endsV4_port _) hip, rfl⟩
  · rintro ⟨ip, hip, rfl⟩
    have hread := scanner_ipv4.append_of_whole (endsV4_port (toString port.toNat).toList) hip
    rw [readSocketAddrV4_eq, hread, Option.bind_some, readPort_portText, Option.bind_some]

/-- Nothing, or a scope id. -/
def ScopeText (scope : List Char) (id : ℕ) : Prop :=
  (scope = [] ∧ id = 0) ∨ whole readScopeId scope = some id

theorem endsV6_bracket (rest : List Char) : EndsV6 (']' :: rest) := by
  intro c hc
  obtain rfl : ']' = c := by simpa using hc
  decide

theorem endsV6_percent (rest : List Char) : EndsV6 ('%' :: rest) := by
  intro c hc
  obtain rfl : '%' = c := by simpa using hc
  decide

theorem readScopeId_percent {id : ℕ} {rest : List Char} (h : readScopeId text = some (id, rest)) :
    ∃ digits, text = '%' :: digits := by
  change (given '%' text).bind (fun p => readNumber 10 none true (2 ^ 32) p.2) = some (id, rest) at h
  obtain ⟨⟨_, digits⟩, hpercent, -⟩ := Option.bind_eq_some_iff.mp h
  exact ⟨digits, given_eq_some_iff.mp hpercent⟩

/-- What an optional scope id takes before the bracket. -/
theorem scope_iff {id : ℕ} {rest : List Char} :
    (readScopeId <|> return 0 : Decoder Char ℕ) text = some (id, ']' :: rest) ↔
      ∃ scope, text = scope ++ ']' :: rest ∧ ScopeText scope id := by
  have hends : ∀ c, (']' :: rest).head? = some c → c = ']' := by simp [eq_comm]
  constructor
  · intro h
    change (readScopeId text <|> some (0, text)) = some (id, ']' :: rest) at h
    cases hread : readScopeId text with
    | none =>
      rw [hread] at h
      cases h
      exact ⟨[], rfl, Or.inl ⟨rfl, rfl⟩⟩
    | some p =>
      rw [hread] at h
      cases h
      obtain ⟨scope, rfl⟩ := scanner_readScopeId.suffix _ _ _ hread
      exact ⟨scope, rfl, Or.inr (scanner_readScopeId.whole_of_append hends hread)⟩
  · rintro ⟨scope, rfl, ⟨rfl, rfl⟩ | hscope⟩
    · rfl
    · have hread := scanner_readScopeId.append_of_whole hends hscope
      change (readScopeId (scope ++ ']' :: rest) <|> some (0, _)) = some (id, ']' :: rest)
      rw [hread]
      rfl

theorem endsV6_scope {scope : List Char} {id : ℕ} (h : ScopeText scope id) (rest : List Char) :
    EndsV6 (scope ++ ']' :: rest) := by
  obtain ⟨rfl, -⟩ | h := h
  · exact endsV6_bracket rest
  · obtain ⟨digits, rfl⟩ := readScopeId_percent (whole_eq_some_iff.mp h)
    exact endsV6_percent _

/-- The host is this address in brackets. -/
def Bracketed (host : List Char) (ip : Ipv6Addr) (id : ℕ) : Prop :=
  ∃ text scope, host = '[' :: (text ++ (scope ++ [']'])) ∧ whole readIpv6Addr text = some ip ∧
    ScopeText scope id

theorem readSocketAddrV6_eq (text : List Char) : readSocketAddrV6 text =
    (given '[' text).bind fun p => (readIpv6Addr p.2).bind fun q =>
      ((readScopeId <|> return 0 : Decoder Char ℕ) q.2).bind fun s => (given ']' s.2).bind fun t =>
        (readPort t.2).bind fun u =>
          some ((⟨.v6 q.1, u.1, s.1⟩ : IpAddr.SocketAddr), u.2) := rfl

theorem readSocketAddrV6_iff (port : UInt16) :
    readSocketAddrV6 (host ++ ':' :: (toString port.toNat).toList) = some (addr, []) ↔
      ∃ ip id, Bracketed host ip id ∧ addr = ⟨.v6 ip, port.toNat, id⟩ := by
  constructor
  · intro h
    rw [readSocketAddrV6_eq] at h
    obtain ⟨⟨_, inner⟩, hopen, h⟩ := Option.bind_eq_some_iff.mp h
    obtain ⟨⟨ip, rest⟩, hip, h⟩ := Option.bind_eq_some_iff.mp h
    obtain ⟨⟨id, close⟩, hscope, h⟩ := Option.bind_eq_some_iff.mp h
    obtain ⟨⟨_, last⟩, hclose, h⟩ := Option.bind_eq_some_iff.mp h
    obtain ⟨⟨n, rest'⟩, hport, h⟩ := Option.bind_eq_some_iff.mp h
    cases h
    obtain rfl := given_eq_some_iff.mp hclose
    obtain ⟨scope, rfl, hid⟩ := scope_iff.mp hscope
    obtain ⟨text, rfl⟩ := scanner_readIpv6Addr.suffix _ _ _ hip
    have htext : host ++ ':' :: (toString port.toNat).toList =
        ('[' :: (text ++ (scope ++ [']']))) ++ last := by
      rw [given_eq_some_iff.mp hopen]
      simp
    obtain ⟨hhost, rfl, rfl⟩ := rest_eq_port htext hport
    exact ⟨ip, id, ⟨text, scope, hhost.symm,
      scanner_readIpv6Addr.whole_of_append (endsV6_scope hid _) hip, hid⟩, rfl⟩
  · rintro ⟨ip, id, ⟨text, scope, rfl, hip, hid⟩, rfl⟩
    have hread := scanner_readIpv6Addr.append_of_whole
      (endsV6_scope hid (':' :: (toString port.toNat).toList)) hip
    have hscope : (readScopeId <|> return 0 : Decoder Char ℕ)
        (scope ++ ']' :: ':' :: (toString port.toNat).toList) =
          some (id, ']' :: ':' :: (toString port.toNat).toList) := scope_iff.mpr ⟨scope, rfl, hid⟩
    have htext : '[' :: (text ++ (scope ++ [']'])) ++ ':' :: (toString port.toNat).toList =
        '[' :: (text ++ (scope ++ ']' :: ':' :: (toString port.toNat).toList)) := by simp
    rw [htext, readSocketAddrV6_eq, given_cons, Option.bind_some, hread, Option.bind_some, hscope, Option.bind_some, given_cons,
      Option.bind_some, readPort_portText, Option.bind_some]

theorem readIpv4Addr_bracket (rest : List Char) : readIpv4Addr ('[' :: rest) = none := rfl

theorem readIpv6Addr_bracket (rest : List Char) : readIpv6Addr ('[' :: rest) = none := by
  rfl

/-- The texts that a host and a port make an address of. -/
theorem parseSocketAddr_iff (host : String) (port : UInt16) :
    parseSocketAddr (host ++ ":" ++ toString port.toNat) = some addr ↔
      (∃ ip, whole readIpv4Addr host.toList = some ip ∧ addr = ⟨.v4 ip, port.toNat, 0⟩) ∨
        ∃ ip id, Bracketed host.toList ip id ∧ addr = ⟨.v6 ip, port.toNat, id⟩ := by
  have htext : (host ++ ":" ++ toString port.toNat).toList =
      host.toList ++ ':' :: (toString port.toNat).toList := by simp
  rw [parseSocketAddr, htext, whole_eq_some_iff, ← readSocketAddrV4_iff, ← readSocketAddrV6_iff]
  change (readSocketAddrV4 _ <|> readSocketAddrV6 _) = some (addr, []) ↔ _
  cases hv4 : readSocketAddrV4 (host.toList ++ ':' :: (toString port.toNat).toList) with
  | none => simp
  | some p =>
    have hv6 : ¬ readSocketAddrV6 (host.toList ++ ':' :: (toString port.toNat).toList) =
        some (addr, []) := by
      intro h
      obtain ⟨ip, id, ⟨text, scope, hhost, -⟩, -⟩ := (readSocketAddrV6_iff port).mp h
      rw [hhost, List.cons_append] at hv4
      cases hv4
    constructor
    · exact Or.inl
    · exact fun h => h.resolve_right hv6

/-! ## The two readings -/

variable {deps : DaemonDeps} {showAddr : IpAddr.SocketAddr → String} {syntaxError : String}

theorem parseIpAddr_v4_iff {host : String} {ip : Ipv4Addr} :
    parseIpAddr host = some (.v4 ip) ↔ whole readIpv4Addr host.toList = some ip := by
  rw [parseIpAddr, whole_eq_some_iff, whole_eq_some_iff]
  change (((readIpv4Addr host.toList).bind fun p => some (Ip.v4 p.1, p.2)) <|>
    (readIpv6Addr host.toList).bind fun p => some (Ip.v6 p.1, p.2)) = some (.v4 ip, []) ↔ _
  cases readIpv4Addr host.toList with
  | none => cases readIpv6Addr host.toList <;> simp
  | some p => simp [Prod.ext_iff]

theorem parseIpAddr_bracket {host : String} {rest : List Char} (h : host.toList = '[' :: rest) :
    parseIpAddr host = none := by
  rw [parseIpAddr, h]
  rfl

theorem isLoopbackHost_iff (host : String) :
    isLoopbackHost (deps.withStdNet showAddr syntaxError) host = true ↔
      host = "localhost" ∨ ∃ ip, parseIpAddr host = some ip ∧ ip.isLoopback = true := by
  have hv4 : parseIpAddr "127.0.0.1" = some (.v4 ⟨[127, 0, 0, 1]⟩) := by decide +kernel
  have hv6 : parseIpAddr "::1" = some (.v6 ⟨[0, 0, 0, 0, 0, 0, 0, 1]⟩) := by decide +kernel
  have hparses : (deps.withStdNet showAddr syntaxError).parsesLoopback host = true ↔
      ∃ ip, parseIpAddr host = some ip ∧ ip.isLoopback = true := by
    change ((parseIpAddr host).map Ip.isLoopback).getD false = true ↔ _
    cases parseIpAddr host <;> simp
  simp only [isLoopbackHost, Bool.or_eq_true, beq_iff_eq, hparses]
  constructor
  · rintro (((rfl | rfl) | rfl) | h)
    · exact Or.inr ⟨_, hv4, by decide⟩
    · exact Or.inr ⟨_, hv6, by decide⟩
    · exact Or.inl rfl
    · exact Or.inr h
  · rintro (rfl | h)
    · exact Or.inl (Or.inr rfl)
    · exact Or.inr h

/-- The listen address of this host and port parses, and is on the loopback. -/
def ListensOnLoopback (host : String) (port : UInt16) : Prop :=
  ∃ addr, parseSocketAddr (host ++ ":" ++ toString port.toNat) = some addr ∧ addr.ip.isLoopback = true

/-- An address that is bound under the gate is a loopback address. -/
theorem bound_isLoopback {host : String} {port : UInt16}
    (hgate : isLoopbackHost (deps.withStdNet showAddr syntaxError) host = true)
    (hparse : parseSocketAddr (host ++ ":" ++ toString port.toNat) = some addr) :
    addr.ip.isLoopback = true := by
  obtain ⟨ip, hip, rfl⟩ | ⟨ip, id, ⟨text, scope, hhost, -⟩, rfl⟩ := (parseSocketAddr_iff host port).mp hparse
  · obtain rfl | ⟨ip', hip', hloop⟩ := (isLoopbackHost_iff host).mp hgate
    · have hname : whole readIpv4Addr "localhost".toList = none := by decide +kernel
      rw [hname] at hip
      cases hip
    · rw [parseIpAddr_v4_iff.mpr hip] at hip'
      cases hip'
      exact hloop
  · obtain rfl | ⟨ip', hip', -⟩ := (isLoopbackHost_iff host).mp hgate
    · exact absurd hhost (by simp)
    · rw [parseIpAddr_bracket hhost] at hip'
      cases hip'

/-- A loopback host that is not an IPv4 address: a name, a bare IPv6 address, or one in brackets. -/
inductive OneSided (host : String) : Prop
  | name (h : host = "localhost")
  | bare (ip : Ipv6Addr) (h : parseIpAddr host = some (.v6 ip)) (hloop : (Ip.v6 ip).isLoopback = true)
  | bracketed (ip : Ipv6Addr) (id : ℕ) (h : Bracketed host.toList ip id)
      (hloop : (Ip.v6 ip).isLoopback = true)

theorem listensOnLoopback_iff (host : String) (port : UInt16) : ListensOnLoopback host port ↔
    (∃ ip, parseIpAddr host = some (.v4 ip) ∧ (Ip.v4 ip).isLoopback = true) ∨
      ∃ ip id, Bracketed host.toList ip id ∧ (Ip.v6 ip).isLoopback = true := by
  simp only [ListensOnLoopback, parseSocketAddr_iff, parseIpAddr_v4_iff]
  constructor
  · rintro ⟨addr, ⟨ip, hip, rfl⟩ | ⟨ip, id, hip, rfl⟩, hloop⟩
    · exact Or.inl ⟨ip, hip, hloop⟩
    · exact Or.inr ⟨ip, id, hip, hloop⟩
  · rintro (⟨ip, hip, hloop⟩ | ⟨ip, id, hip, hloop⟩)
    · exact ⟨_, Or.inl ⟨ip, hip, rfl⟩, hloop⟩
    · exact ⟨_, Or.inr ⟨ip, id, hip, rfl⟩, hloop⟩

/-- The gate and the listen address agree about a host if and only if it is no loopback name and
no IPv6 loopback address, with brackets or without. -/
theorem listenHost_agree_iff (deps : DaemonDeps) (showAddr : IpAddr.SocketAddr → String)
    (syntaxError : String) (host : String) (port : UInt16) :
    (isLoopbackHost (deps.withStdNet showAddr syntaxError) host = true ↔
      ListensOnLoopback host port) ↔ ¬ OneSided host := by
  rw [isLoopbackHost_iff, listensOnLoopback_iff]
  constructor
  · rintro hagree (rfl | ⟨ip, hip, hloop⟩ | ⟨ip, id, ⟨text, scope, hhost, hip⟩, hloop⟩)
    · have hname : parseIpAddr "localhost" = none := by decide +kernel
      obtain ⟨ip, hip, -⟩ | ⟨ip, id, ⟨text, scope, hhost, -⟩, -⟩ := hagree.mp (Or.inl rfl)
      · rw [hname] at hip
        cases hip
      · exact absurd hhost (by simp)
    · obtain ⟨ip', hip', -⟩ | ⟨ip', id, ⟨text, scope, hhost, -⟩, -⟩ :=
        hagree.mp (Or.inr ⟨_, hip, hloop⟩)
      · rw [hip] at hip'
        cases hip'
      · rw [parseIpAddr_bracket hhost] at hip
        cases hip
    · obtain rfl | ⟨ip', hip', -⟩ := hagree.mpr (Or.inr ⟨ip, id, ⟨text, scope, hhost, hip⟩, hloop⟩)
      · exact absurd hhost (by simp)
      · rw [parseIpAddr_bracket hhost] at hip'
        cases hip'
  · intro hnot
    constructor
    · rintro (rfl | ⟨ip | ip, hip, hloop⟩)
      · exact absurd (.name rfl) hnot
      · exact Or.inl ⟨ip, hip, hloop⟩
      · exact absurd (.bare ip hip hloop) hnot
    · rintro (⟨ip, hip, hloop⟩ | ⟨ip, id, hip, hloop⟩)
      · exact Or.inr ⟨_, hip, hloop⟩
      · exact absurd (.bracketed ip id hip hloop) hnot

/-- The gate lets the name pass, and no listener can be bound to it. -/
theorem listenHost_localhost :
    isLoopbackHost ((sampleDaemon []).withStdNet (fun _ => "") "invalid socket address syntax")
        "localhost" = true ∧ ¬ ListensOnLoopback "localhost" 6432 ∧
      parseSocketAddr "localhost:6432" = none := by
  have hparse : parseSocketAddr ("localhost" ++ ":" ++ toString (6432 : UInt16).toNat) = none := by
    decide +kernel
  refine ⟨by decide +kernel, ?_, hparse⟩
  rintro ⟨addr, haddr, -⟩
  rw [hparse] at haddr
  cases haddr

end MiddleWhere.Daemon
