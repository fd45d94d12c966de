import MiddleWhere.Data.Scan

/-!
# Texts of IP addresses

The readers of addresses in the standard library, over characters: no character outside ASCII is
part of an address. A reader that fails takes nothing.
-/

namespace MiddleWhere.IpAddr

def toDigit (radix : ℕ) (c : Char) : Option ℕ :=
  let digit :=
    if '0' ≤ c ∧ c ≤ '9' then c.toNat - '0'.toNat
    else if 'a' ≤ c ∧ c ≤ 'z' then c.toNat - 'a'.toNat + 10
    else if 'A' ≤ c ∧ c ≤ 'Z' then c.toNat - 'A'.toNat + 10
    else radix
  if digit < radix then some digit else none

def isDigit (radix : ℕ) (c : Char) : Bool := (toDigit radix c).isSome

def numberOf (radix : ℕ) (digits : List Char) : ℕ :=
  digits.foldl (fun n c => n * radix + (toDigit radix c).getD 0) 0

/-- All the digits there are; the number has to be below `bound`. -/
def readNumber (radix : ℕ) (maxDigits : Option ℕ) (allowZeroPrefix : Bool) (bound : ℕ) :
    Decoder Char ℕ := fun text =>
  let digits := text.takeWhile (isDigit radix)
  if digits.isEmpty then none
  else if maxDigits.any (· < digits.length) then none
  else if !allowZeroPrefix && digits.head? = some '0' && 1 < digits.length then none
  else if numberOf radix digits < bound then
    some (numberOf radix digits, text.dropWhile (isDigit radix))
  else none

def readSeparator {α : Type} (sep : Char) (index : ℕ) (inner : Decoder Char α) : Decoder Char α :=
  if 0 < index then (do given sep; inner) else inner

structure Ipv4Addr where
  octets : List ℕ
deriving DecidableEq

def octet (index : ℕ) : Decoder Char ℕ := readSeparator '.' index (readNumber 10 (some 3) false 256)

def readIpv4Addr : Decoder Char Ipv4Addr := do
  let a ← octet 0
  let b ← octet 1
  let c ← octet 2
  let d ← octet 3
  return ⟨[a, b, c, d]⟩

/-- The octets, two to a group. -/
def Ipv4Addr.groups (ip : Ipv4Addr) : List ℕ :=
  [256 * ip.octets.getD 0 0 + ip.octets.getD 1 0, 256 * ip.octets.getD 2 0 + ip.octets.getD 3 0]

structure Ipv6Addr where
  groups : List ℕ
deriving DecidableEq

/-- Groups for the slots that are left of `limit`, with whether the last two come from an IPv4
address. Running out of groups is no failure. -/
def readGroups (limit : ℕ) : ℕ → Decoder Char (List ℕ × Bool)
  | 0 => return ([], false)
  | left + 1 =>
    (if 0 < left then do
      let v4 ← readSeparator ':' (limit - (left + 1)) readIpv4Addr
      return (v4.groups, true)
    else failure) <|>
    (do
      let group ← readSeparator ':' (limit - (left + 1)) (readNumber 16 (some 4) true 65536)
      let (groups, ipv4) ← readGroups limit left
      return (group :: groups, ipv4)) <|>
    return ([], false)

def readIpv6Addr : Decoder Char Ipv6Addr := do
  let (head, headIpv4) ← readGroups 8 8
  if head.length = 8 then return ⟨head⟩
  else if headIpv4 then failure
  else
    given ':'
    given ':'
    let limit := 8 - (head.length + 1)
    let (tail, _) ← readGroups limit limit
    return ⟨head ++ List.replicate (8 - head.length - tail.length) 0 ++ tail⟩

inductive Ip
  | v4 (ip : Ipv4Addr)
  | v6 (ip : Ipv6Addr)
deriving DecidableEq

def readIpAddr : Decoder Char Ip := (Ip.v4 <$> readIpv4Addr) <|> (Ip.v6 <$> readIpv6Addr)

def readPort : Decoder Char ℕ := do
  given ':'
  readNumber 10 none true 65536

def readScopeId : Decoder Char ℕ := do
  given '%'
  readNumber 10 none true (2 ^ 32)

structure SocketAddr where
  ip : Ip
  port : ℕ
  scopeId : ℕ
deriving DecidableEq

def readSocketAddrV4 : Decoder Char SocketAddr := do
  let ip ← readIpv4Addr
  let port ← readPort
  return ⟨.v4 ip, port, 0⟩

def readSocketAddrV6 : Decoder Char SocketAddr := do
  given '['
  let ip ← readIpv6Addr
  let scopeId ← readScopeId <|> return 0
  given ']'
  let port ← readPort
  return ⟨.v6 ip, port, scopeId⟩

def readSocketAddr : Decoder Char SocketAddr := readSocketAddrV4 <|> readSocketAddrV6

/-- `parse::<IpAddr>` -/
def parseIpAddr (s : String) : Option Ip := whole readIpAddr s.toList

/-- `parse::<SocketAddr>` -/
def parseSocketAddr (s : String) : Option SocketAddr := whole readSocketAddr s.toList

def Ip.isLoopback : Ip → Bool
  | .v4 ip => ip.octets.head? = some 127
  | .v6 ip => ip.groups = [0, 0, 0, 0, 0, 0, 0, 1]

example : parseIpAddr "::1" = some (.v6 ⟨[0, 0, 0, 0, 0, 0, 0, 1]⟩) := by decide +kernel
example : parseIpAddr "1::127.0.0.1" = some (.v6 ⟨[1, 0, 0, 0, 0, 0, 32512, 1]⟩) := by decide +kernel
example : parseIpAddr "127.0.0.01" = none := by decide +kernel
example : parseIpAddr "1:2:3:4:5:6:7:8" = some (.v6 ⟨[1, 2, 3, 4, 5, 6, 7, 8]⟩) := by decide +kernel
example : parseIpAddr "1:2:3:4:5:6:7::" = some (.v6 ⟨[1, 2, 3, 4, 5, 6, 7, 0]⟩) := by decide +kernel
example : parseIpAddr "1:2:3:4:5:6:7:8::" = none := by decide +kernel
example : parseSocketAddr "[::1%3]:6432" = some ⟨.v6 ⟨[0, 0, 0, 0, 0, 0, 0, 1]⟩, 6432, 3⟩ := by decide +kernel

/-! ## What the readers look at -/

/-- The tail begins with no digit of the radix and no dot. -/
def EndsV4 (tail : List Char) : Prop := ∀ c, tail.head? = some c → isDigit 10 c = false ∧ c ≠ '.'

def EndsV6 (tail : List Char) : Prop :=
  ∀ c, tail.head? = some c → isDigit 16 c = false ∧ isDigit 10 c = false ∧ c ≠ '.' ∧ c ≠ ':'

variable {stop : List Char → Prop}

theorem scanner_readNumber {radix : ℕ} (maxDigits : Option ℕ) (allowZeroPrefix : Bool) (bound : ℕ)
    (h : ∀ tail, stop tail → ∀ c, tail.head? = some c → isDigit radix c = false) :
    Scanner stop (readNumber radix maxDigits allowZeroPrefix bound) where
  blind text tail htail := by
    obtain ⟨htake, hdrop⟩ := takeWhile_append_of_head text (h tail htail)
    simp only [readNumber, htake, hdrop]
    split_ifs <;> rfl
  suffix text n rest hrun := by
    refine ⟨text.takeWhile (isDigit radix), ?_⟩
    simp only [readNumber] at hrun
    split_ifs at hrun
    obtain ⟨-, rfl⟩ := Prod.mk.inj (Option.some.inj hrun)
    exact (List.takeWhile_append_dropWhile).symm

theorem scanner_readSeparator {α : Type} {sep : Char} (index : ℕ) {inner : Decoder Char α}
    (hsep : ∀ tail, stop tail → tail.head? ≠ some sep) (h : Scanner stop inner) :
    Scanner stop (readSeparator sep index inner) := by
  unfold readSeparator
  split_ifs
  · exact (scanner_given hsep).bind fun _ => h
  · exact h

theorem scanner_readIpv4Addr (h : ∀ tail, stop tail → EndsV4 tail) : Scanner stop readIpv4Addr := by
  have hoctet : ∀ index, Scanner stop (octet index) := by
    intro index
    apply scanner_readSeparator
    · intro tail htail hdot
      exact (h tail htail '.' hdot).2 rfl
    · exact scanner_readNumber _ _ _ fun tail htail c hc => (h tail htail c hc).1
  exact (hoctet 0).bind fun _ => (hoctet 1).bind fun _ => (hoctet 2).bind fun _ =>
    (hoctet 3).bind fun _ => .pure _

theorem scanner_readGroups (limit left : ℕ) : Scanner EndsV6 (readGroups limit left) := by
  have hcolon : ∀ tail, EndsV6 tail → tail.head? ≠ some ':' := fun tail htail hc =>
    (htail ':' hc).2.2.2 rfl
  induction left with
  | zero => exact .pure _
  | succ left ih =>
    have hv4 : Scanner EndsV6 readIpv4Addr := scanner_readIpv4Addr fun tail htail c hc =>
      ⟨(htail c hc).2.1, (htail c hc).2.2.1⟩
    have hgroup : Scanner EndsV6 (readNumber 16 (some 4) true 65536) :=
      scanner_readNumber _ _ _ fun tail htail c hc => (htail c hc).1
    rw [readGroups]
    apply Scanner.orElse
    · split_ifs
      · exact (scanner_readSeparator _ hcolon hv4).bind fun _ => .pure _
      · exact .failure
    · apply Scanner.orElse
      · exact (scanner_readSeparator _ hcolon hgroup).bind fun _ => ih.bind fun _ => .pure _
      · exact .pure _

theorem scanner_readIpv6Addr : Scanner EndsV6 readIpv6Addr := by
  have hcolon : Scanner EndsV6 (given ':') := scanner_given fun tail htail hc =>
    (htail ':' hc).2.2.2 rfl
  refine (scanner_readGroups 8 8).bind fun p => ?_
  obtain ⟨head, ipv4⟩ := p
  dsimp only
  split_ifs
  · exact .pure _
  · exact .failure
  · exact hcolon.bind fun _ => hcolon.bind fun _ => (scanner_readGroups _ _).bind fun _ => .pure _

theorem scanner_readScopeId : Scanner (fun tail => ∀ c, tail.head? = some c → c = ']') readScopeId := by
  refine (scanner_given fun tail htail hc => ?_).bind fun _ => scanner_readNumber _ _ _ ?_
  · exact absurd (htail '%' hc) (by decide)
  · intro tail htail c hc
    rw [htail c hc]
    rfl

end MiddleWhere.IpAddr
