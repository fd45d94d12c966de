import MiddleWhere.Net.MysqlClient
import MiddleWhere.Net.MysqlSafe

/-!
# Rows read back

A row is the concatenation of its cells, each NULL or a text after its length. The length is
written in one of four ways, and the first byte tells which; it is also the byte by which a
client tells a row from an ERR and from the OK that ends the rows.
-/

namespace MiddleWhere.Net
open Prog

/-! ## Length-encoded integers -/

/-- `buf.get(i..j)` -/
def getRange (buf : Bytes) (i j : ℕ) : Option Bytes :=
  if j ≤ buf.length then some ((buf.drop i).take (j - i)) else none

/-- `for (i, byte) in b.iter().enumerate() { v |= (*byte as u64) << (i * 8); }` -/
def orBytes : Bytes → ℕ → ℕ → ℕ
  | [], _, v => v
  | byte :: b, i, v => orBytes b (i + 1) (v ||| byte.toNat <<< (i * 8))

/-- The value and how many bytes it took. -/
def readLenencInt (buf : Bytes) : Option (ℕ × ℕ) := do
  let first ← buf.head?
  if first ≤ 0xFA then some (first.toNat, 1)
  else if first = 0xFB then none
  else if first = 0xFC then
    let b ← getRange buf 1 3
    some (fromLe b, 3)
  else if first = 0xFD then
    let b ← getRange buf 1 4
    some (orBytes b 0 0, 4)
  else if first = 0xFE then
    let b ← getRange buf 1 9
    some (orBytes b 0 0, 9)
  else none

theorem getRange_tail {first : UInt8} {b rest : Bytes} {j : ℕ} (h : b.length + 1 = j) :
    getRange (first :: (b ++ rest)) 1 j = some b := by
  subst h
  unfold getRange
  rw [if_pos (by simp), List.drop_succ_cons, List.drop_zero, Nat.add_sub_cancel, List.take_left]

/-- The bytes fill bits that are still clear. -/
theorem orBytes_eq {b : Bytes} {i v : ℕ} (h : v < 2 ^ (i * 8)) :
    orBytes b i v = v + 2 ^ (i * 8) * fromLe b := by
  induction b generalizing i v with
  | nil => simp [orBytes, fromLe]
  | cons byte b ih =>
    have hbyte := byte.toNat_lt
    have hor : v ||| byte.toNat <<< (i * 8) = v + 2 ^ (i * 8) * byte.toNat := by
      rw [Nat.or_comm, ← Nat.shiftLeft_add_eq_or_of_lt h, Nat.shiftLeft_eq]
      ring
    have hpow : 2 ^ ((i + 1) * 8) = 2 ^ (i * 8) * 256 := by
      rw [Nat.add_mul, one_mul, pow_add]
      rfl
    have hnext : v + 2 ^ (i * 8) * byte.toNat < 2 ^ ((i + 1) * 8) := by
      calc v + 2 ^ (i * 8) * byte.toNat
          < 2 ^ (i * 8) + 2 ^ (i * 8) * byte.toNat := Nat.add_lt_add_right h _
        _ = 2 ^ (i * 8) * (byte.toNat + 1) := by ring
        _ ≤ 2 ^ (i * 8) * 256 := Nat.mul_le_mul_left _ (by omega)
        _ = 2 ^ ((i + 1) * 8) := hpow.symm
    have hfrom : fromLe (byte :: b) = byte.toNat + 256 * fromLe b := rfl
    rw [orBytes, hor, ih hnext, hpow, hfrom]
    ring

theorem orBytes_le {w n : ℕ} (h : n < 2 ^ (8 * w)) : orBytes (le w n) 0 0 = n := by
  rw [orBytes_eq (by decide), fromLe_le h]
  simp

/-- A number is read back whatever follows it, with its own length. -/
theorem readLenencInt_write {v : ℕ} (h : v < 2 ^ 64) (rest : Bytes) :
    readLenencInt (writeLenencInt v ++ rest) = some (v, (writeLenencInt v).length) := by
  unfold writeLenencInt
  by_cases h1 : v < 0xFB
  · have hbyte : (UInt8.ofNat v).toNat = v := UInt8.toNat_ofNat_of_lt' (h1.trans (by decide))
    have hsmall : UInt8.ofNat v ≤ 0xFA := by
      rw [UInt8.le_iff_toNat_le, hbyte]
      exact Nat.le_of_lt_succ h1
    rw [if_pos h1]
    simp only [readLenencInt, List.singleton_append, List.head?_cons, Option.bind_eq_bind,
      Option.bind_some, if_pos hsmall, hbyte, List.length_singleton]
  rw [if_neg h1]
  by_cases h2 : v < 2 ^ 16
  · have hrange : getRange (0xFC :: (le 2 v ++ rest)) 1 3 = some (le 2 v) := getRange_tail rfl
    have hvalue : fromLe (le 2 v) = v := fromLe_le h2
    rw [if_pos h2, List.cons_append]
    simp [readLenencInt, hrange, hvalue, le_length]
  rw [if_neg h2]
  by_cases h3 : v < 2 ^ 24
  · have hrange : getRange (0xFD :: (le 3 v ++ rest)) 1 4 = some (le 3 v) := getRange_tail rfl
    have hvalue : orBytes (le 3 v) 0 0 = v := orBytes_le h3
    rw [if_pos h3, List.cons_append]
    simp [readLenencInt, hrange, hvalue, le_length]
  · have hrange : getRange (0xFE :: (le 8 v ++ rest)) 1 9 = some (le 8 v) := getRange_tail rfl
    have hvalue : orBytes (le 8 v) 0 0 = v := orBytes_le h
    rw [if_neg h3, List.cons_append]
    simp [readLenencInt, hrange, hvalue, le_length]

/-! ## What the framing accepts -/

/-- However the socket answers, a packet that goes out is short enough. -/
theorem length_lt_of_writePacket {seq next : SequenceCounter} {payload : Bytes}
    {t : List (Event sessionSig)}
    (h : Exec (Sem.free sessionSig) (writePacket seq payload) () t (.ok next) ()) :
    payload.length < maxPayload := by
  by_contra hlong
  unfold writePacket at h
  rw [if_pos (not_lt.mp hlong)] at h
  obtain ⟨-, heq, -⟩ := exec_halt_iff.mp h
  cases heq

/-! ## Rows -/

/-- Lengths are words of 64 bits, as every length of a byte string is. -/
theorem rowTextPacket_lossless (deps : SessionDeps) :
    (∀ (v : UInt64) (rest : Bytes), readLenencInt (writeLenencInt v.toNat ++ rest) =
      some (v.toNat, (writeLenencInt v.toNat).length)) ∧
    ∀ row : Row, (∀ v ∈ row, ∀ text ∈ v.view deps, text.length < 2 ^ 64) →
      ∃ packet, (rowTextPacket deps row : Outcome FramingError Bytes) = .ok packet ∧
        whole (repeatN cell row.length) packet = some (row.view deps) ∧
        (row ≠ [] → ∀ seq t next,
          Exec (Sem.free sessionSig) (writePacket seq packet) () t (.ok next) () →
            packet.head? ≠ some 0xFF ∧ packet.head? ≠ some 0xFE) := by
  refine ⟨fun v rest => readLenencInt_write v.toNat_lt rest, ?_⟩
  intro row hword
  refine ⟨rowText deps row, rowTextPacket_eq deps row, (reads_row_of_word hword).whole, ?_⟩
  intro hne seq t next hwrite
  exact rowText_head deps hne (length_lt_of_writePacket hwrite)

/-- NULL, the empty text and a byte that would end the rows. -/
theorem rowTextPacket_lossless_sample :
    ∃ packet, (rowTextPacket sampleDeps [.null, .bytes [], .bytes [0xFE]] :
        Outcome FramingError Bytes) = .ok packet ∧
      whole (repeatN cell 3) packet = some [none, some [], some [0xFE]] := by
  obtain ⟨packet, hok, hread, -⟩ :=
    (rowTextPacket_lossless sampleDeps).2 [.null, .bytes [], .bytes [0xFE]]
      (by simp [Value.view])
  exact ⟨packet, hok, hread⟩

end MiddleWhere.Net
