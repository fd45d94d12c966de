import MiddleWhere.Effects.Eval
import MiddleWhere.Net.MysqlClient
import MiddleWhere.Net.PgFrames
import MiddleWhere.Net.PgHandshake

/-!
# A client on the other end of the socket

A client is what it has sent as a function of what it has received. Over a socket that
carries every byte in order, a handshake has one execution, and these lemmas compute its
reads and writes.
-/

namespace MiddleWhere.Net
open Prog

/-- All that the client has sent once it has received so much. -/
abbrev Client := Bytes → Bytes

/-- What the client has received, and how much of what it sent has been read. -/
structure Wire where
  received : Bytes := []
  taken : ℕ := 0

/-- The socket carries everything; `random` is what the random generator fills in. The
backend and the firewall are not reached. -/
def wireAnswer (client : Client) (random : Bytes) : Answerer sessionSig Wire
  | s, .recv n =>
    let waiting := (client s.received).drop s.taken
    if n ≤ waiting.length then (.ok (waiting.take n), { s with taken := s.taken + n })
    else (.error .eof, s)
  | s, .write bytes => (.ok (), { s with received := s.received ++ bytes })
  | s, .flush => (.ok (), s)
  | s, .fillBytes n => (random.take n, s)
  | s, .evaluate _ => (.deny "", s)
  | s, .emit _ => ((), s)
  | s, .poolGet => (.error "", s)
  | s, .poolPut _ => ((), s)
  | s, .queryIter _ _ => (.error "", s)
  | s, .rows _ => (([], none), s)
  | s, .dropResult _ => (.ok (), s)
  | s, .simpleQuery _ _ => (.error "", s)
  | s, .prepare _ _ => (.error "", s)

variable {client : Client} {random : Bytes} {s : Wire}

/-- What the client has sent and has not been read begins with `bytes`. -/
def Wire.Ready (client : Client) (s : Wire) (bytes : Bytes) : Prop :=
  bytes <+: (client s.received).drop s.taken

theorem Wire.Ready.front {front back : Bytes} (h : s.Ready client (front ++ back)) :
    s.Ready client front :=
  (List.prefix_append front back).trans h

theorem Wire.Ready.back {front back : Bytes} (h : s.Ready client (front ++ back)) :
    Wire.Ready client { s with taken := s.taken + front.length } back := by
  obtain ⟨rest, hrest⟩ := h
  refine ⟨rest, ?_⟩
  dsimp only
  rw [← List.drop_drop, ← hrest, List.append_assoc, List.drop_left]

theorem wireAnswer_recv {bytes : Bytes} {n : ℕ} (hn : bytes.length = n)
    (h : s.Ready client bytes) :
    wireAnswer client random s (.recv n) = (.ok bytes, { s with taken := s.taken + n }) := by
  subst hn
  have htake := List.prefix_iff_eq_take.mp h
  have hlen := h.length_le
  simp only [wireAnswer]
  rw [if_pos hlen, ← htake]

/-! ## MySQL packets -/

theorem eval_recvExact {what : String} {bytes : Bytes} {n : ℕ} (hn : bytes.length = n)
    (h : s.Ready client bytes) :
    (recvExact what n).eval (wireAnswer client random) s =
      (.ok bytes, { s with taken := s.taken + n }) := by
  unfold recvExact ask perform
  simp only [bind_eq, call_bind, halt_ok_bind, eval_call]
  rw [wireAnswer_recv hn h]
  rfl

theorem headerLength {n : ℕ} (h : n < 2 ^ 24) :
    (UInt8.ofNat n).toNat + (UInt8.ofNat (n / 2 ^ 8)).toNat * 2 ^ 8 +
      (UInt8.ofNat (n / 2 ^ 16)).toNat * 2 ^ 16 = n := by
  simp only [UInt8.toNat_ofNat']
  omega

theorem eval_readPacket {seq : SequenceCounter} {payload : Bytes}
    (hfit : payload.length < maxPayload) (h : s.Ready client (packet seq payload)) :
    (readPacket seq).eval (wireAnswer client random) s =
      (.ok (payload, seq + 1), { s with taken := s.taken + (packet seq payload).length }) := by
  have hmax := maxPayload_lt
  have hfour : (packetHeader seq payload.length).length = 4 := rfl
  have hlen := headerLength (show payload.length < 2 ^ 24 by omega)
  have hback := h.back
  rw [hfour] at hback
  unfold readPacket
  simp only [bind_eq]
  rw [eval_bind_ok (eval_recvExact hfour h.front)]
  simp only [packetHeader, SequenceCounter.expect, ne_eq, not_true_eq_false, if_false, ofExcept_ok,
    halt_ok_bind, hlen]
  rw [if_neg (by omega), eval_bind_ok (eval_recvExact rfl hback)]
  simp [packet, hfour, Nat.add_assoc]

theorem eval_writeAll (bytes : Bytes) : (writeAll bytes).eval (wireAnswer client random) s =
    (.ok (), { s with received := s.received ++ bytes }) := rfl

theorem eval_writePacket {seq : SequenceCounter} {payload : Bytes}
    (hfit : payload.length < maxPayload) :
    (writePacket seq payload).eval (wireAnswer client random) s =
      (.ok (seq + 1), { s with received := s.received ++ packet seq payload }) := by
  unfold writePacket
  rw [if_neg (by omega)]
  simp only [bind_eq]
  rw [eval_bind_ok (eval_writeAll _), eval_bind_ok (eval_writeAll _)]
  unfold ask perform packet
  simp [wireAnswer, Except.mapError]

/-! ## PostgreSQL messages -/

theorem fromBe_reverse (bytes : Bytes) : fromBe bytes.reverse = fromLe bytes := by
  unfold fromBe fromLe
  rw [List.foldl_reverse]
  congr 1
  funext b acc
  ring

theorem fromBe_be {width n : ℕ} (h : n < 2 ^ (8 * width)) : fromBe (be width n) = n := by
  have hmod : ((n : ℤ) % 2 ^ (8 * width)).toNat = n := by
    rw [Int.emod_eq_of_lt (Int.natCast_nonneg n) (by exact_mod_cast h), Int.toNat_natCast]
  have hbe : be width n = (le width n).reverse := by
    unfold be le
    rw [hmod]
  rw [hbe, fromBe_reverse, fromLe_le h]

theorem asI32_fromBe_be {n : ℕ} (h : n < 2 ^ 31) : asI32 (fromBe (be 4 n)) = n := by
  have hlt : n < 2 ^ (8 * 4) := by omega
  rw [fromBe_be hlt, asI32_of_lt h]

theorem eval_readExact {bytes : Bytes} {n : ℕ} (hn : bytes.length = n)
    (h : s.Ready client bytes) :
    (readExact n).eval (wireAnswer client random) s =
      (.ok bytes, { s with taken := s.taken + n }) := by
  unfold readExact ask perform
  simp only [bind_eq, call_bind, halt_ok_bind, eval_call]
  rw [wireAnswer_recv hn h]
  rfl

/-- A startup packet: its length, which counts itself, and its body. -/
def startupPacket (body : Bytes) : Bytes := be 4 (body.length + 4 : ℕ) ++ body

theorem eval_readStartup {body : Bytes} {startup : Startup} (hmax : body.length ≤ 9996)
    (hparse : parseStartup body = .ok startup) (h : s.Ready client (startupPacket body)) :
    readStartup.eval (wireAnswer client random) s =
      (.ok startup, { s with taken := s.taken + (startupPacket body).length }) := by
  have hmin : 4 ≤ body.length := by
    by_contra hshort
    simp [parseStartup, show body.length < 4 by omega] at hparse
  have hfour : (be 4 (body.length + 4 : ℕ)).length = 4 := be_length ..
  have hlen : asI32 (fromBe (be 4 (body.length + 4 : ℕ))) = (body.length + 4 : ℕ) :=
    asI32_fromBe_be (by omega)
  have hback := h.back
  rw [hfour] at hback
  unfold readStartup
  simp only [bind_eq]
  rw [eval_bind_ok (eval_readExact hfour h.front), hlen, if_pos (by omega)]
  rw [eval_bind_ok (eval_readExact (by omega) hback), hparse]
  simp only [ofExcept_ok, eval_halt, startupPacket, List.length_append, hfour, Prod.mk.injEq,
    Wire.mk.injEq, true_and]
  omega

def typedMessage (tag : UInt8) (body : Bytes) : Bytes := [tag] ++ be 4 (body.length + 4 : ℕ) ++ body

theorem eval_readMessage {tag : UInt8} {body : Bytes} (hmax : (body.length : ℤ) + 4 ≤ maxMessage)
    (h : s.Ready client (typedMessage tag body)) :
    readMessage.eval (wireAnswer client random) s =
      (.ok (tag, body), { s with taken := s.taken + (typedMessage tag body).length }) := by
  have hfive : ([tag] ++ be 4 (body.length + 4 : ℕ)).length = 5 := by simp [be_length]
  have hlt : body.length + 4 < 2 ^ 31 := by
    unfold maxMessage at hmax
    omega
  have hlen : asI32 (fromBe (be 4 (body.length + 4 : ℕ))) = (body.length + 4 : ℕ) :=
    asI32_fromBe_be hlt
  have hback := h.back
  rw [hfive] at hback
  unfold readMessage
  simp only [bind_eq]
  rw [eval_bind_ok (eval_readExact hfive h.front)]
  simp only [List.cons_append, List.nil_append, hlen]
  rw [if_pos (by omega), eval_bind_ok (eval_readExact (by omega) hback)]
  simp only [pure_eq, eval_halt, typedMessage, List.length_append, Prod.mk.injEq, Wire.mk.injEq,
    true_and] at hfive ⊢
  omega

theorem eval_writeRaw {frame : Outcome PgProtoError Bytes} {bytes : Bytes} (h : frame = .ok bytes) :
    (writeRaw frame).eval (wireAnswer client random) s =
      (.ok (), { s with received := s.received ++ bytes }) := by
  rw [h]
  rfl

end MiddleWhere.Net
