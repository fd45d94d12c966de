import MiddleWhere.Net.Session

/-!
# MySQL packet framing

A packet is three bytes of length, a sequence number and the payload. Payloads of
2^24 - 1 bytes or more, which would continue in the next packet, are refused in both
directions.
-/

namespace MiddleWhere.Net
open Prog

def maxPayload : ℕ := 2 ^ 24 - 1

inductive FramingError
  | io (reason : String)
  | payloadTooLarge (len : ℕ)
  | unexpectedEof (what : String)
  | multiPacket

/-- The next number is also the one that a received packet has to carry. -/
abbrev SequenceCounter := UInt8

def SequenceCounter.expect (seq : SequenceCounter) (got : UInt8) :
    Except FramingError SequenceCounter :=
  if got ≠ seq then
    .error (.io ("out-of-order packet: got seq " ++ toString got ++ ", want " ++ toString seq))
  else .ok (seq + 1)

def recvExact (what : String) (n : ℕ) : SessionProg FramingError Bytes := do
  match ← ask (.recv n) with
  | .ok bytes => return bytes
  | .error .eof => fail (.unexpectedEof what)
  | .error (.io e) => fail (.io e)

/-- The header buffer has four bytes, so no other pattern is met. -/
def readPacket (seq : SequenceCounter) : SessionProg FramingError (Bytes × SequenceCounter) := do
  match ← recvExact "packet header" 4 with
  | [lo, mid, hi, got] =>
    let len := lo.toNat + mid.toNat * 2 ^ 8 + hi.toNat * 2 ^ 16
    let seq ← ofExcept (seq.expect got)
    if len = maxPayload then fail .multiPacket
    else
      let payload ← recvExact "packet payload" len
      return (payload, seq)
  | _ => lift .panic

theorem recvExact_uses (what : String) (n : ℕ) :
    (recvExact what n).Uses SessionOp.fromClient := by
  refine ⟨trivial, fun r => ?_⟩
  rcases r with (_ | e) | bytes
  · trivial
  · trivial
  · trivial

theorem readPacket_uses (seq : SequenceCounter) : (readPacket seq).Uses SessionOp.fromClient := by
  apply uses_bind (recvExact_uses _ _)
  intro header
  split
  · apply uses_bind (uses_ofExcept _)
    intro seq'
    split_ifs with hlen
    · trivial
    · apply uses_bind (recvExact_uses _ _)
      exact fun _ => trivial
  · trivial

def writeAll (bytes : Bytes) : SessionProg FramingError Unit := do
  let r ← ask (.write bytes)
  ofExcept (r.mapError .io)

def packetHeader (seq : SequenceCounter) (len : ℕ) : Bytes :=
  [UInt8.ofNat len, UInt8.ofNat (len / 2 ^ 8), UInt8.ofNat (len / 2 ^ 16), seq]

def writePacket (seq : SequenceCounter) (payload : Bytes) :
    SessionProg FramingError SequenceCounter := do
  if maxPayload ≤ payload.length then fail (.payloadTooLarge payload.length)
  else
    writeAll (packetHeader seq payload.length)
    writeAll payload
    let r ← ask .flush
    ofExcept (r.mapError .io)
    return seq + 1

theorem writeAll_uses (bytes : Bytes) : (writeAll bytes).Uses SessionOp.toClient :=
  ⟨trivial, fun _ => uses_ofExcept _⟩

theorem writePacket_uses (seq : SequenceCounter) (payload : Bytes) :
    (writePacket seq payload).Uses SessionOp.toClient := by
  unfold writePacket
  split_ifs with hlen
  · exact trivial
  · apply uses_bind (writeAll_uses _)
    intro _
    apply uses_bind (writeAll_uses _)
    intro _
    refine ⟨trivial, fun r => ?_⟩
    apply uses_bind (uses_ofExcept _)
    exact fun _ => trivial

def le (width n : ℕ) : Bytes := (List.range width).map fun i => UInt8.ofNat (n / 2 ^ (8 * i))

def writeLenencInt (v : ℕ) : Bytes :=
  if v < 0xFB then [UInt8.ofNat v]
  else if v < 2 ^ 16 then 0xFC :: le 2 v
  else if v < 2 ^ 24 then 0xFD :: le 3 v
  else 0xFE :: le 8 v

/-- The bytes up to the first NUL, and how many were consumed with it. -/
def readNulString (buf : Bytes) : Option (Bytes × ℕ) :=
  match buf.findIdx? (· == 0) with
  | none => none
  | some pos => some (buf.take pos, pos + 1)

theorem readNulString_le {buf text : Bytes} {n : ℕ} (h : readNulString buf = some (text, n)) :
    n ≤ buf.length := by
  unfold readNulString at h
  cases hpos : buf.findIdx? (· == 0) with
  | none => simp [hpos] at h
  | some pos =>
    obtain ⟨hlt, -⟩ := List.findIdx?_eq_some_iff_getElem.mp hpos
    simp only [hpos, Option.some.injEq, Prod.mk.injEq] at h
    omega

end MiddleWhere.Net
