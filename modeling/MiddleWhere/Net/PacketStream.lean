import MiddleWhere.Net.Peer

/-!
# Packets back to back

Both protocols put packets into one stream without a mark between them, so that reader and
writer stay in step only by the lengths and, for MySQL, by a counter on each side. Here lists
of packets are written and read back from any stream that goes on after them.
-/

namespace MiddleWhere.Net
open Prog

variable {client : Client} {random : Bytes} {s : Wire}

/-- What the client has sent and has not been read. -/
def Wire.waiting (client : Client) (s : Wire) : Bytes := (client s.received).drop s.taken

theorem Wire.ready_of_waiting {bytes rest : Bytes} (h : s.waiting client = bytes ++ rest) :
    s.Ready client bytes := ⟨rest, h.symm⟩

theorem Wire.waiting_take {bytes rest : Bytes} (h : s.waiting client = bytes ++ rest) :
    Wire.waiting client { s with taken := s.taken + bytes.length } = rest := by
  unfold Wire.waiting at h ⊢
  dsimp only
  rw [← List.drop_drop, h, List.drop_left]

/-! ## MySQL -/

/-- `write_packet` with the counter that it borrows: its answer, and where the counter stands
then. -/
def writePacketAt (seq : SequenceCounter) (payload : Bytes) :
    SessionProg FramingError (Except FramingError Unit × SequenceCounter) := do
  if maxPayload ≤ payload.length then
    return (.error (.payloadTooLarge payload.length), seq)
  else
    let write : SessionProg FramingError Unit := do
      writeAll (packetHeader seq payload.length)
      writeAll payload
      let r ← ask .flush
      ofExcept (r.mapError .io)
    return (← write.attempt, seq + 1)

theorem attempt_bind_ofExcept {ε α β : Type} (p : SessionProg ε α) (b : β) :
    (p.attempt.bind fun r => ofExcept (r.map fun _ => b) : SessionProg ε β) =
      p.bind fun _ => .halt (.ok b) := by
  induction p with
  | halt out => cases out <;> rfl
  | call o k ih => exact congrArg (Prog.call o) (funext ih)

/-- Callers go on only after a success, with the counter it left. -/
theorem writePacket_eq (seq : SequenceCounter) (payload : Bytes) :
    writePacket seq payload = (writePacketAt seq payload).bind fun (r, seq') =>
      ofExcept (r.map fun _ => seq') := by
  unfold writePacket writePacketAt
  split_ifs with hlong
  · rfl
  · simp only [bind_eq, pure_eq, bind_assoc, halt_ok_bind]
    rw [attempt_bind_ofExcept]
    simp only [bind_assoc]

def writePackets : SequenceCounter → List Bytes → SessionProg FramingError SequenceCounter
  | seq, [] => return seq
  | seq, p :: ps => do
    let seq ← writePacket seq p
    writePackets seq ps

def readPackets : ℕ → SequenceCounter →
    SessionProg FramingError (List Bytes × SequenceCounter)
  | 0, seq => return ([], seq)
  | n + 1, seq => do
    let (p, seq) ← readPacket seq
    let (ps, seq) ← readPackets n seq
    return (p :: ps, seq)

theorem counter_succ (seq : SequenceCounter) (n : ℕ) :
    seq + 1 + UInt8.ofNat n = seq + UInt8.ofNat (n + 1) := by
  rw [UInt8.ofNat_add, UInt8.add_assoc, UInt8.add_comm 1]
  rfl

theorem eval_writePackets (seq : SequenceCounter) {ps : List Bytes}
    (hfit : ∀ p ∈ ps, p.length < maxPayload) :
    (writePackets seq ps).eval (wireAnswer client random) s =
      (.ok (seq + UInt8.ofNat ps.length),
        { s with received := s.received ++ packets seq ps }) := by
  induction ps generalizing seq s with
  | nil => simp [writePackets, packets]
  | cons p ps ih =>
    have hp : p.length < maxPayload := hfit p List.mem_cons_self
    have hps : ∀ q ∈ ps, q.length < maxPayload := fun q hq => hfit q (List.mem_cons_of_mem p hq)
    simp only [writePackets, bind_eq]
    rw [eval_bind_ok (eval_writePacket hp), ih (seq + 1) hps, counter_succ]
    simp [packets]

theorem eval_readPackets (seq : SequenceCounter) {ps : List Bytes} {rest : Bytes}
    (hfit : ∀ p ∈ ps, p.length < maxPayload)
    (h : s.waiting client = packets seq ps ++ rest) :
    (readPackets ps.length seq).eval (wireAnswer client random) s =
      (.ok (ps, seq + UInt8.ofNat ps.length),
        { s with taken := s.taken + (packets seq ps).length }) := by
  induction ps generalizing seq s with
  | nil => simp [readPackets, packets]
  | cons p ps ih =>
    have hp : p.length < maxPayload := hfit p List.mem_cons_self
    have hps : ∀ q ∈ ps, q.length < maxPayload := fun q hq => hfit q (List.mem_cons_of_mem p hq)
    have hsplit : s.waiting client = packet seq p ++ (packets (seq + 1) ps ++ rest) := by
      rw [h, packets, List.append_assoc]
    have hread := @eval_readPacket client random s seq p hp (Wire.ready_of_waiting hsplit)
    simp only [List.length_cons, readPackets, bind_eq]
    rw [eval_bind_ok hread]
    dsimp only
    rw [eval_bind_ok (ih (seq + 1) hps (Wire.waiting_take hsplit)), counter_succ]
    simp [packets, Nat.add_assoc]

/-- A header out of order, or one that announces that another packet continues this one. -/
theorem eval_readPacket_refused {seq : SequenceCounter} {lo mid hi got : UInt8} {rest : Bytes}
    (h : s.waiting client = [lo, mid, hi, got] ++ rest)
    (hbad : got ≠ seq ∨ lo.toNat + mid.toNat * 2 ^ 8 + hi.toNat * 2 ^ 16 = maxPayload) :
    ∃ e, (readPacket seq).eval (wireAnswer client random) s =
      (.err e, { s with taken := s.taken + 4 }) := by
  have hheader : (recvExact "packet header" 4).eval (wireAnswer client random) s =
      (.ok [lo, mid, hi, got], { s with taken := s.taken + 4 }) :=
    eval_recvExact rfl (Wire.ready_of_waiting h)
  unfold readPacket
  simp only [bind_eq]
  rw [eval_bind_ok hheader]
  dsimp only
  by_cases hseq : got = seq
  · have hlen := hbad.resolve_left (not_not.mpr hseq)
    simp only [SequenceCounter.expect, hseq, ne_eq, not_true_eq_false, if_false, ofExcept_ok,
      halt_ok_bind, if_pos hlen]
    exact ⟨_, rfl⟩
  · simp only [SequenceCounter.expect, ne_eq, hseq, not_false_eq_true, if_true]
    exact ⟨_, rfl⟩

/-! ## PostgreSQL -/

def readMessages : ℕ → SessionProg PgProtoError (List (UInt8 × Bytes))
  | 0 => return []
  | n + 1 => do
    let m ← readMessage
    let ms ← readMessages n
    return m :: ms

theorem msg_eq_typedMessage {ε : Type} (tag : UInt8) {body : Bytes}
    (hmax : (body.length : ℤ) + 4 ≤ maxMessage) :
    (msg (Char.ofNat tag.toNat) body : Outcome ε Bytes) = .ok (typedMessage tag body) := by
  unfold maxMessage at hmax
  have hlen : asI32 body.length = body.length := asI32_of_lt (by omega)
  have htag : UInt8.ofNat (Char.ofNat tag.toNat).toNat = tag := by
    have hvalid : Nat.isValidChar tag.toNat := Or.inl (tag.toNat_lt.trans (by decide))
    rw [Char.toNat_ofNat, if_pos hvalid, UInt8.ofNat_toNat]
  unfold msg typedMessage
  rw [hlen, htag]
  exact if_pos (by omega)

theorem eval_readMessages {ms : List (UInt8 × Bytes)} {rest : Bytes}
    (hfit : ∀ m ∈ ms, (m.2.length : ℤ) + 4 ≤ maxMessage)
    (h : s.waiting client = ms.flatMap (fun m => typedMessage m.1 m.2) ++ rest) :
    ∃ s', (readMessages ms.length).eval (wireAnswer client random) s = (.ok ms, s') ∧
      s'.waiting client = rest := by
  induction ms generalizing s with
  | nil => exact ⟨s, rfl, h⟩
  | cons m ms ih =>
    have hm := hfit m List.mem_cons_self
    have hms : ∀ q ∈ ms, (q.2.length : ℤ) + 4 ≤ maxMessage :=
      fun q hq => hfit q (List.mem_cons_of_mem m hq)
    rw [List.flatMap_cons, List.append_assoc] at h
    have hread := @eval_readMessage client random s m.1 m.2 hm (Wire.ready_of_waiting h)
    obtain ⟨s', hrest, hwaiting⟩ := ih hms (Wire.waiting_take h)
    refine ⟨s', ?_, hwaiting⟩
    simp only [List.length_cons, readMessages, bind_eq]
    rw [eval_bind_ok hread, eval_bind_ok hrest]
    rfl

/-! ## Both streams -/

/-- What is written is read back, and what follows it stays. A packet that is too large to be
written moves neither the stream nor the counter. -/
theorem packetStream_roundtrip :
    (∀ (seq : SequenceCounter) (ps : List Bytes), (∀ p ∈ ps, p.length < maxPayload) →
      ∃ stream,
        (∀ client random s, (writePackets seq ps).eval (wireAnswer client random) s =
          (.ok (seq + UInt8.ofNat ps.length), { s with received := s.received ++ stream })) ∧
        ∀ client random s rest, Wire.waiting client s = stream ++ rest →
          ∃ s', (readPackets ps.length seq).eval (wireAnswer client random) s =
            (.ok (ps, seq + UInt8.ofNat ps.length), s') ∧ s'.waiting client = rest) ∧
    (∀ client random s (seq lo mid hi got : UInt8) rest,
      Wire.waiting client s = [lo, mid, hi, got] ++ rest →
      (got ≠ seq ∨ lo.toNat + mid.toNat * 2 ^ 8 + hi.toNat * 2 ^ 16 = maxPayload) →
      ∃ e, (readPacket seq).eval (wireAnswer client random) s =
        (.err e, { s with taken := s.taken + 4 })) ∧
    (∀ (seq : SequenceCounter) (payload : Bytes), maxPayload ≤ payload.length →
      writePacketAt seq payload =
        .halt (.ok (.error (.payloadTooLarge payload.length), seq))) ∧
    ∀ ms : List (UInt8 × Bytes), (∀ m ∈ ms, (m.2.length : ℤ) + 4 ≤ maxMessage) →
      ∃ frames : List Bytes,
        List.Forall₂ (fun m f => (msg (Char.ofNat m.1.toNat) m.2 : Frame) = .ok f) ms frames ∧
        ∀ client random s rest, Wire.waiting client s = frames.flatten ++ rest →
          ∃ s', (readMessages ms.length).eval (wireAnswer client random) s = (.ok ms, s') ∧
            s'.waiting client = rest := by
  refine ⟨?_, ?_, ?_, ?_⟩
  · intro seq ps hfit
    refine ⟨packets seq ps, fun _ _ _ => eval_writePackets seq hfit, ?_⟩
    intro client random s rest h
    exact ⟨_, eval_readPackets seq hfit h, Wire.waiting_take h⟩
  · intro client random s seq lo mid hi got rest h hbad
    exact eval_readPacket_refused h hbad
  · intro seq payload hlong
    exact if_pos hlong
  · intro ms hfit
    refine ⟨ms.map fun m => typedMessage m.1 m.2, ?_, ?_⟩
    · rw [List.forall₂_map_right_iff, List.forall₂_same]
      exact fun m hm => msg_eq_typedMessage m.1 (hfit m hm)
    · intro client random s rest h
      rw [← List.flatMap_def] at h
      exact eval_readMessages hfit h

/-- Two packets whose numbers wrap. -/
theorem packetStream_roundtrip_wrap : ∃ stream, ∀ client random s rest,
    Wire.waiting client s = stream ++ rest →
      ∃ s', (readPackets 2 255).eval (wireAnswer client random) s = (.ok ([[7], []], 1), s') ∧
        s'.waiting client = rest := by
  obtain ⟨stream, -, hread⟩ := packetStream_roundtrip.1 255 [[7], []] (by decide)
  exact ⟨stream, hread⟩

end MiddleWhere.Net
