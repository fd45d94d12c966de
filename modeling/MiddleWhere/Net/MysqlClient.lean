import MiddleWhere.Data.Decoder
import MiddleWhere.Net.Ledger
import MiddleWhere.Net.MysqlServer

/-!
# What a client reads

A client of the text protocol, for a connection with CLIENT_DEPRECATE_EOF as the greeting
offers it. It splits what it receives into packets, which have to be numbered in order, and
reads one result after another: an OK, or columns and rows up to the OK that ends them, until
the status says that no more results follow or an ERR ends the reply.
-/

namespace MiddleWhere.Net

/-! ## Fields -/

def lenencInt : Decoder UInt8 ℕ := do
  let b ← token
  if b.toNat < 0xFB then pure b.toNat
  else if b = 0xFC then fromLe <$> takeN 2
  else if b = 0xFD then fromLe <$> takeN 3
  else if b = 0xFE then fromLe <$> takeN 8
  else failure

def lenencBytes : Decoder UInt8 Bytes := do takeN (← lenencInt)

/-- The byte 0xFB stands for NULL. -/
def cell : Decoder UInt8 (Option Bytes)
  | [] => none
  | b :: rest => if b = 0xFB then some (none, rest) else (some <$> lenencBytes) (b :: rest)

theorem le_length (width n : ℕ) : (le width n).length = width := by
  simp [le]

theorem le_succ (width n : ℕ) : le (width + 1) n = UInt8.ofNat n :: le width (n / 2 ^ 8) := by
  unfold le
  rw [List.range_succ_eq_map, List.map_cons, List.map_map]
  congr 1
  · simp
  · apply List.map_congr_left
    intro i _
    have hpow : 2 ^ (8 * (i + 1)) = 2 ^ 8 * 2 ^ (8 * i) := by rw [← pow_add]; ring_nf
    simp only [Function.comp_apply, Nat.succ_eq_add_one]
    rw [hpow, Nat.div_div_eq_div_mul]

theorem fromLe_le {width n : ℕ} (h : n < 2 ^ (8 * width)) : fromLe (le width n) = n := by
  induction width generalizing n with
  | zero =>
    have hn : n = 0 := by simpa using h
    rw [hn]
    rfl
  | succ width ih =>
    have hhead : (UInt8.ofNat n).toNat = n % 256 := UInt8.toNat_ofNat'
    have hrest : fromLe (le width (n / 2 ^ 8)) = n / 2 ^ 8 := by
      apply ih
      apply Nat.div_lt_of_lt_mul
      rwa [← pow_add, add_comm]
    have hcons : fromLe (le (width + 1) n) =
        (UInt8.ofNat n).toNat + 256 * fromLe (le width (n / 2 ^ 8)) := by
      rw [le_succ]
      rfl
    omega

theorem reads_le {w n : ℕ} (h : n < 2 ^ (8 * w)) :
    Reads (fromLe <$> takeN w) (le w n) n := by
  have htake : Reads (takeN w) (le w n) (le w n) := by
    have hx := reads_takeN (le w n)
    rwa [le_length] at hx
  have hread := htake.map fromLe
  rwa [fromLe_le h] at hread

theorem reads_lenencInt {n : ℕ} (h : n < 2 ^ 64) : Reads lenencInt (writeLenencInt n) n := by
  unfold writeLenencInt
  by_cases h1 : n < 0xFB
  · have hbyte : (UInt8.ofNat n).toNat = n := by
      rw [UInt8.toNat_ofNat']
      omega
    rw [if_pos h1]
    intro rest
    have hread : lenencInt (UInt8.ofNat n :: rest) = some ((UInt8.ofNat n).toNat, rest) := by
      have hlt : (UInt8.ofNat n).toNat < 0xFB := by omega
      calc lenencInt (UInt8.ofNat n :: rest)
          = (if (UInt8.ofNat n).toNat < 0xFB then
              (pure (UInt8.ofNat n).toNat : Decoder UInt8 ℕ) else _) rest := rfl
        _ = some ((UInt8.ofNat n).toNat, rest) := by rw [if_pos hlt]; rfl
    rw [List.singleton_append, hread, hbyte]
  rw [if_neg h1]
  by_cases h2 : n < 2 ^ 16
  · rw [if_pos h2]
    exact (reads_token 0xFC).bind (reads_le (w := 2) h2)
  rw [if_neg h2]
  by_cases h3 : n < 2 ^ 24
  · rw [if_pos h3]
    exact (reads_token 0xFD).bind (reads_le h3)
  · rw [if_neg h3]
    exact (reads_token 0xFE).bind (reads_le h)

theorem reads_lenencBytes {b : Bytes} (h : b.length < 2 ^ 64) :
    Reads lenencBytes (pushLenencBytes b) b :=
  (reads_lenencInt h).bind (reads_takeN b)

/-! ## Columns and rows -/

structure ColumnView where
  schema : Bytes
  table : Bytes
  orgTable : Bytes
  name : Bytes
  orgName : Bytes
  characterSet : ℕ
  columnLength : ℕ
  columnType : UInt8
  flags : ℕ
  decimals : UInt8
deriving DecidableEq

abbrev RowView := List (Option Bytes)

def columnDef : Decoder UInt8 ColumnView := do
  let _ ← lenencBytes
  let schema ← lenencBytes
  let table ← lenencBytes
  let orgTable ← lenencBytes
  let name ← lenencBytes
  let orgName ← lenencBytes
  let _ ← lenencInt
  let characterSet ← fromLe <$> takeN 2
  let columnLength ← fromLe <$> takeN 4
  let columnType ← token
  let flags ← fromLe <$> takeN 2
  let decimals ← token
  let _ ← takeN 2
  return ⟨schema, table, orgTable, name, orgName, characterSet, columnLength, columnType, flags,
    decimals⟩

def Column.view (c : Column) : ColumnView :=
  ⟨Str.asBytes c.schema, Str.asBytes c.table, Str.asBytes c.orgTable, Str.asBytes c.name,
    Str.asBytes c.orgName, c.characterSet.toNat, c.columnLength.toNat, c.columnType,
    c.flags.toNat, c.decimals⟩

/-- The text of a cell; NULL has none. -/
def Value.view (deps : SessionDeps) : Value → Option Bytes
  | .null => none
  | .bytes b => some b
  | .int n => some (Str.asBytes (toString n))
  | .uint n => some (Str.asBytes (toString n))
  | .float bits => some (Str.asBytes (deps.formatFloat (deps.widenF32 bits)))
  | .double bits => some (Str.asBytes (deps.formatFloat bits))
  | .date y mo d h mi s us => some (Str.asBytes (dateText y mo d h mi s us))
  | .time neg days h mi s us => some (Str.asBytes (timeText neg days h mi s us))

theorem valueText_eq (deps : SessionDeps) (v : Value) :
    valueText deps v = match v.view deps with
      | none => [0xFB]
      | some text => pushLenencBytes text := by
  cases v <;> rfl

/-- A packet that one writes is far shorter than what a length can express. -/
theorem maxPayload_lt : maxPayload < 2 ^ 24 := by decide

theorem length_le_pushLenencBytes (b : Bytes) : b.length ≤ (pushLenencBytes b).length := by
  unfold pushLenencBytes
  rw [List.length_append]
  omega

theorem reads_columnDef {c : Column} (h : (columnDefPacket c).length < maxPayload) :
    Reads columnDef (columnDefPacket c) c.view := by
  have hmax := maxPayload_lt
  have hschema := length_le_pushLenencBytes (Str.asBytes c.schema)
  have htable := length_le_pushLenencBytes (Str.asBytes c.table)
  have horgTable := length_le_pushLenencBytes (Str.asBytes c.orgTable)
  have hname := length_le_pushLenencBytes (Str.asBytes c.name)
  have horgName := length_le_pushLenencBytes (Str.asBytes c.orgName)
  simp only [columnDefPacket, List.length_append] at h
  have hpacket : columnDefPacket c = pushLenencBytes (Str.asBytes "def") ++
      (pushLenencBytes (Str.asBytes c.schema) ++ (pushLenencBytes (Str.asBytes c.table) ++
      (pushLenencBytes (Str.asBytes c.orgTable) ++ (pushLenencBytes (Str.asBytes c.name) ++
      (pushLenencBytes (Str.asBytes c.orgName) ++ (writeLenencInt 0x0c ++
      (le 2 c.characterSet.toNat ++ (le 4 c.columnLength.toNat ++ ([c.columnType] ++
      (le 2 c.flags.toNat ++ ([c.decimals] ++ ([0x00, 0x00] ++ [])))))))))))) := by
    simp only [columnDefPacket, List.append_assoc, List.append_nil]
  rw [hpacket]
  apply (reads_lenencBytes (by decide)).bind
  apply (reads_lenencBytes (by omega)).bind
  apply (reads_lenencBytes (by omega)).bind
  apply (reads_lenencBytes (by omega)).bind
  apply (reads_lenencBytes (by omega)).bind
  apply (reads_lenencBytes (by omega)).bind
  apply (reads_lenencInt (by decide)).bind
  apply (reads_le c.characterSet.toNat_lt).bind
  apply (reads_le c.columnLength.toNat_lt).bind
  apply (reads_token c.columnType).bind
  apply (reads_le c.flags.toNat_lt).bind
  apply (reads_token c.decimals).bind
  exact (reads_takeN [0x00, 0x00]).bind (reads_pure c.view)

/-- The first byte of a length tells it from NULL, from an ERR and, unless the text is longer
than a packet, from the OK that ends the rows. -/
theorem writeLenencInt_head {n : ℕ} : ∃ b rest, writeLenencInt n = b :: rest ∧ b ≠ 0xFB ∧
    b ≠ 0xFF ∧ (n < 2 ^ 24 → b ≠ 0xFE) ∧ (n ≠ 0 → b ≠ 0x00) := by
  unfold writeLenencInt
  by_cases h1 : n < 0xFB
  · have hbyte (k : ℕ) (hk : k < 256) (hne : n ≠ k) : UInt8.ofNat n ≠ UInt8.ofNat k := by
      intro heq
      have hnat := congrArg UInt8.toNat heq
      rw [UInt8.toNat_ofNat', UInt8.toNat_ofNat'] at hnat
      omega
    rw [if_pos h1]
    exact ⟨_, [], rfl, hbyte 0xFB (by decide) (by omega), hbyte 0xFF (by decide) (by omega),
      fun _ => hbyte 0xFE (by decide) (by omega), fun h => hbyte 0 (by decide) h⟩
  rw [if_neg h1]
  by_cases h2 : n < 2 ^ 16
  · rw [if_pos h2]
    exact ⟨0xFC, _, rfl, by decide, by decide, fun _ => by decide, fun _ => by decide⟩
  rw [if_neg h2]
  by_cases h3 : n < 2 ^ 24
  · rw [if_pos h3]
    exact ⟨0xFD, _, rfl, by decide, by decide, fun _ => by decide, fun _ => by decide⟩
  · rw [if_neg h3]
    exact ⟨0xFE, _, rfl, by decide, by decide, fun h => absurd h h3, fun _ => by decide⟩

theorem reads_cell {deps : SessionDeps} {v : Value}
    (h : ∀ text ∈ v.view deps, text.length < 2 ^ 64) :
    Reads cell (valueText deps v) (v.view deps) := by
  rw [valueText_eq]
  cases hv : v.view deps with
  | none => exact fun rest => rfl
  | some text =>
    have hread : Reads (some <$> lenencBytes) (pushLenencBytes text) (some text) :=
      (reads_lenencBytes (h text hv)).map some
    obtain ⟨b, rest, hhead, hnull, -, -, -⟩ := writeLenencInt_head (n := text.length)
    intro rest'
    have hbytes : pushLenencBytes text ++ rest' = b :: (rest ++ text ++ rest') := by
      unfold pushLenencBytes
      rw [hhead]
      rfl
    calc cell (pushLenencBytes text ++ rest')
        = (some <$> lenencBytes) (pushLenencBytes text ++ rest') := by
          rw [hbytes]
          exact if_neg hnull
      _ = some (some text, rest') := hread rest'

theorem valueText_length_le (deps : SessionDeps) {row : Row} {v : Value} (h : v ∈ row) :
    (valueText deps v).length ≤ (rowText deps row).length := by
  have hsub := (List.singleton_sublist.mpr h).flatMap (valueText deps)
  rw [List.flatMap_singleton] at hsub
  exact hsub.length_le

def Row.view (deps : SessionDeps) (row : Row) : RowView := row.map (Value.view deps)

/-- A length is written in at most eight bytes. -/
theorem reads_row_of_word {deps : SessionDeps} {row : Row}
    (h : ∀ v ∈ row, ∀ text ∈ v.view deps, text.length < 2 ^ 64) :
    Reads (repeatN cell row.length) (rowText deps row) (row.view deps) := by
  apply reads_repeatN
  intro v hv
  exact reads_cell (h v hv)

theorem reads_row {deps : SessionDeps} {row : Row} (h : (rowText deps row).length < maxPayload) :
    Reads (repeatN cell row.length) (rowText deps row) (row.view deps) := by
  have hmax := maxPayload_lt
  apply reads_row_of_word
  intro v hv text htext
  have hfit := (valueText_length_le deps hv).trans_lt h
  have hlen := length_le_pushLenencBytes text
  have hview : v.view deps = some text := htext
  rw [valueText_eq, hview] at hfit
  dsimp only at hfit
  omega

/-- A row of a packet is taken neither for an ERR nor for the OK that ends the rows. -/
theorem rowText_head (deps : SessionDeps) {row : Row} (hne : row ≠ [])
    (h : (rowText deps row).length < maxPayload) :
    (rowText deps row).head? ≠ some 0xFF ∧ (rowText deps row).head? ≠ some 0xFE := by
  have hmax := maxPayload_lt
  obtain ⟨v, row, rfl⟩ := List.exists_cons_of_ne_nil hne
  have hfit := (valueText_length_le deps List.mem_cons_self).trans_lt h
  have hrow : rowText deps (v :: row) = valueText deps v ++ rowText deps row := List.flatMap_cons
  rw [hrow]
  rw [valueText_eq] at hfit ⊢
  cases hv : v.view deps with
  | none => simp
  | some text =>
    simp only [hv] at hfit
    have hlen := length_le_pushLenencBytes text
    obtain ⟨b, rest, hhead, -, herr, hok, -⟩ := writeLenencInt_head (n := text.length)
    have hb : b ≠ 0xFE := hok (by omega)
    simp [pushLenencBytes, hhead, herr, hb]

/-! ## Replies -/

structure SetView where
  cols : List ColumnView
  rows : List RowView
deriving DecidableEq

inductive ResultView
  | ok (affectedRows lastInsertId : ℕ)
  | set (s : SetView)
deriving DecidableEq

/-- The results of a reply, and the ERR that ended it with the result that it broke off. -/
structure ReplyView where
  results : List ResultView
  failure : Option (Option SetView)
deriving DecidableEq

inductive ClientState
  | start (done : List ResultView)
  | columns (done : List ResultView) (count : ℕ) (cols : List ColumnView)
  | rows (done : List ResultView) (cols : List ColumnView) (rows : List RowView)
  | finished (reply : ReplyView)

def ClientState.Open : ClientState → Prop
  | .finished _ => False
  | _ => True

/-- The counters of an OK, and whether its status announces another result. -/
def okBody : Decoder UInt8 (ℕ × ℕ × Bool) := do
  let affectedRows ← lenencInt
  let lastInsertId ← lenencInt
  let status ← fromLe <$> takeN 2
  let _ ← takeN 2
  return (affectedRows, lastInsertId, hasCap status 0x0008)

def afterResult (done : List ResultView) (r : ResultView) (more : Bool) : ClientState :=
  if more then .start (done ++ [r]) else .finished ⟨done ++ [r], none⟩

def afterColumns (done : List ResultView) (count : ℕ) (cols : List ColumnView) : ClientState :=
  if cols.length = count then .rows done cols [] else .columns done count cols

def clientStep : ClientState → Bytes → Option ClientState
  | .start done, p =>
    if p.head? = some 0xFF then some (.finished ⟨done, some none⟩)
    else if p.head? = some 0x00 then do
      let (affectedRows, lastInsertId, more) ← front okBody p.tail
      return afterResult done (.ok affectedRows lastInsertId) more
    else do
      let count ← whole lenencInt p
      return afterColumns done count []
  | .columns done count cols, p => do
    let col ← whole columnDef p
    return afterColumns done count (cols ++ [col])
  | .rows done cols rows, p =>
    if p.head? = some 0xFF then some (.finished ⟨done, some (some ⟨cols, rows⟩)⟩)
    else if p.head? = some 0xFE ∧ p.length < maxPayload then do
      let (_, _, more) ← front okBody p.tail
      return afterResult done (.set ⟨cols, rows⟩) more
    else do
      let row ← whole (repeatN cell cols.length) p
      return .rows done cols (rows ++ [row])
  | .finished _, _ => none

def decodePackets (payloads : List Bytes) : Option ReplyView :=
  match payloads.foldlM clientStep (.start []) with
  | some (.finished reply) => some reply
  | _ => none

/-! ## Packets -/

def packetOf (seq : SequenceCounter) : Decoder UInt8 Bytes := do
  let len ← fromLe <$> takeN 3
  let got ← token
  if got = seq then takeN len else failure

/-- The packets of a reply; `fuel` bounds their number. -/
def splitPackets : ℕ → SequenceCounter → Bytes → Option (List Bytes)
  | _, _, [] => some []
  | 0, _, _ => none
  | fuel + 1, seq, input => do
    let (p, rest) ← packetOf seq input
    let ps ← splitPackets fuel (seq + 1) rest
    return p :: ps

/-- Every packet has a header, so there are fewer of them than bytes. -/
def decodeReply (input : Bytes) : Option ReplyView := do
  decodePackets (← splitPackets input.length 1 input)

def packets : SequenceCounter → List Bytes → Bytes
  | _, [] => []
  | seq, p :: ps => packet seq p ++ packets (seq + 1) ps

theorem reads_packet (seq : SequenceCounter) {p : Bytes} (h : p.length < maxPayload) :
    Reads (packetOf seq) (packet seq p) p := by
  have hmax := maxPayload_lt
  have hheader : packet seq p = le 3 p.length ++ ([seq] ++ p) := by
    have hle : le 3 p.length = [UInt8.ofNat p.length, UInt8.ofNat (p.length / 2 ^ 8),
        UInt8.ofNat (p.length / 2 ^ 16)] := by simp [le, List.range_succ]
    rw [hle]
    rfl
  rw [hheader]
  apply (reads_le (by omega)).bind
  apply (reads_token seq).bind
  rw [if_pos rfl]
  exact reads_takeN p

theorem packets_length_ge (seq : SequenceCounter) (ps : List Bytes) :
    ps.length ≤ (packets seq ps).length := by
  induction ps generalizing seq with
  | nil => exact le_rfl
  | cons p ps ih =>
    have hrest := ih (seq + 1)
    have hheader : (packetHeader seq p.length).length = 4 := rfl
    simp only [packets, packet, List.length_append, List.length_cons]
    omega

theorem splitPackets_packets {fuel : ℕ} (seq : SequenceCounter) {ps : List Bytes}
    (hfuel : ps.length ≤ fuel) (h : ∀ p ∈ ps, p.length < maxPayload) :
    splitPackets fuel seq (packets seq ps) = some ps := by
  induction ps generalizing fuel seq with
  | nil => cases fuel <;> rfl
  | cons p ps ih =>
    obtain ⟨fuel, rfl⟩ : ∃ k, fuel = k + 1 := ⟨fuel - 1, by simp at hfuel; omega⟩
    have hp := reads_packet seq (h p List.mem_cons_self) (packets (seq + 1) ps)
    have hps : splitPackets fuel (seq + 1) (packets (seq + 1) ps) = some ps := by
      apply ih
      · simpa using hfuel
      · exact fun q hq => h q (List.mem_cons_of_mem p hq)
    calc splitPackets (fuel + 1) seq (packets seq (p :: ps))
        = (packetOf seq (packet seq p ++ packets (seq + 1) ps)).bind fun r =>
            (splitPackets fuel (seq + 1) r.2).bind fun ps => some (r.1 :: ps) := by
          rfl
      _ = some (p :: ps) := by
          rw [hp, Option.bind_some, hps, Option.bind_some]

theorem decodeReply_packets {ps : List Bytes} (h : ∀ p ∈ ps, p.length < maxPayload) :
    decodeReply (packets 1 ps) = decodePackets ps := by
  have hsplit := splitPackets_packets 1 (packets_length_ge 1 ps) h
  unfold decodeReply
  rw [hsplit]
  rfl

end MiddleWhere.Net
