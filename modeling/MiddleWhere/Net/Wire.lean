import MiddleWhere.Net.Framing

/-!
# MySQL result packets

The packets of a text result set: the column count, one definition for each column, one
packet for each row and the OK packet that ends them. Numbers are printed in decimal;
printing a float is left to the standard library.
-/

namespace MiddleWhere.Net

def serverStatusAutocommit : Bytes := [0x02, 0x00]

def okPacket : Bytes := [0x00, 0x00, 0x00] ++ serverStatusAutocommit ++ [0x00, 0x00]

def errPacket (code : UInt16) (sqlstate msg : String) : Bytes :=
  [0xFF] ++ le 2 code.toNat ++ Str.asBytes "#" ++ Str.asBytes sqlstate ++ Str.asBytes msg

def pushLenencBytes (b : Bytes) : Bytes := writeLenencInt b.length ++ b

def columnCountPacket (n : ℕ) : Bytes := writeLenencInt n

def columnDefPacket (c : Column) : Bytes :=
  pushLenencBytes (Str.asBytes "def") ++ pushLenencBytes (Str.asBytes c.schema) ++
    pushLenencBytes (Str.asBytes c.table) ++ pushLenencBytes (Str.asBytes c.orgTable) ++
    pushLenencBytes (Str.asBytes c.name) ++ pushLenencBytes (Str.asBytes c.orgName) ++
    writeLenencInt 0x0c ++ le 2 c.characterSet.toNat ++ le 4 c.columnLength.toNat ++
    [c.columnType] ++ le 2 c.flags.toNat ++ [c.decimals] ++ [0x00, 0x00]

/-- `{:0width}` -/
def padded (width n : ℕ) : String :=
  let digits := (toString n).toList
  String.ofList (List.replicate (width - digits.length) '0' ++ digits)

def dateText (year : UInt16) (month day hour minute second : UInt8) (micros : UInt32) : String :=
  let day := padded 4 year.toNat ++ "-" ++ padded 2 month.toNat ++ "-" ++ padded 2 day.toNat
  let time := padded 2 hour.toNat ++ ":" ++ padded 2 minute.toNat ++ ":" ++ padded 2 second.toNat
  if hour = 0 ∧ minute = 0 ∧ second = 0 ∧ micros = 0 then day
  else if micros = 0 then day ++ " " ++ time
  else day ++ " " ++ time ++ "." ++ padded 6 micros.toNat

def timeText (negative : Bool) (days : UInt32) (hours minutes seconds : UInt8)
    (micros : UInt32) : String :=
  let totalH := days * 24 + hours.toUInt32
  let sign := if negative then "-" else ""
  let time := sign ++ padded 2 totalH.toNat ++ ":" ++ padded 2 minutes.toNat ++ ":" ++
    padded 2 seconds.toNat
  if micros = 0 then time else time ++ "." ++ padded 6 micros.toNat

def valueText (deps : SessionDeps) : Value → Bytes
  | .null => [0xFB]
  | .bytes b => pushLenencBytes b
  | .int n => pushLenencBytes (Str.asBytes (toString n))
  | .uint n => pushLenencBytes (Str.asBytes (toString n))
  | .float bits => pushLenencBytes (Str.asBytes (deps.formatFloat (deps.widenF32 bits)))
  | .double bits => pushLenencBytes (Str.asBytes (deps.formatFloat bits))
  | .date y mo d h mi s us => pushLenencBytes (Str.asBytes (dateText y mo d h mi s us))
  | .time neg days h mi s us => pushLenencBytes (Str.asBytes (timeText neg days h mi s us))

/-- `for i in 0..row.len()`, with the `expect` on every index. -/
def rowTextLoop {ε : Type} (deps : SessionDeps) (row : Row) : List ℕ → Bytes → Outcome ε Bytes
  | [], p => .ok p
  | i :: is, p => do
    let v ← Outcome.index row i
    rowTextLoop deps row is (p ++ valueText deps v)

def rowTextPacket {ε : Type} (deps : SessionDeps) (row : Row) : Outcome ε Bytes :=
  rowTextLoop deps row (List.range row.length) []

def okEofPacket (affectedRows warnings : ℕ) : Bytes :=
  [0xFE] ++ writeLenencInt affectedRows ++ writeLenencInt 0 ++ serverStatusAutocommit ++
    le 2 warnings

def rowText (deps : SessionDeps) (row : Row) : Bytes := row.flatMap (valueText deps)

theorem rowTextLoop_eq {ε : Type} (deps : SessionDeps) (row rest : Row) (k : ℕ) (p : Bytes)
    (hrest : row.drop k = rest) :
    (rowTextLoop deps row (List.range' k rest.length) p : Outcome ε Bytes) =
      .ok (p ++ rowText deps rest) := by
  induction rest generalizing k p with
  | nil => simp [rowTextLoop, rowText]
  | cons v rest ih =>
    have hk : row[k]? = some v := by
      rw [← List.head?_drop, hrest, List.head?_cons]
    have htail : row.drop (k + 1) = rest := by
      rw [← List.tail_drop, hrest, List.tail_cons]
    rw [List.length_cons, List.range'_succ, rowTextLoop]
    simp only [Outcome.index, hk, Outcome.ok_bind]
    rw [ih (k + 1) _ htail, rowText, rowText, List.flatMap_cons, List.append_assoc]

/-- The indices are those of the row, so no `expect` fails. -/
theorem rowTextPacket_eq {ε : Type} (deps : SessionDeps) (row : Row) :
    (rowTextPacket deps row : Outcome ε Bytes) = .ok (rowText deps row) := by
  unfold rowTextPacket
  rw [List.range_eq_range', rowTextLoop_eq deps row row 0 [] rfl, List.nil_append]

end MiddleWhere.Net
