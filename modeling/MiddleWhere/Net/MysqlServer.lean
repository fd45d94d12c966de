import MiddleWhere.Net.Wire

/-!
# The MySQL handshake

The server greets with a random scramble, reads the handshake response, switches the
client to native password authentication where it has to, and verifies the answer. The
parser slices the response at positions that the response itself names.
-/

namespace MiddleWhere.Net
open Prog

def clientProtocol41 : ℕ := 0x00000200
def clientSecureConnection : ℕ := 0x00008000
def clientPluginAuth : ℕ := 0x00080000
def clientConnectWithDb : ℕ := 0x00000008
def clientDeprecateEof : ℕ := 0x01000000

inductive HandshakeError
  | framing (e : FramingError)
  | clientClosed
  | malformed (what : String)
  | legacyProtocol
  | authFailed

structure ParsedHandshakeResponse where
  clientCaps : ℕ
  username : Bytes
  authResponse : Bytes
  database : Option Bytes
  authPlugin : Option Bytes

structure AcceptedSession where
  envName : String
  clientUsernameSeen : String
  database : Option String

def hasCap (caps bit : ℕ) : Bool := caps &&& bit ≠ 0

def fromLe (bytes : Bytes) : ℕ := bytes.foldr (fun b acc => b.toNat + 256 * acc) 0

/-- A NUL-terminated string at `cur`, and the position after it. -/
def nulStringAt (buf : Bytes) (cur : ℕ) (missing : String) :
    Outcome HandshakeError (Bytes × ℕ) := do
  let tail ← Outcome.slice buf cur buf.length
  let (text, n) ← Outcome.ofOption (.malformed missing) (readNulString tail)
  return (text, cur + n)

/-- The authentication response at `cur`, with a length byte or a NUL, and what follows. -/
def authResponseAt (buf : Bytes) (caps cur : ℕ) : Outcome HandshakeError (Bytes × ℕ) :=
  if hasCap caps clientSecureConnection then
    if buf.length ≤ cur then .err (.malformed "missing auth-response length")
    else do
      let n ← Outcome.index buf cur
      let cur := cur + 1
      if buf.length < cur + n.toNat then .err (.malformed "auth-response truncated")
      else
        let text ← Outcome.slice buf cur (cur + n.toNat)
        return (text, cur + n.toNat)
  else nulStringAt buf cur "missing legacy auth-response NUL"

def databaseAt (buf : Bytes) (caps cur : ℕ) : Outcome HandshakeError (Option Bytes × ℕ) :=
  if hasCap caps clientConnectWithDb then do
    let (db, cur) ← nulStringAt buf cur "missing database NUL"
    return (some db, cur)
  else return (none, cur)

def authPluginAt (buf : Bytes) (caps cur : ℕ) : Outcome HandshakeError (Option Bytes) :=
  if hasCap caps clientPluginAuth then do
    let (p, _) ← nulStringAt buf cur "missing auth-plugin NUL"
    return some p
  else return none

def parseHandshakeResponse (buf : Bytes) : Outcome HandshakeError ParsedHandshakeResponse :=
  if buf.length < 32 then .err (.malformed "response shorter than fixed header")
  else do
    let caps := fromLe (← Outcome.slice buf 0 4)
    if !hasCap caps clientProtocol41 then .err .legacyProtocol
    else
      let (username, cur) ← nulStringAt buf 32 "missing username NUL"
      let (authResponse, cur) ← authResponseAt buf caps cur
      let (database, cur) ← databaseAt buf caps cur
      let authPlugin ← authPluginAt buf caps cur
      return ⟨caps, username, authResponse, database, authPlugin⟩

/-! ## The exchange -/

def serverVersion : Bytes := Str.asBytes "8.4.0-mdlwhere" ++ [0]
def authPluginName : Bytes := Str.asBytes "mysql_native_password"

def serverCaps : ℕ :=
  clientProtocol41 ||| clientSecureConnection ||| clientPluginAuth ||| clientConnectWithDb |||
    clientDeprecateEof

def buildInitialHandshake (threadId : UInt32) (scramble : Bytes) : Bytes :=
  [10] ++ serverVersion ++ le 4 threadId.toNat ++ scramble.take 8 ++ [0] ++ le 2 serverCaps ++
    [0x21] ++ serverStatusAutocommit ++ le 2 (serverCaps / 2 ^ 16) ++ [21] ++
    List.replicate 10 0 ++ scramble.drop 8 ++ [0] ++ authPluginName ++ [0]

def buildAuthSwitchRequest (scramble : Bytes) : Bytes :=
  [0xFE] ++ authPluginName ++ [0] ++ scramble ++ [0]

def verifyNativeResponse (sha1 : Bytes → Bytes) (scramble clientResponse stored : Bytes) : Bool :=
  if clientResponse.length ≠ 20 then false
  else
    let inner := sha1 (scramble ++ stored)
    let recovered := List.zipWith (· ^^^ ·) clientResponse inner
    sha1 recovered == stored

/-- Every byte of the scramble is a printable character. -/
def printable (b : UInt8) : UInt8 := 0x21 + b % 94

def readHandshakePacket (seq : SequenceCounter) :
    SessionProg HandshakeError (Bytes × SequenceCounter) := do
  match ← (readPacket seq).attempt with
  | .ok p => return p
  | .error (.unexpectedEof _) => fail .clientClosed
  | .error e => fail (.framing e)

/-- `let _ = p.await` -/
def bestEffort {α : Type} (p : SessionProg FramingError α) : SessionProg HandshakeError Unit := do
  let _ ← p.attempt
  return ()

def nativeAuth (sha1 : Bytes → Bytes) (scramble response : Bytes) : ClientAuth → Bool
  | .nativePassword doubleSha1 => verifyNativeResponse sha1 scramble response doubleSha1
  | .pgCleartext _ => false

/-- Whether the client has to be switched to native password authentication. -/
def needsSwitch (parsed : ParsedHandshakeResponse) : Bool :=
  match parsed.authPlugin with
  | some p => p != authPluginName || parsed.authResponse.length != 20
  | none => parsed.authResponse.length != 20

def nativeResponse (seq : SequenceCounter) (scramble : Bytes) (parsed : ParsedHandshakeResponse) :
    SessionProg HandshakeError (Bytes × SequenceCounter) := do
  if needsSwitch parsed then
    let seq ← (writePacket seq (buildAuthSwitchRequest scramble)).mapErr .framing
    readHandshakePacket seq
  else return (parsed.authResponse, seq)

def handshake (deps : SessionDeps) (expectedEnvName : String) (auth : ClientAuth)
    (threadId : UInt32) : SessionProg HandshakeError AcceptedSession := do
  let random ← ask (.fillBytes 20)
  let scramble := random.map printable
  let seq ← (writePacket 0 (buildInitialHandshake threadId scramble)).mapErr .framing
  let (response, seq) ← readHandshakePacket seq
  match parseHandshakeResponse response with
  | .panic => lift .panic
  | .err e =>
    bestEffort (writePacket seq (errPacket 1043 "08S01" "bad handshake"))
    fail e
  | .ok parsed =>
    let usernameSeen := Str.fromUtf8Lossy parsed.username
    let (response, seq) ← nativeResponse seq scramble parsed
    let userOk := usernameSeen == expectedEnvName
    let tokenOk := nativeAuth deps.sha1 scramble response auth
    if userOk && tokenOk then
      let _ ← (writePacket seq okPacket).mapErr .framing
      return ⟨expectedEnvName, usernameSeen, parsed.database.map Str.fromUtf8Lossy⟩
    else
      bestEffort (writePacket seq (errPacket 1045 "28000" "access denied"))
      fail .authFailed

end MiddleWhere.Net
