import MiddleWhere.Core.Token
import MiddleWhere.Net.PgProto

/-!
# The PostgreSQL handshake

A client may ask for encryption any number of times before it starts; each time it is told
that there is none. It names a user in its startup parameters, is asked for a password in
cleartext, and is accepted when the user is the environment's name and the password hashes
to what the proxy stores.
-/

namespace MiddleWhere.Net
open Prog

def protocol30 : ℤ := 196608
def sslRequestCode : ℤ := 80877103
def gssencRequestCode : ℤ := 80877104
def cancelRequestCode : ℤ := 80877102

inductive Startup
  | params (p : List (String × String))
  | encryptionRequest
  | cancel

/-- Keys and values in turn, up to an empty key; a last key without a value has an empty one. -/
def startupParams : List Bytes → List (String × String)
  | [] => []
  | [k] => if k.isEmpty then [] else [(Str.fromUtf8Lossy k, Str.fromUtf8Lossy [])]
  | k :: v :: rest =>
    if k.isEmpty then [] else (Str.fromUtf8Lossy k, Str.fromUtf8Lossy v) :: startupParams rest

/-- The bytes of the code are indexed behind a check of the length. -/
def parseStartup (body : Bytes) : Except PgProtoError Startup :=
  if body.length < 4 then .error (.malformed "startup body too short")
  else
    let code := asI32 (fromBe (body.take 4))
    if code = sslRequestCode ∨ code = gssencRequestCode then .ok .encryptionRequest
    else if code = cancelRequestCode then .ok .cancel
    else if code = protocol30 then
      .ok (.params (startupParams ((body.drop 4).splitOnP (· == 0))))
    else .error (.malformed "unsupported protocol version")

def readStartup : SessionProg PgProtoError Startup := do
  let lenB ← readExact 4
  let len := asI32 (fromBe lenB)
  if 8 ≤ len ∧ len ≤ 10000 then
    let body ← readExact (len - 4).toNat
    ofExcept (parseStartup body)
  else fail (.malformed "startup length out of range")

structure PgSession where
  userSeen : String
  database : Option String

def authCleartextRequest : Outcome PgProtoError Bytes := msg 'R' (be 4 3)
def authOk : Outcome PgProtoError Bytes := msg 'R' (be 4 0)

def parameterStatus (key val : String) : Outcome PgProtoError Bytes :=
  msg 'S' (cstr key ++ cstr val)

def backendKeyData (pid secret : ℤ) : Outcome PgProtoError Bytes :=
  msg 'K' (be 4 pid ++ be 4 secret)

def greetingParams : List (String × String) :=
  [("server_version", "15.0 (middlewhere)"), ("server_encoding", "UTF8"),
    ("client_encoding", "UTF8"), ("DateStyle", "ISO, MDY"), ("integer_datetimes", "on"),
    ("standard_conforming_strings", "on")]

def concat : List (Outcome PgProtoError Bytes) → Outcome PgProtoError Bytes
  | [] => .ok []
  | frame :: frames => do
    let bytes ← frame
    let rest ← concat frames
    return bytes ++ rest

def greeting (pid secret : ℤ) : Outcome PgProtoError Bytes :=
  concat ([authOk] ++ greetingParams.map (fun kv => parameterStatus kv.1 kv.2) ++
    [backendKeyData pid secret, readyForQuery])

/-- Reads up to `n` startup packets; nothing if all of them asked for encryption. -/
def startupLoop : ℕ → SessionProg EngineError (Option (List (String × String)))
  | 0 => return none
  | n + 1 => do
    match ← readStartup.mapErr PgProtoError.toEngine with
    | .params p => return some p
    | .encryptionRequest =>
      writeRaw (.ok (Str.asBytes "N"))
      startupLoop n
    | .cancel => fail (.other "cancel request")

def paramNamed (name : String) (params : List (String × String)) : Option String :=
  (params.find? fun kv => kv.1 == name).map Prod.snd

/-- The password is what comes before the first NUL. -/
def presentedPassword (body : Bytes) : Bytes :=
  match body.splitOnP (· == 0) with
  | p :: _ => p
  | [] => body

def cleartextAuth (hashes : Token.Hashes) (presented : Bytes) : ClientAuth → Bool
  | .pgCleartext sha256 => Token.verifyPgCleartext hashes presented sha256
  | .nativePassword _ => false

def sqlstateInvalidPassword : String := "28P01"

/-- `let _ = p.await` -/
def bestEffortRaw (bytes : Outcome PgProtoError Bytes) : SessionProg EngineError Unit := do
  let _ ← (writeRaw bytes).attempt
  return ()

def authenticate (hashes : Token.Hashes) (expectedEnvName : String) (auth : ClientAuth) (pid : ℤ)
    (params : List (String × String)) : SessionProg EngineError PgSession := do
  let user := (paramNamed "user" params).getD ""
  let database := paramNamed "database" params
  writeRaw authCleartextRequest
  let (tag, body) ← readMessage.mapErr PgProtoError.toEngine
  if tag ≠ UInt8.ofNat 'p'.toNat then
    bestEffortRaw (errorResponse sqlstateInvalidPassword "expected password message")
    fail .auth
  else
    let presented := presentedPassword body
    let userOk := user == expectedEnvName
    let tokenOk := cleartextAuth hashes presented auth
    if userOk && tokenOk then
      let secret ← ask (.fillBytes 4)
      writeRaw (greeting pid (asI32 (fromBe secret)))
      return ⟨user, database⟩
    else
      bestEffortRaw (errorResponse sqlstateInvalidPassword "password authentication failed")
      fail .auth

/-- The handshake of a client that starts within `n` packets. -/
def pgHandshake (hashes : Token.Hashes) (n : ℕ) (expectedEnvName : String) (auth : ClientAuth)
    (pid : ℤ) : SessionProg EngineError (Option PgSession) := do
  match ← startupLoop n with
  | none => return none
  | some params =>
    let session ← authenticate hashes expectedEnvName auth pid params
    return some session

end MiddleWhere.Net
