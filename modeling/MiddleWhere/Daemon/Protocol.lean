import MiddleWhere.Core.Audit
import MiddleWhere.Core.Mutate
import MiddleWhere.Net.PgProto

/-!
# The control protocol

Requests and responses of the control channel, and the frames that carry them: four bytes
of length, then the encoding of one message. No frame is longer than `maxFrame`. The
encoding itself is third-party code.
-/

namespace MiddleWhere.Daemon
open Net (fromBe be)

def protocolVersion : UInt16 := 1

def maxFrame : ℕ := 8 * 1024 * 1024

structure BastionInputDto where
  name : String
  host : String
  port : UInt16
  sshUser : String
  auth : Mutate.BastionAuthInput
  fingerprint : Option HostKeyFingerprint

structure EnvInputDto where
  name : String
  backendHost : String
  backendPort : Option UInt16
  engine : EngineKind
  database : Option String
  bastion : Option String
  credential : String
  policy : Policy
  listenPort : Option UInt16
  maxPool : Option UInt32

structure CredInputDto where
  name : String
  backendUser : String
  password : String

inductive Request
  | hello (version : UInt16)
  | addBastion (dto : BastionInputDto)
  | rmBastion (name : String)
  | setFingerprint (bastion : String) (fingerprint : HostKeyFingerprint)
  | addCred (dto : CredInputDto)
  | rotateCred (name password : String)
  | rmCred (name : String)
  | addEnv (dto : EnvInputDto)
  | rmEnv (name : String)
  | grant (env : String)
  | setPolicy (env : String) (target : Mutate.PolicyTarget) (confirmUnsafe : Bool)
  | import_ (fragment : Config)
  | listBastions
  | listCreds
  | listEnvs
  | auditTail (n : ℕ)
  | probe (env : Option String) (all : Bool)

structure NewEnvOutputDto where
  token : String
  listenPort : UInt16
  engine : EngineKind
  database : Option String
  note : Option String

def NewEnvOutputDto.ofOutput (o : Mutate.NewEnvOutput) : NewEnvOutputDto where
  token := o.token
  listenPort := o.listenPort
  engine := o.engine
  database := o.database
  note := none

structure ProbeResultDto where
  env : String
  ok : Bool
  supported : Bool
  reason : String

inductive Response
  | ok
  | token (dto : NewEnvOutputDto)
  | rows (rows : List String)
  | auditLines (lines : List String)
  | probeResults (results : List ProbeResultDto)
  | denied (reason : String)
  | error (msg : String)

/-- The encoding of messages. -/
structure Codec where
  decode : Bytes → Except String Request
  encode : Response → Except String Bytes

/-- `read_exact` on a buffer: the first `n` bytes and what is left. -/
def readExact (n : ℕ) (buf : Bytes) : Except String (Bytes × Bytes) :=
  if n ≤ buf.length then .ok (buf.take n, buf.drop n) else .error "failed to fill whole buffer"

def frameTooLong (len : ℕ) : String :=
  "frame length " ++ toString len ++ " exceeds MAX_FRAME " ++ toString maxFrame

def readFrame (codec : Codec) (framed : Bytes) : Except String Request := do
  let (lenBuf, rest) ← readExact 4 framed
  let len := fromBe lenBuf
  if maxFrame < len then throw (frameTooLong len)
  let (body, _) ← readExact len rest
  codec.decode body

def writeFrame (codec : Codec) (resp : Response) : Except String Bytes := do
  let body ← codec.encode resp
  if maxFrame < body.length then
    throw ("frame body " ++ toString body.length ++ " exceeds MAX_FRAME " ++ toString maxFrame)
  return be 4 body.length ++ body

end MiddleWhere.Daemon
