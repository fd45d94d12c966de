import MiddleWhere.Core.Config
import MiddleWhere.Data.Percent

/-!
# Connection URLs

The command line tool prints a URL for a new environment and reads the URL of a backend. The
writer escapes every component; the reader leaves the grammar of URLs to a library and decodes
the components that it gets.
-/

namespace MiddleWhere.Ctl

/-- `url::Url`: username, password and path are as they stand in the text. -/
structure Url where
  scheme : String
  username : String
  password : Option String
  host : Option String
  port : Option UInt16
  path : String
deriving DecidableEq

structure UrlLib where
  parse : String → Except String Url
  /-- What `{:?}` prints of a text. -/
  debug : String → String

structure ParsedUrl where
  engine : EngineKind
  host : String
  port : Option UInt16
  database : Option String
  dbUser : String
  password : Option String
deriving DecidableEq

def percentDecode (s : String) : String := Percent.decodeText s

def pct (s : String) : String := Percent.encodeText s

/-- `url.path().trim_start_matches('/')` -/
def trimSlashes (path : String) : String := String.ofList (path.toList.dropWhile (· == '/'))

section
variable (lib : UrlLib)

def schemeEngine (scheme : String) : Except String EngineKind :=
  if scheme = "postgres" ∨ scheme = "postgresql" then .ok .postgres
  else if scheme = "mysql" ∨ scheme = "mariadb" then .ok .mySql
  else .error ("unsupported url scheme " ++ lib.debug scheme ++
    "; use postgres:// or mysql:// (mssql is not implemented yet)")

def hostOf (url : Url) : Except String String :=
  match url.host.filter (· ≠ "") with
  | some host => .ok host
  | none => .error "connection url has no host"

def databaseOf (path : String) : Option String :=
  let path := trimSlashes path
  if path = "" then none else some (percentDecode path)

def parseConnectionUrl (raw : String) : Except String ParsedUrl := do
  let url ← (lib.parse raw).mapError fun e =>
    "parse connection url " ++ lib.debug raw ++ ": " ++ e
  let engine ← schemeEngine lib url.scheme
  let host ← hostOf url
  let dbUser := percentDecode url.username
  if dbUser = "" then
    throw ("connection url has no username; add one (postgres://<user>@host/db) " ++
      "or use --credential to reuse a login you already added")
  return {
    engine := engine, host := host, port := url.port, database := databaseOf url.path,
    dbUser := dbUser, password := url.password.map percentDecode }

end

/-- The path of the URL: an empty name is no name. -/
def uriPath (database : Option String) : String :=
  match database.filter (· ≠ "") with
  | some db => "/" ++ pct db
  | none => ""

def engineUri (engine : EngineKind) (env token : String) (port : UInt16)
    (database : Option String) : Option String :=
  let authority := pct env ++ ":" ++ pct token ++ "@127.0.0.1:" ++ toString port.toNat
  let path := uriPath database
  match engine with
  | .postgres => some ("postgresql://" ++ authority ++ path ++ "?sslmode=disable")
  | .mySql => some ("mysql://" ++ authority ++ path)
  | .msSql => none

end MiddleWhere.Ctl
