import MiddleWhere.Core.Config
import MiddleWhere.Data.Str

/-!
# Client tokens

A token is 32 random bytes written with 64 characters. The proxy keeps only a hash of it:
SHA1(SHA1(token)), which native password authentication checks an answer against, or
SHA-256(token) for the cleartext exchange. The hash functions are third-party code.
-/

namespace MiddleWhere.Token

def tokenRandBytes : ℕ := 32

def alphabet : List Char :=
  "ABCDEFGHIJKLMNOPQRSTUVWXYZabcdefghijklmnopqrstuvwxyz0123456789_-".toList

/-- `ALPHABET[(n & 0x3F) as usize] as char` -/
def digit (n : ℕ) : Char := alphabet.getD (n % 64) 'A'

/-- Three bytes make four characters; one or two bytes that are left make two or three. -/
def encode : Bytes → List Char
  | a :: b :: c :: rest =>
    let n := a.toNat * 2 ^ 16 + b.toNat * 2 ^ 8 + c.toNat
    digit (n / 2 ^ 18) :: digit (n / 2 ^ 12) :: digit (n / 2 ^ 6) :: digit n :: encode rest
  | [a, b] =>
    let n := a.toNat * 2 ^ 16 + b.toNat * 2 ^ 8
    [digit (n / 2 ^ 18), digit (n / 2 ^ 12), digit (n / 2 ^ 6)]
  | [a] =>
    let n := a.toNat * 2 ^ 16
    [digit (n / 2 ^ 18), digit (n / 2 ^ 12)]
  | [] => []

/-- `raw` is what the random generator filled in. -/
def generateToken (raw : Bytes) : String := String.ofList (encode raw)

structure Hashes where
  sha1 : Bytes → Bytes
  sha256 : Bytes → Bytes

variable (hashes : Hashes)

def doubleSha1 (password : Bytes) : Bytes := hashes.sha1 (hashes.sha1 password)

def verifyPgCleartext (presented storedSha256 : Bytes) : Bool :=
  hashes.sha256 presented == storedSha256

/-- What a client that knows `password` answers to `scramble`. -/
def nativeResponse (password scramble : Bytes) : Bytes :=
  List.zipWith (· ^^^ ·) (hashes.sha1 password) (hashes.sha1 (scramble ++ doubleSha1 hashes password))

/-- What the proxy stores for a token of an environment of `engine`. -/
def clientAuthFor (engine : EngineKind) (token : String) : ClientAuth :=
  match engine with
  | .postgres => .pgCleartext (hashes.sha256 (Str.asBytes token))
  | .mySql | .msSql => .nativePassword (doubleSha1 hashes (Str.asBytes token))

theorem authMatches_clientAuthFor (engine : EngineKind) (token : String) :
    authMatches engine (clientAuthFor hashes engine token) = true := by
  cases engine <;> rfl

end MiddleWhere.Token
