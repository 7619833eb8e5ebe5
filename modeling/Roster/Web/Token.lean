import Roster.Digest.Hmac
import Roster.Text.Base64
import Roster.Text.Split
import Roster.Web.Token.Claims
import Roster.Web.Token.Header

/-!
# Bearer tokens

A token names a caller for some time: a header and claims, both JSON in base 64,
and a keyed digest of the two, joined by points. Whoever holds the secret can
issue and verify tokens.

`verify` checks the form first, then the digest, and the claims only when the
digest is right; `TokenFault` lists its checks in their order.
-/

namespace Roster

/-- Why a token is not accepted. -/
inductive TokenFault where
  /-- There are fewer than three parts. -/
  | parts
  /-- A part is not written in base 64. -/
  | encoding
  /-- The header or the claims are not as they should be. -/
  | document
  /-- The header names another way to sign. -/
  | algorithm
  /-- The digest is another one. -/
  | signature
  /-- The expiry is no time. -/
  | missingExpiry
  /-- The time of the token is over. -/
  | expired
  /-- Somebody else issued the token. -/
  | issuer
  /-- The subject is not an identifier. -/
  | subject
deriving DecidableEq, Repr

/-- The wording of a fault. -/
def TokenFault.message : TokenFault → String
  | .subject => "token subject is not a uuid"
  | _ => "invalid token"

namespace Token

/-- Who issues the tokens. -/
def issuerName : String := "talentdesk"

/-- The seconds for which an expired token is still accepted. -/
def leeway : Int := 60

/-! ## Signing -/

/-- The keyed digest of a message. -/
def sign (secret : List UInt8) (message : String) : String :=
  Base64.encode (Hmac.digest secret (Text.bytes message))

/-- A part of a token. -/
def partOf (v : Json) : String := Base64.encode (Text.bytes v.text)

/-- A token for claims. -/
def encode (secret : List UInt8) (c : Claims) : String :=
  let message := partOf header ++ "." ++ partOf c.toJson
  message ++ "." ++ sign secret message

/-- A token for a caller, issued now and valid for some seconds. -/
def issue (secret : List UInt8) (now : Int) (caller : Caller) (lifetime : Int) : String :=
  encode secret ⟨issuerName, caller.id.text, caller.role, now, now + lifetime⟩

/-! ## Verifying -/

/-- The bytes of a part. -/
def readPart (part : String) : Except TokenFault (List UInt8) :=
  match Base64.decode? part with
  | some bytes => .ok bytes
  | none => .error .encoding

/-- The JSON document that bytes are. -/
def document? (bytes : List UInt8) : Option Json := Text.ofBytes? bytes >>= Json.parse?

/-- What holds, or else a fault. -/
def require (condition : Bool) (fault : TokenFault) : Except TokenFault Unit :=
  if condition then .ok () else .error fault

/-- A value that is there, or else a fault. -/
def present {α : Type} (value : Option α) (fault : TokenFault) : Except TokenFault α :=
  match value with
  | some a => .ok a
  | none => .error fault

/-- The claims of a token that is signed with the secret, and the time at which they expire. -/
def decode (secret : List UInt8) (token : String) : Except TokenFault (Claims × Option Int) := do
  let (message, signature) ← present (Text.splitLast? token '.') .parts
  let (head, payload) ← present (Text.splitLast? message '.') .parts
  let found ← present (Json.Outline.ofBytes? (← readPart head) >>= headerAlgorithm?) .document
  require (found == algorithm) .algorithm
  require (sign secret message == signature) .signature
  let outline ← present (Json.Outline.ofBytes? (← readPart payload)) .document
  let claims ← present (Claims.ofOutline? outline) .document
  require (Claims.isPassable outline) .document
  return (claims, claims.expiry? outline)

/-- The caller whom a token names, if it is valid now. -/
def verify (secret : List UInt8) (now : Int) (token : String) : Except TokenFault Caller := do
  let (claims, expiry) ← decode secret token
  require (now - leeway ≤ (← present expiry .missingExpiry)) .expired
  require (claims.issuer == issuerName) .issuer
  let id ← present (Uuid.parse? claims.subject) .subject
  return ⟨id, claims.role⟩

end Token

end Roster
