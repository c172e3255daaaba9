import Switchboard.Digest.Hmac
import Switchboard.Error
import Switchboard.Identity
import Switchboard.Text.Base64
import Switchboard.Text.Blank
import Switchboard.Token.Claims
import Switchboard.Token.Header

/-!
# Validating bearer tokens

A token is a header, claims and a signature with points between them. It is believed when the
signature is the keyed digest of everything before the last point under the shared secret, and when
it has not expired. Without a secret no token is believed.
-/

namespace Switchboard.Token

open Text

/-- Seconds since the start of 1970. -/
abbrev UnixTime := Nat

/-- For how many seconds after its time a token still holds. -/
def leeway : Nat := 60

/-- The name shown for a user whose token has none. -/
def defaultName : String := "Anonymous"

/-- Splits a text at its last point. -/
def splitLast? (s : List Char) : Option (List Char × List Char) :=
  match s.reverse.dropWhile (· ≠ '.') with
  | [] => none
  | _ :: first => some (first.reverse, (s.reverse.takeWhile (· ≠ '.')).reverse)

/-- The tree in a part of a token. -/
def partTree? (part : List Char) : Option Json.Tree :=
  (base64Octets? part).bind Json.Tree.ofOctets?

/-- The claims of a token that is signed with a secret. -/
def signedClaims? (secret : List UInt8) (token : List Char) : Option Claims := do
  let (signed, signature) ← splitLast? token
  let (header, claims) ← splitLast? signed
  let signature ← base64Octets? signature
  if !isHeader (← partTree? header) then none
  if Digest.hmacSha256 secret (utf8 (String.ofList signed)) ≠ signature then none
  Claims.ofTree? (← partTree? claims)

/-- Whether claims no longer hold. -/
def Claims.isExpired (c : Claims) (now : UnixTime) : Bool := c.expires + leeway < now

def Claims.identity (c : Claims) : Identity :=
  ⟨c.subject, c.name.getD defaultName, c.isAnonymous⟩

def validate (secret : Option String) (now : UnixTime) (token : String) : Except Error Identity :=
  if isAllBlank token.toList then .error (.auth .missingToken "Empty bearer token")
  else
    match secret with
    | none => .error (.auth .invalidToken "Token validation is not configured")
    | some secret =>
      match signedClaims? (utf8 secret) token.toList with
      | none => .error (.badToken .invalidToken)
      | some claims =>
        if claims.isExpired now then .error (.badToken .expired)
        else if claims.hasAudience then .error (.badToken .invalidToken)
        else if claims.subject = "" then .error (.auth .invalidToken "Token has no subject")
        else .ok claims.identity

end Switchboard.Token
