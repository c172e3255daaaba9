import Switchboard.Json.Octets
import Switchboard.Wire.Fields

/-!
# Parts of a token

The header and the claims of a bearer token are objects whose members are read one by one, each in
its own way, so their values are kept as they are written.
-/

namespace Switchboard.Token

open Json
open Wire (lookupOnce decodeNames?)

/-- Members of an object: decoded names, and values as written. -/
abbrev Members := List (String × Tree)

def members? : Tree → Option Members
  | .object members => decodeNames? members
  | _ => none

def text? : Tree → Option String
  | .text s => s.text?
  | _ => none

/-- The value of a member that occurs once. -/
def one? (members : Members) (name : String) : Option Tree := (lookupOnce name members).join

/-- Whether a member occurs at most once and what is there passes a test. -/
def passes (members : Members) (name : String) (test : Tree → Bool) : Bool :=
  match lookupOnce name members with
  | none => false
  | some none => true
  | some (some t) => test t

end Switchboard.Token
