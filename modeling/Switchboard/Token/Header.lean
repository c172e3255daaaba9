import Switchboard.Token.Part

/-!
# Token headers

The first part of a bearer token says how it is signed. Only one algorithm is taken. The other
members have no effect, but each that is known must have the form it is known by and may occur only
once, and any other must be a text. A value that names an entry of a list may also be written as an
object with the name for its only member.
-/

namespace Switchboard.Token

open Json

/-- Whether a value is an array of texts. -/
def isTexts : Tree → Bool
  | .array items => items.all fun t => (text? t).isSome
  | _ => false

/-! ## Choices -/

def isNull : Tree → Bool
  | .null => true
  | _ => false

/-- Whether a value is null or an object without members. -/
def isNothing : Tree → Bool
  | .null | .object [] => true
  | _ => false

/--
The entry of a list that a value names: by a text, or by the name of an only member whose value
passes for none.
-/
def choice? (passesForNone : Tree → Bool) : Tree → Option String
  | .text s => s.text?
  | .object [(name, t)] => if passesForNone t then name.text? else none
  | _ => none

/-! ## Forms -/

/-- A form that a member of a header or a key can have. -/
inductive Form where
  | text
  | texts
  /-- The name of an algorithm, be it known or not. -/
  | algorithm
  deriving DecidableEq, Repr

/-- Whether a value is null or has a form. -/
def fits : Form → Tree → Bool
  | _, .null => true
  | .text, t => (text? t).isSome
  | .texts, t => isTexts t
  | .algorithm, t => (choice? isNothing t).isSome

/-! ## Keys -/

/-- The members of a key that may be missing or null. -/
def keyOptions : List (String × Form) :=
  [("use", .text), ("key_ops", .texts), ("alg", .algorithm), ("kid", .text), ("x5u", .text),
    ("x5c", .texts), ("x5t", .text), ("x5t#S256", .text)]

structure KeyKind where
  name : String
  texts : List String
  /-- The curves that one may lie on; where there are none, none is named. -/
  curves : List String

def knownCurves : List String := ["P-256", "P-384", "P-521", "Ed25519"]

def KeyKind.all : List KeyKind :=
  [⟨"EC", ["x", "y"], knownCurves⟩, ⟨"RSA", ["n", "e"], []⟩, ⟨"oct", ["k"], []⟩,
    ⟨"OKP", ["x"], knownCurves⟩]

/-- Whether members describe a key of a kind. What another kind has is passed over. -/
def KeyKind.fits (kind : KeyKind) (members : Members) : Bool :=
  (one? members "kty").bind (choice? isNull) == some kind.name &&
    kind.texts.all (fun name => ((one? members name).bind text?).isSome) &&
    (kind.curves.isEmpty ||
      ((one? members "crv").bind (choice? isNull)).any kind.curves.contains)

def isKey (t : Tree) : Bool :=
  match members? t with
  | none => false
  | some members =>
    keyOptions.all (fun (name, form) => passes members name (fits form)) &&
      KeyKind.all.any (·.fits members)

/-! ## Headers -/

/-- The members that may be missing or null, apart from a key. -/
def headerOptions : List (String × Form) :=
  [("typ", .text), ("cty", .text), ("jku", .text), ("kid", .text), ("x5u", .text), ("x5c", .texts),
    ("x5t", .text), ("x5t#S256", .text), ("crit", .texts), ("enc", .text), ("zip", .text),
    ("url", .text), ("nonce", .text)]

/-- The one algorithm that is taken. -/
def algorithm : String := "HS256"

/-- Whether a member is one that headers are known to have. -/
def isKnown (name : String) : Bool :=
  name == "alg" || name == "jwk" || headerOptions.any (·.1 == name)

/-- Whether members name the algorithm and are otherwise well formed. -/
def areHeader (members : Members) : Bool :=
  (one? members "alg").bind (choice? isNull) == some algorithm &&
    headerOptions.all (fun (name, form) => passes members name (fits form)) &&
    passes members "jwk" (fun t => isNull t || isKey t) &&
    members.all fun (name, t) => isKnown name || (text? t).isSome

/-- Whether a tree is a header. All of it has to make sense, also what has no effect. -/
def isHeader (t : Tree) : Bool := (t.value? maxDepth).isSome && (members? t).any areHeader

end Switchboard.Token
