import Switchboard.Token.Part

/-!
# Token claims

The second part of a bearer token says who its bearer is and until when it holds. Members that are
not known are passed over. Three more are known and not used; one of them, an audience, makes a
token one for somebody else.
-/

namespace Switchboard.Token

open Json
open Wire (lookupOnce)

/-- What a token says about its bearer. -/
structure Claims where
  subject : String
  name : Option String
  isAnonymous : Bool
  /-- The last second the token holds, counted from the start of 1970. -/
  expires : Nat
  /-- Whether the token is meant for an audience. -/
  hasAudience : Bool
  deriving DecidableEq, Repr

/-! ## Claims that are used -/

/-- The text of a member that may be null. -/
def nameClaim? : Option Tree → Option (Option String)
  | none | some .null => some none
  | some t => (text? t).map some

/-- A member that is true or false, false when missing. -/
def flagClaim? : Option Tree → Option Bool
  | none => some false
  | some (.bool b) => some b
  | some _ => none

/-- A time: a natural of 64 bits. -/
def timeClaim? : Tree → Option Nat
  | .number n =>
    match n.int? with
    | some i => if 0 ≤ i then some i.toNat else none
    | none => none
  | _ => none

/-! ## Claims that are only looked at -/

/--
Whether reading a string comes to its end, even if it fails there. It fails at the end when all that
is wrong is that the second half of a last pair is missing, or that some octets are no text: those
are only judged all together.
-/
def Spelling.readsToEnd : Spelling → Bool
  | [] => true
  | .literal _ :: rest | .escaped _ :: rest | .stray _ :: rest => readsToEnd rest
  | [.half h] => isHigh h
  | .half h :: .half l :: rest => isHigh h && isLow l && readsToEnd rest
  | .half _ :: _ => false

/-- The largest power of ten that a number of 32 bits with a sign can name. -/
def largestPower : Nat := Nat.pow 2 31 - 1

/--
Whether reading a number comes to its end, even if it fails there. A number that is not zero and
whose power of ten is past the largest is given up at the digit that shows it, which must then be
the last.
-/
def Numeral.readsToEnd (n : Numeral) : Bool :=
  n.whole.all (·.val = 0) && n.fraction.all (·.val = 0) ||
    (n.exponent.getD 0).toNat / 10 ≤ largestPower

/--
Whether reading a value comes to its end, even if it fails there: what is wrong may only be the
last thing in it. A value that is read so far and no further spoils the text after it.
-/
def readsToEnd (depth : Nat) : Tree → Bool
  | .null | .bool _ => true
  | .number n => Numeral.readsToEnd n
  | .text s => Spelling.readsToEnd s
  | .array items =>
    match depth with
    | 0 => false
    | depth + 1 => lastReads depth items
  | .object members =>
    match depth with
    | 0 => false
    | depth + 1 => lastMemberReads depth members
where
  lastReads (depth : Nat) : List Tree → Bool
    | [] => true
    | [t] => readsToEnd depth t
    | t :: rest => (t.value? depth).isSome && lastReads depth rest
  lastMemberReads (depth : Nat) : List (Spelling × Tree) → Bool
    | [] => true
    | [(name, t)] => name.text?.isSome && readsToEnd depth t
    | (name, t) :: rest =>
      name.text?.isSome && (t.value? depth).isSome && lastMemberReads depth rest

/-- Whether a start time can be passed over: anything but a container with something in it. -/
def startPasses : Tree → Bool
  | .array items => items.isEmpty
  | .object members => members.isEmpty
  | .number n => Numeral.readsToEnd n
  | .text s => Spelling.readsToEnd s
  | .null | .bool _ => true

/-- Whether an audience is named: by a text or a list of texts. -/
def isAudience (t : Tree) : Bool :=
  match t with
  | .text s => s.text?.isSome
  | .array items => items.all fun t => (text? t).isSome
  | _ => false

/-! ## All of them -/

/-- Whether the claims that are not used can be passed over. -/
def unusedPass (members : Members) : Bool :=
  let depth := maxDepth - 1
  passes members "nbf" startPasses && passes members "iss" (readsToEnd depth) &&
    passes members "aud" (readsToEnd depth)

def Claims.ofTree? (t : Tree) : Option Claims := do
  let members ← members? t
  let subject ← text? (← one? members "sub")
  let name ← nameClaim? (← lookupOnce "name" members)
  let isAnonymous ← flagClaim? (← lookupOnce "anon" members)
  let expires ← timeClaim? (← one? members "exp")
  if !unusedPass members then none
  return ⟨subject, name, isAnonymous, expires, (one? members "aud").any isAudience⟩

end Switchboard.Token
