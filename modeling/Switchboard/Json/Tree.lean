import Switchboard.Json.Token

/-!
# Syntax trees

What a JSON text says before anything in it is understood: members stand in order and repeat,
strings are spellings and numbers are numerals, and nothing limits how deep a tree nests. Trees are
built by one pass over the tokens with an explicit stack of the containers still open.
-/

namespace Switchboard.Json

/-- A JSON document as written. -/
inductive Tree where
  | null
  | bool (value : Bool)
  | number (value : Numeral)
  | text (value : Spelling)
  | array (items : List Tree)
  | object (members : List (Spelling × Tree))

/-- A container that is still open, its finished parts last first. -/
inductive Frame where
  | array (done : List Tree)
  | object (done : List (Spelling × Tree)) (name : Spelling)

/-- What may come next. -/
inductive Expect where
  | value
  /-- A value, or the end of an array that has just begun. -/
  | firstItem
  /-- A member's name, or the end of an object that has just begun. -/
  | firstName
  /-- A member's name, after some members and a comma. -/
  | nextName (done : List (Spelling × Tree))
  /-- The colon after a member's name. -/
  | colon (done : List (Spelling × Tree)) (name : Spelling)
  /-- What follows a finished value. -/
  | after (value : Tree)

/-- One token's worth of progress: what may come next, and the containers open around it. -/
def Expect.step (stack : List Frame) : Expect → Token → Option (Expect × List Frame)
  | .firstItem, .closeArray => some (.after (.array []), stack.tail)
  | .value, t | .firstItem, t =>
    match t with
    | .openArray => some (.firstItem, .array [] :: stack)
    | .openObject => some (.firstName, stack)
    | .null => some (.after .null, stack)
    | .bool b => some (.after (.bool b), stack)
    | .number n => some (.after (.number n), stack)
    | .text s => some (.after (.text s), stack)
    | _ => none
  | .firstName, .closeObject => some (.after (.object []), stack)
  | .firstName, .text name => some (.colon [] name, stack)
  | .nextName done, .text name => some (.colon done name, stack)
  | .colon done name, .colon => some (.value, .object done name :: stack)
  | .after v, .comma =>
    match stack with
    | .array done :: stack => some (.value, .array (v :: done) :: stack)
    | .object done name :: stack => some (.nextName ((name, v) :: done), stack)
    | [] => none
  | .after v, .closeArray =>
    match stack with
    | .array done :: stack => some (.after (.array (v :: done).reverse), stack)
    | _ => none
  | .after v, .closeObject =>
    match stack with
    | .object done name :: stack => some (.after (.object ((name, v) :: done).reverse), stack)
    | _ => none
  | _, _ => none

/-- The tree that a list of tokens completes. -/
def build (stack : List Frame) (expect : Expect) : List Token → Option Tree
  | [] =>
    match expect, stack with
    | .after v, [] => some v
    | _, _ => none
  | t :: rest =>
    match expect.step stack t with
    | none => none
    | some (expect, stack) => build stack expect rest

def Tree.ofChars? (s : List Char) : Option Tree :=
  match tokens? s with
  | none => none
  | some ts => build [] .value ts

def Tree.ofText? (s : String) : Option Tree := ofChars? s.toList

end Switchboard.Json
