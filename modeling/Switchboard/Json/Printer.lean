import Switchboard.Json.Value

/-!
# Writing values

The one compact spelling of a value: no blanks, members in the order held, and only those
characters escaped that have to be.
-/

namespace Switchboard.Json

mutual

def Value.render : Value → List Char
  | .null => ['n', 'u', 'l', 'l']
  | .bool true => ['t', 'r', 'u', 'e']
  | .bool false => ['f', 'a', 'l', 's', 'e']
  | .number n => n.render
  | .text s => quote s
  | .array items => '[' :: renderItems items ++ [']']
  | .object members => '{' :: renderMembers members ++ ['}']

/-- Writes an array's items, a comma between two. -/
def renderItems : List Value → List Char
  | [] => []
  | [v] => v.render
  | v :: w :: rest => v.render ++ ',' :: renderItems (w :: rest)

/-- Writes an object's members, a comma between two. -/
def renderMembers : List (String × Value) → List Char
  | [] => []
  | [(n, v)] => quote n ++ ':' :: v.render
  | (n, v) :: w :: rest => quote n ++ ':' :: v.render ++ ',' :: renderMembers (w :: rest)

end

def Value.toText (v : Value) : String := String.ofList v.render

end Switchboard.Json
