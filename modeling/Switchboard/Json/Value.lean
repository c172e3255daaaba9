import Switchboard.Json.Tree

/-!
# Values

What a JSON text means once all of it is understood. An object's members are kept sorted by name,
one for each name, so two values are equal exactly when they hold the same data. A tree has a value
when its strings spell text, its numbers are in range and it does not nest too deep.
-/

namespace Switchboard.Json

/-- A JSON value; the members of an object are sorted by name and each name occurs once. -/
inductive Value where
  | null
  | bool (value : Bool)
  | number (value : Number)
  | text (value : String)
  | array (items : List Value)
  | object (members : List (String × Value))
  deriving BEq, Repr

instance : Inhabited Value := ⟨.null⟩

/-- Sets a member in a sorted list; a name that is there already gets the new value. -/
def setMember {α : Type} (name : String) (value : α) : List (String × α) → List (String × α)
  | [] => [(name, value)]
  | (n, v) :: rest =>
    if name < n then (name, value) :: (n, v) :: rest
    else if name = n then (name, value) :: rest
    else (n, v) :: setMember name value rest

/-- Members in the order written, sorted; of a repeated name the last member counts. -/
def sortMembers {α : Type} (members : List (String × α)) : List (String × α) :=
  members.foldl (fun sorted (n, v) => setMember n v sorted) []

def Value.ofMembers (members : List (String × Value)) : Value := .object (sortMembers members)

mutual

/-- The value of a tree that nests at most `depth` containers. -/
def Tree.value? (depth : Nat) : Tree → Option Value
  | .null => some .null
  | .bool b => some (.bool b)
  | .number n => n.number?.map .number
  | .text s => s.text?.map .text
  | .array items =>
    match depth with
    | 0 => none
    | depth + 1 => (values? depth items).map .array
  | .object members =>
    match depth with
    | 0 => none
    | depth + 1 => (members? depth members).map .ofMembers

def values? (depth : Nat) : List Tree → Option (List Value)
  | [] => some []
  | t :: rest =>
    match t.value? depth with
    | none => none
    | some v => (values? depth rest).map (v :: ·)

/-- The names and values of an object's members, in the order written. -/
def members? (depth : Nat) : List (Spelling × Tree) → Option (List (String × Value))
  | [] => some []
  | (name, t) :: rest =>
    match name.text? with
    | none => none
    | some name =>
      match t.value? depth with
      | none => none
      | some v => (members? depth rest).map ((name, v) :: ·)

end

/-- How many containers a text may nest. -/
def maxDepth : Nat := 127

/-! ## Looking inside -/

namespace Value

def get? (name : String) : Value → Option Value
  | .object members => members.lookup name
  | _ => none

/-- The text of a value that is one. -/
def text? : Value → Option String
  | .text s => some s
  | _ => none

/-- The texts of a value that is an array of nothing else. -/
def texts? : Value → Option (List String)
  | .array items => items.mapM text?
  | _ => none

/-- Nothing for null, the text of a text; any other value has neither. -/
def textOrNull? : Value → Option (Option String)
  | .null => some none
  | .text s => some (some s)
  | _ => none

end Value

end Switchboard.Json
