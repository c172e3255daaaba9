import Switchboard.Json.Value

/-!
# Fields

The data of a tagged record before its shape is known. A record is usually written as an object,
whose members may come in any order, among others, but none of its own twice; it may also be written
as an array of its fields in order. The tag is one of the fields, the first of an array.

A header is the same thing seen before the rest of the text is understood: only its own members
have to make sense.
-/

namespace Switchboard.Wire

open Json

/-- A record's data: members by name, or items by position. -/
inductive Fields where
  | named (members : List (String × Value))
  | listed (items : List Value)

/-- The value of a name, if there is one; a name that occurs twice has none. -/
def lookupOnce {α : Type} (name : String) (members : List (String × α)) : Option (Option α) :=
  match members.filter (·.1 = name) with
  | [] => some none
  | [(_, v)] => some (some v)
  | _ => none

/-- Splits off the tag from the rest. -/
def Fields.split? (tag : String) : Fields → Option (Value × Fields)
  | named members =>
    match lookupOnce tag members with
    | some (some v) => some (v, .named (members.filter (·.1 ≠ tag)))
    | _ => none
  | listed (v :: items) => some (v, .listed items)
  | listed [] => none

/-- The values of the fields with the given names, in that order. -/
def Fields.take? (names : List String) : Fields → Option (List (Option Value))
  | named members => names.mapM (lookupOnce · members)
  | listed items =>
    if items.length ≤ names.length then
      some (items.map some ++ List.replicate (names.length - items.length) none)
    else none

/-- The data of a value that is a record. -/
def Fields.ofValue? : Value → Option Fields
  | .object members => some (.named members)
  | .array items => some (.listed items)
  | _ => none

/-- The data of a tree that is a record and nests no deeper than allowed. -/
def Fields.ofTree? : Tree → Option Fields
  | .object members => (members? (maxDepth - 1) members).map .named
  | .array items => (values? (maxDepth - 1) items).map .listed
  | _ => none

/-- The entry a tag stands for: one with that name or, where allowed, at that position. -/
def entryOf? {α : Type} (entries : List α) (name : α → String) (byPosition : Bool) :
    Value → Option α
  | .text s => entries.find? (name · = s)
  | .number (.int i) => if byPosition ∧ 0 ≤ i then entries[i.toNat]? else none
  | _ => none

/-- A text that may be null or missing. -/
def optionalText? : Option Value → Option (Option String)
  | none => some none
  | some v => v.textOrNull?

/-! ## Headers -/

/-- The names of an object's members, decoded. -/
def decodeNames? (members : List (Spelling × Tree)) : Option (List (String × Tree)) :=
  members.mapM fun (name, t) => name.text?.map (·, t)

/-- Nothing for null, the text of a string. -/
def headerText? : Tree → Option (Option String)
  | .null => some none
  | .text s => s.text?.map some
  | _ => none

/-- The texts of the header fields with the given names; every other value is passed over. -/
def header? (names : List String) : Tree → Option (List (Option String))
  | .object members =>
    match decodeNames? members with
    | none => none
    | some members =>
      names.mapM fun name =>
        match lookupOnce name members with
        | none => none
        | some none => some none
        | some (some t) => headerText? t
  | .array items => if items.length = names.length then items.mapM headerText? else none
  | _ => none

end Switchboard.Wire
