import Switchboard.Error

/-!
# Schema versions

The versions of the wire format that are in service, and the migration of encoded frames from one to
another. A frame is never handed on uninterpreted: without a migration the request fails.
-/

namespace Switchboard.Wire

inductive Version where
  | v1
  deriving DecidableEq, Repr

namespace Version

/-- What new frames are written in. -/
def current : Version := v1

def supported : List Version := [v1]

/-- The name of a version on the wire. -/
def name : Version → String
  | v1 => "v1"

def ofName? (name : String) : Option Version := supported.find? (·.name = name)

/-- The supported version of a name, or the error that there is none. -/
def check (name : String) : Except Error Version :=
  match ofName? name with
  | some v => .ok v
  | none => .error (.protocol (.unsupportedVersion name) "Unsupported schema version")

end Version

/-- Turns an encoded frame into one of another version. -/
abbrev Migration := List UInt8 → Except Error (List UInt8)

/-- The migrations at hand, the last registered first. -/
structure Migrations where
  entries : List ((String × String) × Migration)

namespace Migrations

def empty : Migrations := ⟨[]⟩

/-- Adds a migration; it takes the place of an earlier one between the same versions. -/
def register (ms : Migrations) (source target : String) (m : Migration) : Migrations :=
  ⟨((source, target), m) :: ms.entries⟩

/-- Turns an encoded frame into one of another version; between a version and itself there is
nothing to do. -/
def migrate (ms : Migrations) (bytes : List UInt8) (source target : String) :
    Except Error (List UInt8) :=
  if source = target then
    match Version.check source with
    | .ok _ => .ok bytes
    | .error e => .error e
  else
    match ms.entries.lookup (source, target) with
    | some m => m bytes
    | none =>
      .error (.protocol (.migrationNotImplemented source target)
        "No migration registered between these schema versions")

end Migrations

end Switchboard.Wire
