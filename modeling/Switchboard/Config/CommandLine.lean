import Switchboard.Config.Draft

/-!
# Command lines

Arguments are read from left to right. A setting takes one value, either attached to its name or in
the next argument. An attached value is judged at once; any other is judged when the next setting
begins or the line ends, so that what cannot be read in between is the first mistake to be seen.
Settings that the line leaves open are looked for in the environment.
-/

namespace Switchboard.Config

inductive Word where
  /-- A name after two hyphens, perhaps with a value after an equals sign. -/
  | long (name : String) (value : Option String)
  /-- Letters after one hyphen. -/
  | short (letter : Char) (rest : List Char)
  /-- Two hyphens alone. -/
  | endOfOptions
  /-- Anything else; a hyphen alone is no option. -/
  | plain (text : String)
  deriving DecidableEq, Repr

/-- A name, and the value after its first equals sign. -/
def splitEquals (cs : List Char) : Word :=
  let name := String.ofList (cs.takeWhile (· ≠ '='))
  match cs.dropWhile (· ≠ '=') with
  | [] => .long name none
  | _ :: value => .long name (some (String.ofList value))

def Word.ofText (s : String) : Word :=
  match s.toList with
  | ['-', '-'] => .endOfOptions
  | '-' :: '-' :: cs => splitEquals cs
  | '-' :: c :: cs => .short c cs
  | _ => .plain s

inductive Meaning where
  | setting (s : Setting)
  | help
  | version

def meaningOfName? (name : String) : Option Meaning :=
  if name = "help" then some .help
  else if name = "version" then some .version
  else (Setting.all.find? (·.long = name)).map .setting

def meaningOfLetter? (letter : Char) : Option Meaning :=
  if letter = 'h' then some .help
  else if letter = 'V' then some .version
  else (Setting.all.find? (·.short? = some letter)).map .setting

/-- A line read in part: what has been judged, and the setting that is still to be. -/
structure Reading where
  draft : Draft
  pending : Option (Setting × Option String)
  /-- Set once two hyphens have stood alone. -/
  optionsEnded : Bool

namespace Reading

def start : Reading := ⟨.empty, none, false⟩

def judge (r : Reading) (s : Setting) (value : String) : Except UsageError Reading :=
  if r.draft.isSet s ∧ s ≠ .allowedOrigins then .error .argumentConflict
  else
    match r.draft.put value s with
    | .ok draft => .ok { r with draft, pending := none }
    | .error e => .error e

/-- Judges the setting that is still to be. -/
def resolve (r : Reading) : Except UsageError Reading :=
  match r.pending with
  | none => .ok r
  | some (_, none) => .error .invalidValue
  | some (s, some value) => r.judge s value

/-- Begins a setting, whose value may be attached. -/
def begin (r : Reading) (s : Setting) (attached : Option String) : Except UsageError Reading :=
  match r.resolve, attached with
  | .ok r, some value => r.judge s value
  | .ok r, none => .ok { r with pending := some (s, none) }
  | .error e, _ => .error e

/-- Ends the line at a request for information. -/
def finish (r : Reading) (e : UsageError) : Except UsageError Reading :=
  match r.resolve with
  | .ok _ => .error e
  | .error e => .error e

/-- A value attached to a letter, perhaps after an equals sign. -/
def attached? : List Char → Option String
  | [] => none
  | '=' :: cs => some (String.ofList cs)
  | cs => some (String.ofList cs)

/-- Reads one argument that may be an option. -/
def readWord (r : Reading) : Word → Except UsageError Reading
  | .endOfOptions => .ok { r with optionsEnded := true }
  | .long name value =>
    match meaningOfName? name, value with
    | some (.setting s), value => r.begin s value
    | some .help, none => r.finish .displayHelp
    | some .version, none => r.finish .displayVersion
    | some _, some _ => .error .tooManyValues
    | none, _ => .error .unknownArgument
  | .short letter rest =>
    match meaningOfLetter? letter with
    | some (.setting s) => r.begin s (attached? rest)
    | some .help => r.finish .displayHelp
    | some .version => r.finish .displayVersion
    | none => .error .unknownArgument
  | .plain text =>
    match r.pending with
    | some (s, none) => .ok { r with pending := some (s, some text) }
    | _ => .error .unknownArgument

/-- Reads one argument; after the options have ended there is nothing it could be. -/
def read (r : Reading) (arg : String) : Except UsageError Reading :=
  if r.optionsEnded then .error .unknownArgument else r.readWord (.ofText arg)

end Reading

def readLine (args : List String) : Except UsageError Draft := do
  let r ← args.foldlM Reading.read Reading.start
  let r ← r.resolve
  return r.draft

/-- Looks for what a line has left open in the environment. -/
def readVariables (environment : List (String × String)) (d : Draft) : Except UsageError Draft :=
  Setting.all.foldlM (fun d s =>
    if d.isSet s then .ok d
    else
      match environment.lookup s.variableName with
      | some value => d.put value s
      | none => .ok d) d

/-- Reads a configuration from a command line and the environment. -/
def read (args : List String) (environment : List (String × String)) :
    Except UsageError Config := do
  let d ← readLine args
  let d ← readVariables environment d
  return d.complete

end Switchboard.Config
