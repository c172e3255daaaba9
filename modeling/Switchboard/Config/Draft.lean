import Switchboard.Config.Environment
import Switchboard.Connection.Settings

/-!
# Configuration

What an instance can be told: the settings by name, the form of each one's value, and what holds
when nothing is said. A configuration is drafted one value at a time and then completed.
-/

namespace Switchboard

namespace Config

inductive LogLevel where
  | off
  | error
  | warn
  | info
  | debug
  | trace
  deriving DecidableEq, Repr

def LogLevel.all : List LogLevel := [off, error, warn, info, debug, trace]

def LogLevel.name : LogLevel → String
  | off => "OFF"
  | error => "ERROR"
  | warn => "WARN"
  | info => "INFO"
  | debug => "DEBUG"
  | trace => "TRACE"

/-- Why a command line is not a configuration. -/
inductive UsageError where
  /-- A value is missing, or none of those there are. -/
  | invalidValue
  /-- A value does not have the form it should. -/
  | valueValidation
  | unknownArgument
  | argumentConflict
  /-- A value is given to something that takes none. -/
  | tooManyValues
  /-- Not a mistake: help was asked for. -/
  | displayHelp
  /-- Not a mistake: the version was asked for. -/
  | displayVersion
  deriving DecidableEq, Repr

/-- Whether what was asked for is information, not an instance. -/
def UsageError.isRequest : UsageError → Bool
  | displayHelp | displayVersion => true
  | _ => false

/-- The settings, in the order they are looked at. -/
inductive Setting where
  | allowedOrigins
  | jwtSecret
  | queueCapacity
  | heartbeatSecs
  | pongSecs
  | writeSecs
  | maxFrameBytes
  | maxAuthAttempts
  | interface
  | port
  | logLevel
  | environment
  deriving DecidableEq, Repr

namespace Setting

def all : List Setting :=
  [allowedOrigins, jwtSecret, queueCapacity, heartbeatSecs, pongSecs, writeSecs, maxFrameBytes,
    maxAuthAttempts, interface, port, logLevel, environment]

/-- The name of a setting on the command line. -/
def long : Setting → String
  | allowedOrigins => "allowed-origins"
  | jwtSecret => "jwt-secret"
  | queueCapacity => "ws-outbound-queue-capacity"
  | heartbeatSecs => "ws-heartbeat-interval-secs"
  | pongSecs => "ws-pong-timeout-secs"
  | writeSecs => "ws-write-timeout-secs"
  | maxFrameBytes => "ws-max-frame-bytes"
  | maxAuthAttempts => "ws-max-auth-attempts"
  | interface => "interface"
  | port => "port"
  | logLevel => "log-level-filter"
  | environment => "runtime-env"

/-- The letter of a setting on the command line. -/
def short? : Setting → Option Char
  | interface => some 'i'
  | port => some 'p'
  | logLevel => some 'l'
  | environment => some 'r'
  | _ => none

def variableName (s : Setting) : String :=
  String.ofList (s.long.toList.map fun c => if c = '-' then '_' else c.toUpper)

end Setting

structure Draft where
  allowedOrigins : Option (List String)
  jwtSecret : Option String
  queueCapacity : Option Nat
  heartbeatSecs : Option Nat
  pongSecs : Option Nat
  writeSecs : Option Nat
  maxFrameBytes : Option Nat
  maxAuthAttempts : Option Nat
  interface : Option String
  port : Option Nat
  logLevel : Option LogLevel
  environment : Option Environment
  deriving Repr

/-! ## Forms of values -/

/-- The natural that a string of digits stands for. -/
def digitsValue? : List Char → Option Nat
  | [] => none
  | cs => cs.foldlM (fun n c => if c.isDigit then some (n * 10 + (c.toNat - 48)) else none) 0

/-- A natural below a limit, perhaps after a plus sign. -/
def unsigned? (limit : Nat) (s : String) : Option Nat :=
  let digits := match s.toList with
    | '+' :: cs => cs
    | cs => cs
  (digitsValue? digits).filter (· < limit)

/-- A natural below a limit, read as a signed number: a negative zero is one. -/
def signed? (limit : Nat) (s : String) : Option Nat :=
  match s.toList with
  | '-' :: cs => (digitsValue? cs).filter (· = 0)
  | _ => unsigned? limit s

/-- The parts of a text between commas. -/
def commaParts (cs : List Char) : List (List Char) :=
  cs.foldr (fun c parts =>
    match c, parts with
    | ',', parts => [] :: parts
    | c, part :: parts => (c :: part) :: parts
    | c, [] => [[c]]) [[]]

def origins (s : String) : List String := (commaParts s.toList).map String.ofList

def LogLevel.ofName? (name : String) : Option LogLevel := all.find? (·.name = name)

/-- The environment of a name, all in one case. -/
def environment? (name : String) : Option Environment :=
  Environment.all.find? fun e => e.name = name ∨ e.name.map Char.toUpper = name

/-- The limit of the naturals that 64 bits hold. -/
def limit64 : Nat := Nat.pow 2 64

/-- The limit of the naturals that 32 bits hold. -/
def limit32 : Nat := Nat.pow 2 32

/-- The limit of the naturals that 16 bits hold. -/
def limit16 : Nat := Nat.pow 2 16

namespace Draft

def empty : Draft :=
  ⟨none, none, none, none, none, none, none, none, none, none, none, none⟩

def isSet (d : Draft) : Setting → Bool
  | .allowedOrigins => d.allowedOrigins.isSome
  | .jwtSecret => d.jwtSecret.isSome
  | .queueCapacity => d.queueCapacity.isSome
  | .heartbeatSecs => d.heartbeatSecs.isSome
  | .pongSecs => d.pongSecs.isSome
  | .writeSecs => d.writeSecs.isSome
  | .maxFrameBytes => d.maxFrameBytes.isSome
  | .maxAuthAttempts => d.maxAuthAttempts.isSome
  | .interface => d.interface.isSome
  | .port => d.port.isSome
  | .logLevel => d.logLevel.isSome
  | .environment => d.environment.isSome

/-- A value of the wrong form, or none of those there are. -/
def orElse {α : Type} (e : UsageError) (v : Option α) (set : α → Draft) : Except UsageError Draft :=
  match v with
  | some v => .ok (set v)
  | none => .error e

/-- Sets a value; origins add to those already given. -/
def put (d : Draft) (value : String) : Setting → Except UsageError Draft
  | .allowedOrigins =>
    .ok { d with allowedOrigins := some (d.allowedOrigins.getD [] ++ origins value) }
  | .jwtSecret => .ok { d with jwtSecret := some value }
  | .queueCapacity =>
    orElse .valueValidation (unsigned? limit64 value) fun n => { d with queueCapacity := some n }
  | .heartbeatSecs =>
    orElse .valueValidation (unsigned? limit64 value) fun n => { d with heartbeatSecs := some n }
  | .pongSecs =>
    orElse .valueValidation (unsigned? limit64 value) fun n => { d with pongSecs := some n }
  | .writeSecs =>
    orElse .valueValidation (unsigned? limit64 value) fun n => { d with writeSecs := some n }
  | .maxFrameBytes =>
    orElse .valueValidation (unsigned? limit64 value) fun n => { d with maxFrameBytes := some n }
  | .maxAuthAttempts =>
    orElse .valueValidation (signed? limit32 value) fun n => { d with maxAuthAttempts := some n }
  | .interface => .ok { d with interface := some value }
  | .port => orElse .valueValidation (signed? limit16 value) fun n => { d with port := some n }
  | .logLevel =>
    orElse .invalidValue (LogLevel.ofName? value) fun l => { d with logLevel := some l }
  | .environment =>
    orElse .invalidValue (environment? value) fun e => { d with environment := some e }

end Draft

end Config

structure Config where
  /-- The sites whose pages may connect. -/
  allowedOrigins : List String
  /-- What tokens are signed with; without it none is believed. -/
  jwtSecret : Option String
  queueCapacity : Nat
  heartbeatSecs : Nat
  pongSecs : Nat
  writeSecs : Nat
  maxFrameBytes : Nat
  maxAuthAttempts : Nat
  interface : String
  port : Nat
  logLevel : Config.LogLevel
  environment : Config.Environment
  deriving Repr

/-- What holds where nothing was said. -/
def Config.Draft.complete (d : Draft) : Config where
  allowedOrigins := d.allowedOrigins.getD ["http://localhost:3000", "https://localhost:3000"]
  jwtSecret := d.jwtSecret
  queueCapacity := d.queueCapacity.getD 256
  heartbeatSecs := d.heartbeatSecs.getD 54
  pongSecs := d.pongSecs.getD 60
  writeSecs := d.writeSecs.getD 10
  maxFrameBytes := d.maxFrameBytes.getD 16384
  maxAuthAttempts := d.maxAuthAttempts.getD 3
  interface := d.interface.getD "127.0.0.1"
  port := d.port.getD 4000
  logLevel := d.logLevel.getD .info
  environment := d.environment.getD .development

def Config.settings (c : Config) : Settings where
  queueCapacity := c.queueCapacity
  heartbeat := c.heartbeatSecs * 1000
  pong := c.pongSecs * 1000
  write := c.writeSecs * 1000
  maxFrameBytes := c.maxFrameBytes
  maxAuthAttempts := c.maxAuthAttempts

end Switchboard
