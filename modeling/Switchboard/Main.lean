import Switchboard.Config.CommandLine

/-!
# The command line

Reads the configuration of an instance from the arguments and the environment and says where the
instance would listen, or what is wrong with the command line.
-/

namespace Switchboard

/-- What to say of a command line that is not a configuration. -/
def usageMessage : Config.UsageError → String
  | .invalidValue => "a value is missing, or is none of those there are"
  | .valueValidation => "a value does not have the form it should"
  | .unknownArgument => "an argument is not known"
  | .argumentConflict => "a setting is given twice"
  | .tooManyValues => "a value is given to something that takes none"
  | .displayHelp =>
    "Settings: " ++ ", ".intercalate (Config.Setting.all.map fun s => "--" ++ s.long)
  | .displayVersion => "1.0.0-beta1"

/-- The variables of the environment that settings are looked for in. -/
def readEnvironment : IO (List (String × String)) :=
  Config.Setting.all.filterMapM fun s => do
    return (← IO.getEnv s.variableName).map (s.variableName, ·)

/-- Reads the command line and reports on it. -/
def runCommandLine (args : List String) : IO UInt32 := do
  match Config.read args (← readEnvironment) with
  | .ok c =>
    IO.println (c.environment.name ++ " on " ++ c.interface ++ ":" ++ toString c.port)
    return 0
  | .error e =>
    if e.isRequest then
      IO.println (usageMessage e)
      return 0
    else
      IO.eprintln (usageMessage e)
      return 2

end Switchboard

def main (args : List String) : IO UInt32 := Switchboard.runCommandLine args
