/-!
# Deployment environments

Where an instance runs. The name is read without regard to the case of its letters.
-/

namespace Switchboard.Config

/-- Where an instance runs. -/
inductive Environment where
  | development
  | production
  | staging
  deriving DecidableEq, Repr

def Environment.all : List Environment := [development, production, staging]

def Environment.name : Environment → String
  | development => "development"
  | production => "production"
  | staging => "staging"

/-- The environment of a name in any case. -/
def Environment.ofName? (name : String) : Option Environment :=
  -- no letter outside ASCII becomes one of these names in lower case
  let lower := String.ofList (name.toList.map Char.toLower)
  all.find? (·.name = lower)

end Switchboard.Config
