/-!
# Identities

Who a connection speaks for. An identity is settled once, by the handshake, and stays.
-/

namespace Switchboard

structure Identity where
  userId : String
  displayName : String
  isAnonymous : Bool
  deriving DecidableEq, Repr

/-- The name that others may see. -/
def Identity.publicName (i : Identity) : Option String :=
  if i.isAnonymous then none else some i.displayName

end Switchboard
