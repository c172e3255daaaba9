import Switchboard.Config.Draft
import Switchboard.System.World
import Switchboard.Token.Validator

/-!
# Instances

A configuration at work: its secret judges tokens, and its limits hold for every WebSocket.
-/

namespace Switchboard.Web

/-- How an instance judges tokens, with the time by which they expire. -/
def service (c : Config) (now : Token.UnixTime) : Service :=
  ⟨Token.validate c.jwtSecret now, 0⟩

def openSocket (c : Config) (w : World) : ConnectionId × World :=
  w.openConnection c.settings (.new .webSocket)

end Switchboard.Web
