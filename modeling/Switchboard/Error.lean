import Switchboard.Text.Quoted

/-!
# Errors

What can go wrong on behalf of a connection, by what it does to that connection: a protocol error
ends it, an authentication error fails one attempt of the handshake, a denial answers one channel,
a delivery error ends the receiver alone. Each has a code for clients and a description for logs.
-/

namespace Switchboard

open Text

/-- Malformed or disallowed traffic from a client. -/
inductive ProtocolFault where
  | malformed
  | unsupportedVersion (version : String)
  | unknownControlType (type : String)
  /-- A client tried to publish. -/
  | clientEventFrame
  | invalidFrame (what : String)
  | frameTooLarge
  | binaryFrame
  | notAuthenticated
  | alreadyAuthenticated
  | migrationNotImplemented (source target : String)
  deriving DecidableEq, Repr

inductive AuthFault where
  | missingToken
  | invalidToken
  | expired
  deriving DecidableEq, Repr

/-- Why a connection may not listen on a channel. -/
inductive Denial where
  | unknownChannel
  | notOwner
  | notMember
  | membershipUnavailable
  deriving DecidableEq, Repr

/-- Why a frame could not be put on a queue. -/
inductive DeliveryFault where
  | queueFull
  | queueClosed
  deriving DecidableEq, Repr

/-- Failures of the service itself. -/
inductive InternalFault where
  | encode
  | hubUnavailable
  deriving DecidableEq, Repr

inductive Fault where
  | protocol (fault : ProtocolFault)
  | auth (fault : AuthFault)
  | authorization (denial : Denial)
  | delivery (fault : DeliveryFault)
  | internal (fault : InternalFault)
  deriving DecidableEq, Repr

/-- What an error came from: a remark, or a reader that has its own words for it. -/
inductive Origin where
  | remark (text : String)
  /-- A text that is not the JSON it should be. -/
  | json
  /-- A bearer token that does not hold up. -/
  | token
  deriving DecidableEq, Repr

/-- An error and what it came from. -/
structure Error where
  fault : Fault
  origin : Option Origin
  deriving DecidableEq, Repr

/-! ## Codes -/

def ProtocolFault.code : ProtocolFault → String
  | malformed => "malformed_frame"
  | unsupportedVersion _ => "unsupported_version"
  | unknownControlType _ => "unknown_control_type"
  | clientEventFrame => "event_frame_not_allowed"
  | invalidFrame _ => "invalid_frame"
  | frameTooLarge => "frame_too_large"
  | binaryFrame => "binary_frame_not_allowed"
  | notAuthenticated => "not_authenticated"
  | alreadyAuthenticated => "already_authenticated"
  | migrationNotImplemented _ _ => "migration_not_implemented"

def AuthFault.code : AuthFault → String
  | missingToken => "missing_token"
  | invalidToken => "invalid_token"
  | expired => "token_expired"

def Denial.code : Denial → String
  | unknownChannel => "unknown_channel"
  | notOwner => "not_owner"
  | notMember => "not_member"
  | membershipUnavailable => "membership_unavailable"

def Fault.code : Fault → String
  | protocol f => f.code
  | auth f => f.code
  | authorization d => d.code
  | delivery _ => "delivery_failed"
  | internal _ => "internal_error"

/-- Whether the connection that met the fault has to end. -/
def Fault.isFatal : Fault → Bool
  | protocol _ | delivery _ | internal _ => true
  | auth _ | authorization _ => false

/-! ## Descriptions -/

def ProtocolFault.describe : ProtocolFault → String
  | malformed => "Malformed"
  | unsupportedVersion v => "UnsupportedVersion(" ++ quoted v ++ ")"
  | unknownControlType t => "UnknownControlType(" ++ quoted t ++ ")"
  | clientEventFrame => "ClientEventFrame"
  | invalidFrame w => "InvalidFrame(" ++ quoted w ++ ")"
  | frameTooLarge => "FrameTooLarge"
  | binaryFrame => "BinaryFrame"
  | notAuthenticated => "NotAuthenticated"
  | alreadyAuthenticated => "AlreadyAuthenticated"
  | migrationNotImplemented source target =>
    "MigrationNotImplemented \x7b from: " ++ quoted source ++ ", to: " ++ quoted target ++ " \x7d"

def AuthFault.describe : AuthFault → String
  | missingToken => "MissingToken"
  | invalidToken => "InvalidToken"
  | expired => "Expired"

def Denial.describe : Denial → String
  | unknownChannel => "UnknownChannel"
  | notOwner => "NotOwner"
  | notMember => "NotMember"
  | membershipUnavailable => "MembershipUnavailable"

def DeliveryFault.describe : DeliveryFault → String
  | queueFull => "QueueFull"
  | queueClosed => "QueueClosed"

def InternalFault.describe : InternalFault → String
  | encode => "Encode"
  | hubUnavailable => "HubUnavailable"

/-- The area a fault belongs to, and the fault in it. -/
def Fault.describe : Fault → String
  | protocol f => "Protocol error: " ++ f.describe
  | auth f => "Authentication error: " ++ f.describe
  | authorization d => "Authorization denied: " ++ d.describe
  | delivery f => "Delivery error: " ++ f.describe
  | internal f => "Internal error: " ++ f.describe

namespace Error

def code (e : Error) : String := e.fault.code

/-- Whether the connection that met the error has to end. -/
def isFatal (e : Error) : Bool := e.fault.isFatal

def message (e : Error) : String := e.fault.describe

def protocol (fault : ProtocolFault) (remark : String) : Error :=
  ⟨.protocol fault, some (.remark remark)⟩

def auth (fault : AuthFault) (remark : String) : Error := ⟨.auth fault, some (.remark remark)⟩

def delivery (fault : DeliveryFault) (remark : String) : Error :=
  ⟨.delivery fault, some (.remark remark)⟩

def internal (fault : InternalFault) (remark : String) : Error :=
  ⟨.internal fault, some (.remark remark)⟩

/-- A denial stands for itself. -/
def denied (denial : Denial) : Error := ⟨.authorization denial, none⟩

/-- A text that is no JSON, or not the JSON wanted. -/
def malformed : Error := ⟨.protocol .malformed, some .json⟩

/-- A bearer token that does not hold up. -/
def badToken (fault : AuthFault) : Error := ⟨.auth fault, some .token⟩

end Error

/-- Two steps that may fail come to something together when each does. -/
theorem bind_eq_ok_iff {α β ε : Type} {x : Except ε α} {g : α → Except ε β} {b : β} :
    (x >>= g) = .ok b ↔ ∃ a, x = .ok a ∧ g a = .ok b := by
  cases x <;> simp [bind, Except.bind]

end Switchboard
