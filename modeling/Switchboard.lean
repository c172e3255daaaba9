import Switchboard.Authorizer
import Switchboard.Config.CommandLine
import Switchboard.Config.Draft
import Switchboard.Config.Environment
import Switchboard.Connection.Client
import Switchboard.Connection.Reader
import Switchboard.Connection.Settings
import Switchboard.Connection.Socket
import Switchboard.Connection.Writer
import Switchboard.Decimal.Double
import Switchboard.Decimal.Shortest
import Switchboard.Digest.Hmac
import Switchboard.Digest.Sha256
import Switchboard.Domain.Audience
import Switchboard.Domain.Event
import Switchboard.Domain.Publisher
import Switchboard.Error
import Switchboard.Hub.Exchange
import Switchboard.Hub.Queue
import Switchboard.Hub.Requests
import Switchboard.Identity
import Switchboard.Json.Numeral
import Switchboard.Json.Octets
import Switchboard.Json.Printer
import Switchboard.Json.Spelling
import Switchboard.Json.Token
import Switchboard.Json.Tree
import Switchboard.Json.Value
import Switchboard.Main
import Switchboard.Membership
import Switchboard.Proofs.Cascade
import Switchboard.Proofs.Confluence
import Switchboard.Proofs.Delivery
import Switchboard.Proofs.Endurance
import Switchboard.Proofs.Presence
import Switchboard.Proofs.Sending
import Switchboard.Proofs.Succession
import Switchboard.System.Schedule
import Switchboard.System.World
import Switchboard.Text.Base64
import Switchboard.Text.Blank
import Switchboard.Text.Combining
import Switchboard.Text.Hex
import Switchboard.Text.Printable
import Switchboard.Text.Quoted
import Switchboard.Text.Utf8
import Switchboard.Time.Reader
import Switchboard.Time.Timestamp
import Switchboard.Token.Claims
import Switchboard.Token.Header
import Switchboard.Token.Part
import Switchboard.Token.Validator
import Switchboard.Topic
import Switchboard.Web.Instance
import Switchboard.Web.Routes
import Switchboard.Wire.Control
import Switchboard.Wire.Envelope
import Switchboard.Wire.Fields
import Switchboard.Wire.Message
import Switchboard.Wire.Version
import Switchboard.Proofs.Lanes
import Switchboard.Proofs.Course
import Switchboard.Proofs.Tickets
import Switchboard.Proofs.Accounts
import Switchboard.Proofs.Departure
import Switchboard.Proofs.Entitlement
import Switchboard.Proofs.Digits
import Switchboard.Proofs.Lexemes
import Switchboard.Proofs.Grammar
import Switchboard.Proofs.Meaning
import Switchboard.Proofs.Fields
import Switchboard.Proofs.Rounding
import Switchboard.Proofs.Magnitude
import Switchboard.Proofs.Commands
import Switchboard.Proofs.Rendering
import Switchboard.Proofs.Moments
import Switchboard.Proofs.RoundTrip
import Switchboard.Proofs.Traffic
import Switchboard.Proofs.Ordering
import Switchboard.Proofs.Record
import Switchboard.Proofs.Erasure
import Switchboard.Proofs.Life
import Switchboard.Proofs.Transcript
import Switchboard.Proofs.Handshake
import Switchboard.Proofs.Desk
import Switchboard.Proofs.Writing
import Switchboard.Proofs.Stopping
import Switchboard.Proofs.Keys
import Switchboard.Proofs.Balance
import Switchboard.Proofs.Handover
import Switchboard.Proofs.Shutdown
import Switchboard.Proofs.Veil
import Switchboard.Proofs.Discretion
import Switchboard.Proofs.Anonymity
import Switchboard.Proofs.Gate
import Switchboard.Proofs.Canonical
import Switchboard.Proofs.Halves
import Switchboard.Proofs.Silence
import Switchboard.Proofs.Output
import Switchboard.Proofs.Breaches
import Switchboard.Proofs.Winding
import Switchboard.Proofs.Report
import Switchboard.Proofs.Names
import Switchboard.Proofs.Circles
import Switchboard.Proofs.Authorization
import Switchboard.Proofs.Contention
import Switchboard.Proofs.Fates
import Switchboard.Proofs.Rulings
import Switchboard.Proofs.Answering
import Switchboard.Proofs.Copies
import Switchboard.Proofs.Turns
import Switchboard.Proofs.Audiences
import Switchboard.Proofs.Limits
import Switchboard.Proofs.Acceptance
