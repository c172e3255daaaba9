import Switchboard.Hub.Exchange

/-!
# Routes

What plain requests are answered: the state of the instance on one path, and on another the reasons
why a request is no way to open a WebSocket.
-/

namespace Switchboard.Web

open Json (Value)

structure Request where
  method : String
  /-- The path, perhaps with a query or a fragment. -/
  path : String
  headers : List (String × String)
  deriving Repr

/-- The parts of a response that tell one from another. -/
structure Response where
  status : Nat
  contentType : Option String
  allow : Option String
  body : String
  deriving DecidableEq, Repr

/-- A text in lower case, as far as ASCII goes. -/
def lower (s : String) : String := s.map Char.toLower

/-- The value of a header; the case of names does not matter. -/
def Request.header? (r : Request) (name : String) : Option String :=
  (r.headers.find? fun (n, _) => lower n = name).map (·.2)

def Request.route (r : Request) : String :=
  String.ofList (r.path.toList.takeWhile fun c => c ≠ '?' && c ≠ '#')

def plain (status : Nat) (body : String) : Response :=
  ⟨status, some "text/plain; charset=utf-8", none, body⟩

/-- What is there no more and no less. -/
def notFound : Response := ⟨404, none, none, ""⟩

/-- A path that is there, for other methods. -/
def methodNotAllowed : Response := ⟨405, none, some "GET,HEAD", ""⟩

/-- The response to a question for the head alone. -/
def Response.withoutBody (r : Response) : Response := { r with body := "" }

def health (online : Nat) (stats : Stats) : Response :=
  let body := Value.object [("status", .text "healthy"), ("onlineCount", .number (.int online)),
    ("stats", .object stats.members)]
  ⟨200, some "application/json", none, body.toText⟩

def occursIn (part : List Char) : List Char → Bool
  | [] => part.isEmpty
  | c :: cs => part.isPrefixOf (c :: cs) || occursIn part cs

/-- Why a request does not open a WebSocket; one that nothing is wrong with has no line to take. -/
def refuseUpgrade (r : Request) : Response :=
  let mentions (name part : String) : Bool :=
    (r.header? name).any fun v => occursIn part.toList (lower v).toList
  let equals (name value : String) : Bool := (r.header? name).any fun v => lower v = value
  if !mentions "connection" "upgrade" then
    plain 400 "Connection header did not include 'upgrade'"
  else if !equals "upgrade" "websocket" then
    plain 400 "`Upgrade` header did not include 'websocket'"
  else if !equals "sec-websocket-version" "13" then
    plain 400 "`Sec-WebSocket-Version` header did not include '13'"
  else if (r.header? "sec-websocket-key").isNone then
    plain 400 "`Sec-WebSocket-Key` header missing"
  else plain 426 "WebSocket request couldn't be upgraded since no upgrade state was present"

def respond (online : Nat) (stats : Stats) (r : Request) : Response :=
  match r.route, r.method with
  | "/health", "GET" => health online stats
  | "/health", "HEAD" => (health online stats).withoutBody
  | "/ws", "GET" => refuseUpgrade r
  | "/ws", "HEAD" => plain 405 ""
  | "/health", _ | "/ws", _ => methodNotAllowed
  | _, _ => notFound

end Switchboard.Web
