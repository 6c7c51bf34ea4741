import ThemeLocales.Json.Bytes
import ThemeLocales.Provider.Exchange
import ThemeLocales.Text.Quoted
import ThemeLocales.Url.Destination

/-!
# A client for rehearsals

A web client that sends nothing. It reads the address of a request, as far as an address has to be
read to be refused or to be told, and takes the answer from a script. It is the client of a run that
names no other.
-/

set_option autoImplicit false

namespace ThemeLocales.Provider

/-- How a request can fail before there is a response. -/
inductive TransportFault
  | timeout
  | connection
  deriving DecidableEq, Repr

/-- The name of a transport fault in messages. -/
def TransportFault.name : TransportFault → String
  | timeout => "ReadTimeout"
  | connection => "ConnectError"

/-- An answer of a script. -/
inductive WebAnswer
  | response (status : Int) (body : String)
  | failed (fault : TransportFault) (message : String)
  deriving DecidableEq, Repr

/-- A request that was given an answer: an address without its query, and the parameters. -/
structure WebRequest where
  url : String
  parameters : List (String × String)
  deriving DecidableEq, Repr

namespace Rehearsal

/-- The statuses that a script uses for failures. -/
def isFailureStatus (status : Int) : Bool :=
  400 ≤ status || status = 301 || status = 302

/-- What comes of a response. -/
def outcomeOfResponse (status : Int) (body : String) : WebOutcome :=
  if isFailureStatus status then .failed "HTTPStatusError" ("HTTP " ++ toString status)
  else match Json.parseBytes? body.toUTF8 with
    | some d => .data d
    | none => .failed "ValueError" "invalid JSON body"

/-- What comes of an answer from an address. Without a scheme and a host, no response can be told to
come from there. -/
def outcomeOf (url : Url) : WebAnswer → WebOutcome
  | .failed fault message => .failed fault.name message
  | .response status body =>
    if url.isAbsolute then outcomeOfResponse status body
    else .failed "ValueError" ("unknown url type: " ++ Text.quoted url.target)

/-- The answer to a request for which no answer is left. -/
def noAnswer : WebAnswer := .failed .connection "no scripted response"

/-- The address that a request goes to, unless it is no text or no address. -/
def destination (call : WebCall) : Except Failure Url :=
  match call.address with
  | .string s =>
    match Url.destination? s call.parameters with
    | some url => .ok url
    | none => .error .invalidUrl
  | _ => .error .wrongType

/-- The request that goes out for a call, if it has an address. -/
def request? (call : WebCall) : Option WebRequest :=
  (destination call).toOption.map fun url => ⟨url.base, call.parameters⟩

/-- The client that answers from a script, one answer for each request that goes out. -/
def client (script : List WebAnswer) : WebClient := fun earlier call =>
  match destination call with
  | .error e => .broken e
  | .ok url => outcomeOf url ((script[(earlier.filterMap request?).length]?).getD noAnswer)

end Rehearsal

end ThemeLocales.Provider
