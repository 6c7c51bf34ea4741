import ThemeLocales.Failure
import ThemeLocales.Document.Basic

/-!
# Exchanges with translation services

What is asked of a client and what may come of it. A web client is any function of the requests made
so far and the new one, so nothing is said about how it sends them. The answers of a chat service
are a list that the requests take from in order; when none is left, a request finds no connection.
-/

set_option autoImplicit false

namespace ThemeLocales.Provider

/-- A web request as a client is asked for it: the address, which an option may have set to any
value, and the parameters, in order. -/
structure WebCall where
  address : Document
  parameters : List (String × String)
  deriving Repr

/-- What comes of a web request. -/
inductive WebOutcome
  /-- A response without a failure, whose body is a JSON document. -/
  | data (body : Document)
  /-- An error that is expected of a client, of the transport, of the status of the response or of
  any value that cannot be read: the name of its kind, and its message. -/
  | failed (kind message : String)
  /-- Any other error that leaves a client. -/
  | broken (failure : Failure)
  deriving Repr

/-- A web client: what comes of a request when others were made before it. -/
abbrev WebClient := List WebCall → WebCall → WebOutcome

/-- The errors that a chat service reports. -/
inductive ChatFault
  | rateLimit
  | status
  | connection
  | timeout
  | other
  deriving DecidableEq, Repr

/-- The name of a chat fault in messages. -/
def ChatFault.name : ChatFault → String
  | rateLimit => "RateLimitError"
  | status => "APIStatusError"
  | connection => "APIConnectionError"
  | timeout => "APITimeoutError"
  | other => "OpenAIError"

/-- What comes back on a chat request. -/
inductive ChatAnswer
  /-- The text of the answer, if it has one. -/
  | content (text : Option String)
  /-- The text that was sent, with replacements made in it one after the other. -/
  | edited (replacements : List (String × String))
  /-- An error of the service, with the headers of its response. -/
  | failed (fault : ChatFault) (message : String) (headers : List (String × String))
  /-- A breakdown of the client itself. -/
  | broken (message : String)
  deriving DecidableEq, Repr

/-- A chat request: the model and the two messages. -/
structure ChatRequest where
  model : Document
  system : String
  user : String
  deriving Repr

/-- One answer of a provider: the language that a text was to be translated into, the text and what
the provider gave for it. -/
structure Answer where
  language : String
  text : String
  translated : Document
  deriving Repr

/-- A rate: so many requests in so many seconds. -/
structure Rate where
  requests : Document
  seconds : Document
  deriving Repr

end ThemeLocales.Provider
