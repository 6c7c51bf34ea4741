import ThemeLocales.Provider.Cache
import ThemeLocales.Provider.Options
import ThemeLocales.Provider.Placeholder
import ThemeLocales.Provider.Retry

/-!
# The OpenAI provider

Each text is sent to a chat model, its markup replaced by tokens. An error of the service is tried
again, after the delay that its response asks for.
-/

set_option autoImplicit false

namespace ThemeLocales.Provider

open Operation

/-- A client of the service. -/
structure Chat where
  modelName : Document
  maxRetries : Int
  cacheFile : Option String
  deriving Repr

namespace Chat

/-- The model that is used unless an option names another. -/
def defaultModel : String := "gpt-4o-mini"

/-- The cache file that is used unless an option names another. -/
def defaultCacheFile : String := "openai-translate-cache.json"

/-- The temperature of a request. -/
def temperature : Binary64 := .ofRatio false 3 10

/-- The seconds after which a request is given up. -/
def timeout : Binary64 := .ofRatio false 60 1

/-- The instructions for the model. -/
def instructions (source target : String) : String :=
  "\nYou are an expert translator specializing in website theme localization. " ++
  "Translate the text given by the user from " ++ source ++ " to " ++ target ++ ".\n\n" ++
  "**Instructions**:\n" ++
  "- **Do not translate or modify placeholder tokens**: Any text enclosed within double " ++
  "underscores `__` (e.g., `__PH_abc123__`) should remain exactly as is.\n" ++
  "- **Preserve formatting**: Keep line breaks, punctuation style and surrounding whitespace.\n" ++
  "- **Do not add** any additional characters or punctuation (e.g., no square brackets, " ++
  "quotation marks, etc.).\n" ++
  "- **Provide only** the translated text.\n\n" ++
  "The text is a user interface string of a website theme. " ++
  "Keep translations brief and consistent with typical web terminology.\n"

/-- The message of a client without a key. -/
def noKey : String :=
  "OPENAI_API_KEY is not set and no api_key adapter option was given."

/-- The key of an account, from the options or else from the environment. -/
def apiKey (options : Options) : Operation Document := do
  match options.present? "api_key" with
  | some key => return key
  | none =>
    match ← environmentValue? "OPENAI_API_KEY" with
    | some key => if key = "" then throw (.translation noKey) else return .string key
    | none => throw (.translation noKey)

/-- Connects a client with options, whatever key it has. -/
def connect (options : Options) : Operation Chat := do
  let modelName := options.getD "model_name" (.string defaultModel)
  let maxRetries ← ofResult (Options.toInteger (options.getD "max_retries" (.int 5)))
  let perMinute ← ofResult (Options.toInteger (options.getD "requests_per_minute" (.int 60)))
  modify fun w => { w with rates := w.rates ++ [⟨.int perMinute, .int 60⟩] }
  let cacheFile ← ofResult (Options.toPath? (← workingPath)
    (options.getD "cache_file" (.string defaultCacheFile)))
  Cache.reopen
  return ⟨modelName, maxRetries, cacheFile⟩

/-- Connects a client that must have a key. -/
def connectWithKey (options : Options) : Operation (Chat × Document) := do
  let chat ← connect options
  return (chat, ← apiKey options)

/-! ## Requests -/

/-- The outcome of one request. -/
inductive Outcome
  | content (text : Option String)
  | failed (kind message : String) (retryAfter : Option String)
  deriving DecidableEq, Repr

/-- A letter without its case. -/
def lowerAscii (s : String) : String :=
  s.map Number.asciiLower

/-- The values of a header, whose name has no case, with commas between them. -/
def header? (name : String) (headers : List (String × String)) : Option String :=
  match headers.filter fun (n, _) => lowerAscii n = lowerAscii name with
  | [] => none
  | found => some (String.intercalate ", " (found.map Prod.snd))

/-- Whether an error of this kind comes with a response. -/
def hasResponse : ChatFault → Bool
  | .rateLimit => true
  | .status => true
  | _ => false

/-- The text of an error. -/
def faultText (fault : ChatFault) (message : String) : String :=
  match fault with
  | .timeout => "Request timed out."
  | _ => message

/-- The outcome that an answer stands for. -/
def outcomeOf (sent : String) : ChatAnswer → Except Failure Outcome
  | .content text => .ok (.content text)
  | .edited replacements =>
    .ok (.content (some (replacements.foldl (fun s (a, b) => Text.replaced a b s) sent)))
  | .failed fault message headers =>
    .ok (.failed fault.name (faultText fault message)
      (if hasResponse fault then header? "Retry-After" headers else none))
  | .broken message => .error (.client message)

/-- The answer to a request for which no answer is left. -/
def noAnswer : ChatAnswer := .failed .other "no scripted response" []

/-- Sends a request and takes its answer. -/
def send (request : ChatRequest) : Operation Outcome := do
  let w ← get
  set { w with chatRequests := w.chatRequests ++ [request], chatAnswers := w.chatAnswers.tail }
  ofResult (outcomeOf request.user (w.chatAnswers.head?.getD noAnswer))

/-! ## Translating -/

/-- What is done with one text. -/
structure Task where
  text : String
  source : String
  target : String
  request : ChatRequest
  table : List (String × String)
  deriving Repr

/-- How a task is called in messages. -/
def Task.description (t : Task) : String :=
  "OpenAI translation of '" ++ t.text ++ "' (" ++ t.source ++ " -> " ++ t.target ++ ")"

/-- The translation that the text of an answer gives: its markup restored, and without wrapping
that the source does not have. -/
def finishedText (t : Task) (content : Option String) : String :=
  Placeholder.clean
    (Placeholder.restore (Text.trimmed (content.getD "")) t.table) t.text

/-- The translation in an answer; it goes into the cache. -/
def accept (c : Chat) (t : Task) (content : Option String) : Operation Translation := do
  let translated := finishedText t content
  if translated = "" then
    throw (.translation (t.description ++ " returned an empty translation."))
  let result := Translation.ofText t.source t.target t.text (.string translated)
  match c.cacheFile with
  | some path => Cache.store path result
  | none => pure ()
  return result

/-- Makes up to so many attempts, the first of them with a given number. -/
def attempts (c : Chat) (t : Task) : (remaining attempt : Nat) → Operation Translation
  | 0, _ =>
    throw (.translation
      (t.description ++ " failed after " ++ toString c.maxRetries ++ " attempts."))
  | remaining + 1, attempt => do
    match ← send t.request with
    | .failed kind message retryAfter =>
      logMessage .error ("API error occurred: " ++ kind ++ " - " ++ message)
      let requested ← Retry.readHeader retryAfter
      let delay := (requested.map Document.real).getD .null
      if ← Retry.again attempt c.maxRetries (.int 1) t.description delay then
        c.attempts t remaining (attempt + 1)
      else throw (.translation (t.description ++ " failed: " ++ message))
    | .content text => c.accept t text

/-- Replaces the markup of a text by tokens that no other text of the run has. -/
def extractPlaceholders (text : String) : Operation (String × List (String × String)) := do
  let made := (← get).tokens
  let (processed, table) := Placeholder.extract (fun n => .ofNat 128 (made + n + 1)) text
  modify fun w => { w with tokens := w.tokens + table.length }
  return (processed, table)

/-- The cached translation of a text, if there is a cache and it has one. -/
def cached (c : Chat) (text source target : String) : Operation (Option Translation) :=
  match c.cacheFile with
  | some path => Cache.get path text source target
  | none => pure none

/-- Translates a text. -/
def translate (c : Chat) (text source target : String) (map : LanguageMap) :
    Operation Translation := do
  match ← c.cached text source target with
  | some translation => return translation
  | none =>
    if text = "" then return .ofText source target text (.string "")
    let sourceCode ← ofResult (resolveLanguage map source)
    let targetCode ← ofResult (resolveLanguage map target)
    let (processed, table) ← extractPlaceholders text
    let request := ⟨c.modelName, instructions sourceCode targetCode, processed⟩
    c.attempts ⟨text, source, target, request, table⟩ c.maxRetries.toNat 1

/-- The provider of a client. -/
def adapter (c : Chat) : Adapter := ⟨c.translate⟩

end Chat

end ThemeLocales.Provider
