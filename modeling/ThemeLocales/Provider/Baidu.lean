import ThemeLocales.Provider.Cache
import ThemeLocales.Provider.Options
import ThemeLocales.Provider.Rate
import ThemeLocales.Provider.Retry
import ThemeLocales.Provider.Signature

/-!
# The Baidu provider

Each text is sent as one signed web request. An error that the client reports and a few error codes
of the service are tried again; any other error code, an answer without a translation, and whatever
else goes wrong in the client end the translation of the text.
-/

set_option autoImplicit false

namespace ThemeLocales.Provider

open Operation

/-- A client of the service. -/
structure Baidu where
  appid : String
  secretKey : String
  url : Document
  requestsPerSecond : Binary64
  maxRetries : Int
  timeout : Binary64
  cacheFile : Option String
  deriving Repr

namespace Baidu

/-- The address of the service. -/
def defaultUrl : String := "https://fanyi-api.baidu.com/api/trans/vip/translate"

/-- The cache file that is used unless an option names another. -/
def defaultCacheFile : String := "baidu-translate-cache.json"

/-- Error codes of the service after which a request is made again: timeout, system error, access
frequency limited, long queries too frequent. -/
def retryableCodes : List String := ["52001", "52002", "54003", "54005"]

/-- The error code that reports success. -/
def successCode : String := "52000"

/-- The codes of the service for theme languages. -/
def languageCodes : LanguageMap :=
  .ofCodes
    [("zh-CN", "zh"), ("zh-TW", "cht"), ("zh-HK", "cht"), ("zh-MO", "cht"), ("zh-SG", "zh"),
      ("en", "en"), ("en-US", "en"), ("en-GB", "en"), ("en-AU", "en"), ("en-CA", "en"),
      ("en-NZ", "en"), ("en-IE", "en"), ("pt", "pt"), ("pt-BR", "pt"), ("pt-PT", "pt"),
      ("es", "spa"), ("es-ES", "spa"), ("es-MX", "spa"), ("es-AR", "spa"), ("fr", "fra"),
      ("fr-FR", "fra"), ("fr-CA", "fra"), ("fr-BE", "fra"), ("fr-CH", "fra"), ("de", "de"),
      ("de-DE", "de"), ("de-AT", "de"), ("de-CH", "de"), ("ja", "jp"), ("ko", "kor"),
      ("vi", "vie"), ("th", "th"), ("id", "id"), ("ms", "may"), ("ar", "ara"), ("hi", "hi"),
      ("bn", "ben"), ("ru", "ru"), ("tr", "tr")]

/-! ## Connecting a client -/

/-- A text option, or else an environment variable. -/
def credential (options : Options) (name fallback : String) : Operation String := do
  match options.present? name with
  | some value => return value.shown
  | none => return (← environmentValue? fallback).getD ""

/-- Sets the rate that all clients share, unless it is set. -/
def shareRate (requestsPerSecond : Binary64) : Operation Unit := do
  if (← get).sharedRate.isNone then
    logMessage .info
      ("Initializing global Baidu rate limiter, qps: " ++ requestsPerSecond.text)
    let rate ← ofResult (Rate.perSecond (.real requestsPerSecond))
    modify fun w => { w with sharedRate := some rate, rates := w.rates ++ [rate] }

/-- Connects a client with options; what they lack comes from the environment and from defaults. -/
def connect (options : Options) : Operation Baidu := do
  let appid ← credential options "appid" "BAIDU_APPID"
  let secretKey ← credential options "secret_key" "BAIDU_SECRET_KEY"
  let url := (options.present? "url").getD (.string defaultUrl)
  let perSecond ← ofResult
    (Options.toDouble ((options.present? "qps").getD (.real (.ofRatio false 8 10))))
  let maxRetries ← ofResult (Options.toInteger (options.getD "max_retries" (.int 3)))
  let timeout ← ofResult (Options.toDouble (options.getD "timeout" (.int 30)))
  let cacheFile ← ofResult (Options.toPath? (← workingPath)
    (options.getD "cache_file" (.string defaultCacheFile)))
  Cache.reopen
  if appid = "" || secretKey = "" then
    logMessage .warning
      "Baidu appid or secret key is not configured; requests will be rejected."
  shareRate perSecond
  return ⟨appid, secretKey, url, perSecond, maxRetries, timeout, cacheFile⟩

/-! ## Requests -/

/-- The parameters of the request for a text. -/
def parameters (b : Baidu) (salt : Nat) (text fromCode toCode : String) :
    List (String × String) :=
  [("q", text), ("from", fromCode), ("to", toCode), ("appid", b.appid),
    ("salt", toString salt),
    ("sign", Signature.sign b.appid text (toString salt) b.secretKey)]

/-- Asks the web client for a request. -/
def send (call : WebCall) : Operation WebOutcome := do
  let w ← get
  set { w with webCalls := w.webCalls ++ [call] }
  return w.webClient w.webCalls call

/-! ## Answers -/

/-- The error code of an answer; empty when it has none. -/
def errorCode (body : Document) : String :=
  if body.isMap then ((body.get? "error_code").getD (.string "")).shown else ""

/-- What an error answer says. -/
def errorText (body : Document) : String :=
  "Baidu API error " ++ errorCode body ++ ": " ++
    ((body.get? "error_msg").getD (.string "")).shown

/-- The first translation of the results of an answer. -/
def firstTranslation (results : Document) : Except Failure Document :=
  if !results.isPresent then .ok (.string "")
  else match results with
    | .list (.map es :: _) => .ok ((Assoc.get? "dst" es).getD (.string ""))
    | .list _ => .error .noMember
    | .string _ => .error .noMember
    | .map _ => .error .missingKey
    | _ => .error .wrongType

/-- The translation in an answer. -/
def answerTranslation (body : Document) : Except Failure Document :=
  firstTranslation (Document.orNull (body.get? "trans_result"))

/-! ## Translating -/

/-- What is done with one text: its languages, its codes and its description. -/
structure Task where
  text : String
  source : String
  target : String
  fromCode : String
  toCode : String
  deriving Repr

/-- How a task is called in messages. -/
def Task.description (t : Task) : String :=
  "Baidu translation of '" ++ t.text ++ "' (" ++ t.fromCode ++ " -> " ++ t.toCode ++ ")"

/-- The request for a task, with the salt that is drawn in a world. -/
def call (b : Baidu) (t : Task) (w : World) : WebCall :=
  ⟨b.url, b.parameters (w.salt.draw w.webCalls.length) t.text t.fromCode t.toCode⟩

/-- Waits for another attempt, which costs one second at first. -/
def retry (b : Baidu) (t : Task) (attempt : Nat) : Operation Bool :=
  Retry.again attempt b.maxRetries (.int 1) t.description .null

/-- The translation in an answer that reports no error; it goes into the cache. -/
def accept (b : Baidu) (t : Task) (body : Document) : Operation Translation := do
  let translated ← ofResult (answerTranslation body)
  if !translated.isPresent then
    throw (.translation (t.description ++ " returned no translation: " ++ body.shown))
  logMessage .debug ("Translated '" ++ t.text ++ "' -> '" ++ translated.shown ++ "'.")
  let result := Translation.ofText t.source t.target t.text translated
  match b.cacheFile with
  | some path => Cache.store path result
  | none => pure ()
  return result

/-- Whether an answer reports an error. -/
def reportsError (body : Document) : Bool :=
  errorCode body ≠ "" && errorCode body ≠ successCode

/-- Makes up to so many attempts, the first of them with a given number. -/
def attempts (b : Baidu) (t : Task) : (remaining attempt : Nat) → Operation Translation
  | 0, _ =>
    throw (.translation
      (t.description ++ " failed after " ++ toString b.maxRetries ++ " attempts."))
  | remaining + 1, attempt => do
    match ← send (b.call t (← get)) with
    | .broken e => throw e
    | .failed kind message =>
      logMessage .error ("Baidu API request failed: " ++ kind ++ " - " ++ message)
      if ← b.retry t attempt then b.attempts t remaining (attempt + 1)
      else throw (.translation (t.description ++ " failed: " ++ message))
    | .data body =>
      if reportsError body then
        logMessage .error (errorText body)
        let again ← if errorCode body ∈ retryableCodes then b.retry t attempt else pure false
        if again then b.attempts t remaining (attempt + 1)
        else throw (.translation (t.description ++ " failed: " ++ errorText body))
      else b.accept t body

/-- The cached translation of a text, if there is a cache and it has one. -/
def cached (b : Baidu) (text source target : String) : Operation (Option Translation) :=
  match b.cacheFile with
  | some path => Cache.get path text source target
  | none => pure none

/-- Translates a text. -/
def translate (b : Baidu) (text source target : String) (map : LanguageMap) :
    Operation Translation := do
  match ← b.cached text source target with
  | some translation =>
    logMessage .debug
      ("Cache hit for '" ++ text ++ "' (" ++ source ++ " -> " ++ target ++ ").")
    return translation
  | none =>
    if text = "" then return .ofText source target text (.string "")
    let map := if map.isEmpty then languageCodes else map
    let fromCode ← ofResult (resolveLanguage map source)
    let toCode ← ofResult (resolveLanguage map target)
    b.attempts ⟨text, source, target, fromCode, toCode⟩ b.maxRetries.toNat 1

/-- The provider of a client. -/
def adapter (b : Baidu) : Adapter := ⟨b.translate⟩

end Baidu

end ThemeLocales.Provider
