import ThemeLocales.Assoc
import ThemeLocales.Number.Reading
import ThemeLocales.Text.Search
import ThemeLocales.Url.Escape
import ThemeLocales.Url.HostName
import ThemeLocales.Url.NumericHost

/-!
# Web addresses

An address is written in five parts, which `Parts.ofText` takes apart. `Url.ofParts?` checks and
normalizes them: the scheme and the host in small letters, the port without what the scheme implies,
the path without dot segments, and escapes for what a part cannot hold. An address that is written
out and taken apart again can change once more, since the port of a scheme in capitals is known
only then.
-/

set_option autoImplicit false

namespace ThemeLocales

/-- The parts that an address is written in. -/
structure Url.Parts where
  scheme : String
  authority : String
  path : String
  query : Option String
  fragment : Option String
  deriving DecidableEq, Repr

/-- An address. -/
structure Url where
  scheme : String
  user : String
  /-- The name of the host; groups of a number stand without brackets. -/
  host : String
  port : Option Int
  path : String
  query : Option String
  fragment : Option String
  deriving DecidableEq, Repr

namespace Url

open Text

/-- The longest address, and the longest part of one. -/
def longest : Nat := 65536

/-! ## Taking a text apart -/

/-- Whether a character may stand in a scheme. -/
def isSchemeChar (c : Char) : Bool :=
  isAsciiAlphanumeric c || ['+', '.', '-'].contains c

/-- Whether characters are a scheme; there may be none. -/
def isScheme (cs : List Char) : Bool :=
  match cs with
  | [] => true
  | c :: _ => c.isAlpha && cs.all isSchemeChar

/-- The scheme at the front and what follows its colon. -/
def splitScheme (cs : List Char) : List Char × List Char :=
  match cs.span isSchemeChar with
  | (front, ':' :: rest) => if isScheme front then (front, rest) else ([], cs)
  | _ => ([], cs)

/-- The authority at the front, which two slashes introduce, and what follows it. -/
def splitAuthority : List Char → List Char × List Char
  | '/' :: '/' :: rest => rest.span fun c => !"/?#".toList.contains c
  | cs => ([], cs)

/-- The fragment at the end, if there is one. -/
def fragmentOf : List Char → Option String
  | '#' :: rest => some (String.ofList rest)
  | _ => none

/-- The query at the front, if there is one, and what follows it. -/
def splitQuery : List Char → Option String × List Char
  | '?' :: rest =>
    let (query, rest) := rest.span (· ≠ '#')
    (some (String.ofList query), rest)
  | cs => (none, cs)

/-- The parts of a text. -/
def Parts.ofText (s : String) : Parts :=
  let (scheme, rest) := splitScheme s.toList
  let (authority, rest) := splitAuthority rest
  let (path, rest) := rest.span fun c => !"?#".toList.contains c
  let (query, rest) := splitQuery rest
  ⟨String.ofList scheme, String.ofList authority, String.ofList path, query, fragmentOf rest⟩

/-- What stands before the last of some characters, if they have it, and what stands after it. -/
def splitAtLast (mark : Char) (cs : List Char) : List Char × List Char :=
  match cs.reverse.span (· ≠ mark) with
  | (back, _ :: front) => (front.reverse, back.reverse)
  | (_, []) => ([], cs)

/-- The host at the front and the text of its port. A host in brackets may hold colons. -/
def splitHost (cs : List Char) : List Char × List Char :=
  let (host, rest) :=
    if cs.head? = some '[' && cs.contains ']' then
      let (groups, rest) := splitAtLast ']' cs
      (groups ++ [']'], rest)
    else cs.span (· ≠ ':')
  match rest with
  | ':' :: port => (host, port)
  | port => (host, port)

/-! ## The parts of an address -/

/-- The host that a text names, if it can be one. -/
def host? (cs : List Char) : Option String :=
  if looksLikeFourNumbers cs then
    if isFourNumbers cs then some (String.ofList cs) else none
  else if cs.head? = some '[' && cs.getLast? = some ']' then
    let groups := (cs.drop 1).dropLast
    if isGroupAddress groups then some (String.ofList groups) else none
  else if cs.all fun c => c.toNat < 0x80 then
    some (escaped isHostChar (String.ofList (cs.map smallLetter)))
  else asciiName? (String.ofList cs)

/-- The port that a scheme implies. -/
def impliedPort? (scheme : String) : Option Int :=
  Assoc.get? scheme [("ftp", 21), ("http", 80), ("https", 443), ("ws", 80), ("wss", 443)]

/-- The port that a text names. The port that the scheme implies is left out, as is none at all. -/
def port? (scheme : String) (cs : List Char) : Option (Option Int) :=
  if cs.isEmpty then some none
  else match Number.readInteger (String.ofList cs) with
    | .ok n => some (if impliedPort? scheme = some n then none else some n)
    | .error _ => none

/-- Whether a path may stand in an address, with a scheme and with an authority or not. -/
def isPath (hasScheme hasAuthority : Bool) (path : String) : Bool :=
  if hasAuthority then path = "" || beginsWith "/" path
  else hasScheme || !(beginsWith "//" path || beginsWith ":" path)

/-- The segments of a path without those that stand for the segment itself or for the one above. -/
def withoutDots : List String → List String → List String
  | done, [] => done
  | done, "." :: rest => withoutDots done rest
  | done, ".." :: rest => withoutDots (if done = [""] then done else done.dropLast) rest
  | done, segment :: rest => withoutDots (done ++ [segment]) rest

/-- A path without dot segments. -/
def plainPath (path : String) : String :=
  "/".intercalate (withoutDots [] (pieces '/' path))

/-- The address that parts make, if they can make one. -/
def ofParts? (parts : Parts) : Option Url := do
  let (user, machine) := splitAtLast '@' parts.authority.toList
  let (name, number) := splitHost machine
  let user := escaped isUserChar (String.ofList user)
  let host ← host? name
  let port ← port? parts.scheme number
  let hasScheme := parts.scheme ≠ ""
  let hasAuthority := user ≠ "" || host ≠ "" || port.isSome
  if !isPath hasScheme hasAuthority parts.path then none
  else
    let path := if hasScheme || hasAuthority then plainPath parts.path else parts.path
    return {
      scheme := parts.scheme.map smallLetter
      user := user
      host := host
      port := port
      path := escaped isPathChar path
      query := parts.query.map (escaped isQueryChar)
      fragment := parts.fragment.map (escaped isFragmentChar) }

/-- Whether a text can be an address: it is not too long and has no control characters. -/
def isReadable (s : String) : Bool :=
  s.length ≤ longest && s.toList.all fun c => 0x20 ≤ c.toNat && c.toNat ≠ 0x7F

/-- Reads an address. -/
def parse? (s : String) : Option Url :=
  if isReadable s then ofParts? (.ofText s) else none

/-! ## Writing an address -/

/-- The text of the user, the host and the port. -/
def authority (u : Url) : String :=
  (if u.user = "" then "" else u.user ++ "@") ++
    (if u.host.contains ':' then "[" ++ u.host ++ "]" else u.host) ++
    (match u.port with
      | some n => ":" ++ toString n
      | none => "")

/-- The parts that an address is written in. -/
def parts (u : Url) : Parts :=
  ⟨u.scheme, u.authority, u.path, u.query, u.fragment⟩

/-- Whether no part is too long. -/
def Parts.areShort (p : Parts) : Bool :=
  [p.scheme, p.authority, p.path, p.query.getD "", p.fragment.getD ""].all fun part =>
    part.length ≤ longest

/-- The text of an address up to its query. -/
def base (u : Url) : String :=
  (if u.scheme = "" then "" else u.scheme ++ ":") ++
    (if u.authority = "" then "" else "//" ++ u.authority) ++ u.path

/-- The path and the query of an address, which a request names when it is sent. -/
def target (u : Url) : String :=
  u.path ++ (u.query.map ("?" ++ ·)).getD ""

end Url

end ThemeLocales
