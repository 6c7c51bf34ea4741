import ThemeLocales.Config.Defaults
import ThemeLocales.World

/-!
# Files for a new project

A project starts with a default configuration file, and a custom adapter with a generated module
whose class is named after it. A file that is there already is left alone.
-/

set_option autoImplicit false

namespace ThemeLocales.Scaffold

open Operation

/-- Whether a character belongs to the words of a name. -/
def isWordChar (c : Char) : Bool :=
  ('0' ≤ c && c ≤ '9') || ('A' ≤ c && c ≤ 'Z') || ('a' ≤ c && c ≤ 'z')

/-- The words of a name, which anything but letters and digits separates. -/
def words (name : String) : List (List Char) :=
  (name.toList.splitOnP fun c => !isWordChar c).filter fun word => !word.isEmpty

/-- A word with a capital first letter. -/
def capitalized : List Char → List Char
  | [] => []
  | c :: cs => c.toUpper :: cs

/-- The words of a name in one. -/
def joinedWords (name : String) : List Char :=
  match (words name).flatMap capitalized with
  | [] => "Custom".toList
  | cs => cs

/-- The class name of an adapter: its words in one, with a letter in front and `Adapter` at the
end. -/
def adapterClassName (name : String) : String :=
  let joined := joinedWords name
  let lettered := if joined.head?.any Char.isDigit then "Adapter".toList ++ joined else joined
  let text := String.ofList lettered
  if Text.endsIn "Adapter" text then text else text ++ "Adapter"

/-- The directory of generated adapters. -/
def adaptersDirectory : String := "translate_adapters"

/-- The text of a generated adapter before its class name. -/
def adapterFront : String :=
  "from typing import Mapping, Optional\n" ++
  "\n" ++
  "from theme_i18n.adapters.base_adapter import TranslationAdapter, TranslationResult\n" ++
  "\n" ++
  "\n" ++
  "class "

/-- The text of a generated adapter after its class name. -/
def adapterBack : String :=
  "(TranslationAdapter):\n" ++
  "    \"\"\"Custom translation adapter.\"\"\"\n" ++
  "\n" ++
  "    async def translate(\n" ++
  "            self,\n" ++
  "            text: str,\n" ++
  "            source_language: str,\n" ++
  "            target_language: str,\n" ++
  "            lang_map: Optional[Mapping[str, str]] = None\n" ++
  "    ) -> TranslationResult:\n" ++
  "        # Replace with a call to your translation provider.\n" ++
  "        return TranslationResult(\n" ++
  "            source_lang=source_language,\n" ++
  "            target_lang=target_language,\n" ++
  "            source_text=text,\n" ++
  "            translated_text=f\"[\x7btarget_language\x7d] \x7btext\x7d\"\n" ++
  "        )\n"

/-- The text of a generated adapter. -/
def adapterText (className : String) : String :=
  adapterFront ++ className ++ adapterBack

/-- The class name in a generated adapter, if a text is one. -/
def adapterClass? (text : String) : Option String := do
  let rest ← Text.after? adapterFront.toList text.toList
  let (name, _) ← Text.cutAt? adapterBack.toList rest
  return String.ofList name

/-- Generates an adapter below a project's directory; its path, unless it was there already. -/
def generateAdapter (root name : String) : Operation (Option String) := do
  let directory := Path.join root adaptersDirectory
  let path := Path.join directory (name ++ ".py")
  if ← isThere path then
    logMessage .info ("Adapter '" ++ name ++ "' already exists at '" ++ path ++ "'.")
    return none
  makeDirectories directory
  writeText path (adapterText (adapterClassName name))
  logMessage .info ("Generated adapter '" ++ path ++ "'. Set adapter_path to use it.")
  return some path

/-- Creates the default configuration in a project's directory; its path, unless it was there
already. -/
def createConfig (root : String) : Operation (Option String) := do
  let path := Path.join root Config.fileName
  if ← isThere path then
    logMessage .info ("'" ++ path ++ "' already exists.")
    return none
  writeText path Config.defaultText
  logMessage .info ("Created '" ++ path ++ "'.")
  return some path

end ThemeLocales.Scaffold
