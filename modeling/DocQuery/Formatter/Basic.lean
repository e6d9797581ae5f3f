import DocQuery.Text.Blank
import DocQuery.Text.Quoted

/-!
# Formatters

A `Dialect` spells field references and enumeration literals; a `Formatter` is a dialect for one
root alias, the name that the query's `FROM` clause gives to the queried document.

* `RootAlias`: an alias is trimmed and never empty; `RootAlias.ofText` makes one.
* `Dialect.documentDB`: fields hang off the alias by dots, and enumeration members are stored as
  texts.
* `Dialect.bracketed`: fields stand in brackets after the alias.
* `LogEntry`: what an operation, such as the spelling of a literal, reports beside its result.
-/

namespace DocQuery

/-! ## Reports -/

/-- How serious an entry is. -/
inductive Severity where
  | debug | warning
  deriving DecidableEq, Repr

/-- The part of the library that reports. -/
inductive Channel where
  | query | formatter
  deriving DecidableEq, Repr

/-- One report. -/
structure LogEntry where
  severity : Severity
  channel : Channel
  text : String
  deriving DecidableEq, Repr

/-! ## Dialects -/

/-- An enumeration literal as a dialect spells it.  `untyped` tells that the literal did not start
with its type's name. -/
structure EnumSpelling where
  text : String
  untyped : Bool := false
  deriving DecidableEq, Repr

/-- How a dialect spells things. -/
structure Dialect where
  /-- A property of the document known by the alias: `field root name`. -/
  field : String → String → String
  /-- A property of something already spelled: `qualify source name`. -/
  qualify : String → String → String
  /-- An enumeration literal: `enumLiteral text typeName`. -/
  enumLiteral : String → String → EnumSpelling

namespace Dialect

open Text

/-- The quoted member of an enumeration literal that starts with its type's name. -/
def quotedMember? (text typeName : String) : Option String :=
  if typeName = "" then none
  else match typeName.toList.isPrefixOf? text.toList with
    | some ('\'' :: rest) => some (String.ofList ('\'' :: rest))
    | _ => none

/-- Fields hang off the alias by dots.  An enumeration literal loses its type's name. -/
def documentDB : Dialect where
  field root name := root ++ "." ++ strip name
  qualify source name := strip source ++ "." ++ strip name
  enumLiteral text typeName := match quotedMember? text typeName with
    | some member => { text := member }
    | none => { text := text, untyped := true }

/-- Fields stand in brackets, just as they are named. -/
def bracketed : Dialect where
  field root name := root ++ "[\"" ++ name ++ "\"]"
  qualify source name := source ++ "[\"" ++ name ++ "\"]"
  enumLiteral text _ := { text := text }

end Dialect

/-- Why there is no formatter to be had. -/
inductive FormatterError where
  | blankAlias
  | nameTaken (name holder : String)
  | unknownName (name : String) (registered : List String)
  deriving DecidableEq, Repr

def FormatterError.message : FormatterError → String
  | .blankAlias => "A formatter needs a non-blank root alias"
  | .nameTaken name holder => "Formatter name '" ++ name ++ "' is already used by " ++ holder
  | .unknownName name registered =>
    let known := ", ".intercalate registered
    "No field formatter named '" ++ name ++ "' (registered: " ++
      (if known = "" then "none" else known) ++ ")"

/-- The name of the queried document: trimmed, and not empty. -/
structure RootAlias where
  text : String
  strip_text : Text.strip text = text
  text_ne_empty : text ≠ ""

namespace RootAlias

/-- The alias that a text gives once it is trimmed. -/
def ofText (s : String) : Except FormatterError RootAlias :=
  if h : Text.isBlankText s = true then .error .blankAlias
  else .ok ⟨Text.strip s, Text.strip_strip s, fun he => h (Text.strip_eq_empty_iff.1 he)⟩

/-- The alias used when none is chosen. -/
def default : RootAlias := ⟨"c", by decide, by decide⟩

end RootAlias

/-- A source of formatters: a dialect filed under a name.  Two providers are the same when their ids
are; `label` is what messages call them. -/
structure Provider where
  id : String
  label : String
  name : String
  dialect : Dialect

namespace Provider

def documentDB : Provider :=
  { id := "documentdb", label := "DocumentDBFormatter", name := "documentdb",
    dialect := .documentDB }

def bracketed : Provider :=
  { id := "bracket", label := "BracketFormatter", name := "bracket", dialect := .bracketed }

end Provider

/-- A provider's dialect for one root alias. -/
structure Formatter where
  provider : Provider
  root : RootAlias

namespace Formatter

/-- The formatter of a provider for the alias that a text gives. -/
def ofText (p : Provider) (aliasText : String) : Except FormatterError Formatter := do
  let root ← RootAlias.ofText aliasText
  return ⟨p, root⟩

/-- The formatter used when none is chosen. -/
def default : Formatter := ⟨.documentDB, .default⟩

/-- The root alias as text. -/
def aliasText (f : Formatter) : String := f.root.text

/-- A property of the queried document. -/
def field (f : Formatter) (name : String) : String := f.provider.dialect.field f.aliasText name

/-- A property of something already spelled. -/
def qualify (f : Formatter) (source name : String) : String :=
  f.provider.dialect.qualify source name

/-- A property of `source`, or of the queried document if the source is spelled by the empty
text. -/
def access (f : Formatter) (source name : String) : String :=
  if source = "" then f.field name else f.qualify source name

/-- An enumeration literal of the given type. -/
def enumLiteral (f : Formatter) (text typeName : String) : String :=
  (f.provider.dialect.enumLiteral text typeName).text

/-- What is reported about an enumeration literal: it does not start with its type's name. -/
def enumNotice? (f : Formatter) (text typeName : String) : Option LogEntry :=
  if (f.provider.dialect.enumLiteral text typeName).untyped then
    some ⟨.debug, .formatter,
      "Enum literal " ++ Text.quoted text ++ " has no " ++ Text.quoted typeName ++
        " prefix, kept as is"⟩
  else none

end Formatter

end DocQuery
