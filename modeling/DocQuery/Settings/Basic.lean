import DocQuery.Lenient
import DocQuery.Settings.Expand
import DocQuery.Text.Upper

/-!
# Settings

* `Settings.load` gathers the settings from values given directly, from environment variables, from
  an environment file and from the defaults, in this order of preference.  A value given directly is
  named by the setting, and a variable by `Settings.variableStem` and the name of the setting; the
  case of letters does not matter.
* `logLevel name` is the threshold of the named log level, in any case of letters.
-/

namespace DocQuery

/-- The settings of the library. -/
structure Settings where
  logLevel : String := "INFO"
  /-- The name of the queried document in `FROM` and in field references. -/
  rootAlias : String := "c"
  /-- The field that holds the type of a document. -/
  typeField : String := "_t"
  /-- The name of the formatter. -/
  formatter : String := "documentdb"
  /-- Are assembled queries parsed, and problems reported? -/
  validateSql : Bool := false
  deriving DecidableEq, Repr, Inhabited

namespace Settings

/-- What the names of variables start with. -/
def variableStem : String := "ODATASQL_"

/-- Where settings come from. -/
structure Sources where
  /-- Values given directly, by the name of the setting. -/
  direct : List (String × Value) := []
  /-- Environment variables. -/
  environment : List (String × String) := []
  /-- The text of the environment file. -/
  file : String := ""

/-- ASCII letters in lower case. -/
def lowerAscii (s : String) : String := String.ofList (s.toList.map Char.toLower)

/-- The first value with a name, whatever the case of its letters. -/
def lookupName {α : Type} (name : String) (entries : List (String × α)) : Option α :=
  (entries.find? fun x => lowerAscii x.1 == lowerAscii name).map (·.2)

/-- The value of a setting, if a source has one.  Of values given directly the first counts, of
variables the last. -/
def Sources.find? (s : Sources) (setting : String) : Option Value :=
  match lookupName setting s.direct with
  | some v => some v
  | none =>
    let file := resolve s.environment (envFile s.file)
    let name := variableStem ++ setting
    ((lookupName name s.environment.reverse).orElse fun _ =>
      (lookupName name file.reverse).join).map .text

/-- A setting read in its own way, or its default; with the fault if it cannot be read. -/
def Sources.read {α : Type} (s : Sources) (setting : String) (default : α)
    (reader : Value → Except InputFault α) : α × List FieldFault :=
  match s.find? setting with
  | none => (default, [])
  | some v => match reader v with
    | .ok a => (a, [])
    | .error fault => (default, [⟨setting, fault⟩])

/-- Gather the settings, or all the faults there are. -/
def load (s : Sources) : Except (List FieldFault) Settings :=
  let d : Settings := {}
  let (logLevel, f₁) := s.read "log_level" d.logLevel requireText
  let (rootAlias, f₂) := s.read "root_alias" d.rootAlias requireText
  let (typeField, f₃) := s.read "type_field" d.typeField requireText
  let (formatter, f₄) := s.read "formatter" d.formatter requireText
  let (validateSql, f₅) := s.read "validate_sql" d.validateSql lenientBool
  let faults := f₁ ++ f₂ ++ f₃ ++ f₄ ++ f₅
  if faults.isEmpty then .ok { logLevel, rootAlias, typeField, formatter, validateSql }
  else .error faults

end Settings

/-! ## Log levels -/

/-- No log level has the name, which is given in upper case. -/
structure UnknownLevel where
  name : String
  deriving DecidableEq, Repr

def UnknownLevel.message (e : UnknownLevel) : String := "Unknown level: " ++ Text.quoted e.name

/-- The names of the log levels with their thresholds. -/
def logLevels : List (String × Nat) :=
  [("NOTSET", 0), ("DEBUG", 10), ("INFO", 20), ("WARN", 30), ("WARNING", 30), ("ERROR", 40),
    ("CRITICAL", 50), ("FATAL", 50)]

/-- The threshold of the named log level. -/
def logLevel (name : String) : Except UnknownLevel Nat :=
  match logLevels.lookup (Text.upper name) with
  | some n => .ok n
  | none => .error ⟨Text.upper name⟩

end DocQuery
