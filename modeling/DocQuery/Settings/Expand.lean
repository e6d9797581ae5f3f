import DocQuery.Settings.EnvFile

/-!
# References in environment files

A value in an environment file may refer to a variable by name, with a default for a variable that
is not known: a dollar sign, and in braces the name and perhaps `:-` with the default.

* `expand lookup cs` replaces the references in a text.
* `resolve environment lines` gives the variables of a file, each in its first place and with its
  last value.  A reference sees the lines above it and then the environment.
-/

namespace DocQuery.Settings

/-- A reference to a variable. -/
structure Reference where
  name : List Char
  default : List Char := []
  deriving DecidableEq, Repr

/-- Characters of a name. -/
def isNameChar (c : Char) : Bool := c != '}' && c != ':'

/-- The reference that starts after its opening brace, and what follows its closing one. -/
def takeReference (cs : List Char) : Option (Reference × List Char) :=
  match cs.dropWhile isNameChar with
  | '}' :: rest => some ({ name := cs.takeWhile isNameChar }, rest)
  | ':' :: '-' :: tail => match tail.dropWhile (· != '}') with
    | _ :: rest =>
      some ({ name := cs.takeWhile isNameChar, default := tail.takeWhile (· != '}') }, rest)
    | [] => none
  | _ => none

theorem length_takeReference {cs : List Char} {r : Reference} {rest : List Char}
    (h : takeReference cs = some (r, rest)) : rest.length < cs.length := by
  have hle := (List.dropWhile_suffix (l := cs) isNameChar).length_le
  unfold takeReference at h
  split at h
  · rename_i heq
    obtain ⟨-, rfl⟩ := Prod.mk.injEq .. ▸ Option.some.inj h
    rw [heq] at hle
    simp only [List.length_cons] at hle
    omega
  · rename_i tail heq
    have hle' := (List.dropWhile_suffix (l := tail) (· != '}')).length_le
    split at h
    · rename_i heq'
      obtain ⟨-, rfl⟩ := Prod.mk.injEq .. ▸ Option.some.inj h
      rw [heq] at hle
      rw [heq'] at hle'
      simp only [List.length_cons] at hle hle'
      omega
    · cases h
  · cases h

/-- What a look-up tells of a variable: it is not known, or its value if it has one. -/
abbrev Lookup := String → Option (Option String)

/-- The text of a reference.  A variable that is known but has no value gives the empty text. -/
def Reference.text (lookup : Lookup) (r : Reference) : List Char :=
  match lookup (String.ofList r.name) with
  | some value => (value.getD "").toList
  | none => r.default

/-- Replace the references in a text. -/
def expand (lookup : Lookup) : List Char → List Char
  | [] => []
  | '$' :: '{' :: cs => match h : takeReference cs with
    | some (r, rest) =>
      have := length_takeReference h
      r.text lookup ++ expand lookup rest
    | none => '$' :: expand lookup ('{' :: cs)
  | c :: cs => c :: expand lookup cs
termination_by cs => cs.length

/-- Variables with their values, if they have one. -/
abbrev Variables := List (String × Option String)

/-- Give a variable a value; a variable that is there already stays in its place. -/
def setVariable (name : String) (value : Option String) : Variables → Variables
  | [] => [(name, value)]
  | (k, v) :: rest => if k = name then (k, value) :: rest else (k, v) :: setVariable name value rest

/-- Look a variable up among those set so far, and then in the environment. -/
def lookupIn (environment : List (String × String)) (set : Variables) : Lookup := fun name =>
  (set.lookup name).orElse fun _ => (environment.lookup name).map some

/-- Take in one line. -/
def resolveLine (environment : List (String × String)) (set : Variables) (line : EnvLine) :
    Variables :=
  let value := line.value.map fun v => String.ofList (expand (lookupIn environment set) v.toList)
  setVariable line.key value set

/-- The variables of an environment file. -/
def resolve (environment : List (String × String)) (lines : List EnvLine) : Variables :=
  lines.foldl (resolveLine environment) []

end DocQuery.Settings
