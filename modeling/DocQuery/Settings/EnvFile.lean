import DocQuery.Text.Blank

/-!
# Environment files

`envFile s` lists the variables that an environment file sets, in order.  A line is blank, a comment
after `#`, or `KEY=value` with an optional `export` in front and blanks around `=`.  A value in
single or double quotes may hold anything, with backslash escapes; any other value ends before a `#`
that follows a blank, and is trimmed.  A key without `=` has no value.  Lines that fit none of this
are passed over, and so is a byte order mark at the start.
-/

namespace DocQuery.Settings

open Text

/-- Line ends become line feeds. -/
def unifyLines : List Char → List Char
  | [] => []
  | '\r' :: '\n' :: cs => '\n' :: unifyLines cs
  | '\r' :: cs => '\n' :: unifyLines cs
  | c :: cs => c :: unifyLines cs

/-- Blanks within a line. -/
def isLineBlank (c : Char) : Bool := isBlank c && c != '\n'

/-- Drop the rest of the line, its end included. -/
def dropLine (cs : List Char) : List Char := (cs.dropWhile (· != '\n')).drop 1

/-- The text up to the quote `q` that closes it, and what follows.  A backslash keeps the character
after it from closing. -/
def takeQuoted (q : Char) : List Char → Option (List Char × List Char)
  | [] => none
  | '\\' :: c :: cs => (takeQuoted q cs).map fun (v, rest) => ('\\' :: c :: v, rest)
  | c :: cs =>
    if c = q then some ([], cs) else (takeQuoted q cs).map fun (v, rest) => (c :: v, rest)

/-- The character that an escape stands for between single quotes. -/
def singleEscape? : Char → Option Char
  | '\\' => some '\\'
  | '\'' => some '\''
  | _ => none

/-- The character that an escape stands for between double quotes. -/
def doubleEscape? : Char → Option Char
  | '\\' => some '\\'
  | '\'' => some '\''
  | '"' => some '"'
  | 'a' => some '\x07'
  | 'b' => some '\x08'
  | 'f' => some '\x0c'
  | 'n' => some '\n'
  | 'r' => some '\r'
  | 't' => some '\t'
  | 'v' => some '\x0b'
  | _ => none

/-- Replace the escapes. -/
def unescape (escape? : Char → Option Char) : List Char → List Char
  | [] => []
  | '\\' :: c :: cs => match escape? c with
    | some d => d :: unescape escape? cs
    | none => '\\' :: unescape escape? (c :: cs)
  | c :: cs => c :: unescape escape? cs

/-- Do the characters start with blanks and then `#`? -/
def startsComment (cs : List Char) : Bool :=
  match cs with
  | c :: _ => isBlank c && (cs.dropWhile isBlank).head? == some '#'
  | [] => false

/-- The characters before a comment. -/
def beforeComment : List Char → List Char
  | [] => []
  | c :: cs => if startsComment (c :: cs) then [] else c :: beforeComment cs

/-- A value without quotes: the line up to a comment, trimmed. -/
def plainValue (cs : List Char) : List Char := trim (beforeComment (cs.takeWhile (· != '\n')))

/-- The value after the equals sign and what follows it, or `none` if its quote is not closed. -/
def takeValue (cs : List Char) : Option (List Char × List Char) :=
  match cs.dropWhile isLineBlank with
  | '\'' :: rest => (takeQuoted '\'' rest).map fun (v, rest) => (unescape singleEscape? v, rest)
  | '"' :: rest => (takeQuoted '"' rest).map fun (v, rest) => (unescape doubleEscape? v, rest)
  | _ => some (plainValue cs, cs.dropWhile (· != '\n'))

/-- Drop `export` and the blanks after it. -/
def dropExport (cs : List Char) : List Char :=
  match "export".toList.isPrefixOf? cs with
  | some (c :: rest) => if isLineBlank c then rest.dropWhile isLineBlank else cs
  | _ => cs

/-- A key and what follows it. -/
def takeKey : List Char → Option (List Char × List Char)
  | '\'' :: cs =>
    match cs.takeWhile (· != '\''), cs.dropWhile (· != '\'') with
    | c :: key, _ :: rest => some (c :: key, rest)
    | _, _ => none
  | cs =>
    match cs.takeWhile (fun c => c != '=' && c != '#' && !isBlank c) with
    | [] => none
    | key => some (key, cs.drop key.length)

/-- What follows the end of the line, if only blanks and a comment come before it. -/
def takeLineEnd (cs : List Char) : Option (List Char) :=
  match cs.dropWhile isLineBlank with
  | [] => some []
  | '\n' :: rest => some rest
  | '#' :: rest => some (dropLine rest)
  | _ => none

/-- One variable of an environment file. -/
structure EnvLine where
  key : String
  value : Option String
  deriving DecidableEq, Repr

/-- The entry at the start of the text, which is no blank, and what follows its line. -/
def takeEntry (cs : List Char) : Option EnvLine × List Char :=
  match dropExport cs with
  | '#' :: rest => (none, dropLine rest)
  | cs => match takeKey cs with
    | none => (none, dropLine cs)
    | some (key, rest) => match rest.dropWhile isLineBlank with
      | '=' :: rest =>
        match takeValue rest with
        | none => (none, dropLine rest)
        | some (value, rest) => match takeLineEnd rest with
          | some rest => (some ⟨String.ofList key, some (String.ofList value)⟩, rest)
          | none => (none, dropLine rest)
      | rest => match takeLineEnd rest with
        | some rest => (some ⟨String.ofList key, none⟩, rest)
        | none => (none, dropLine rest)

/-- The entries of the text; each takes at least one character, so the length of the text is fuel
enough. -/
def takeEntries : Nat → List Char → List EnvLine
  | 0, _ => []
  | fuel + 1, cs => match cs.dropWhile isBlank with
    | [] => []
    | cs =>
      let (entry, rest) := takeEntry cs
      entry.toList ++ takeEntries fuel rest

/-- Drop a byte order mark. -/
def dropMark : List Char → List Char
  | '\ufeff' :: cs => cs
  | cs => cs

/-- The variables that an environment file sets. -/
def envFile (s : String) : List EnvLine :=
  let cs := unifyLines (dropMark s.toList)
  takeEntries cs.length cs

end DocQuery.Settings
