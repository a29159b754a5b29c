import Covenant.Environment
import Covenant.Text.Blank
import Covenant.Text.Letters

namespace Covenant.Dotenv

/-- Where a statement stands between two characters: outside of quotes, just after a blank, after a
backslash, in single or double quotes and there after a backslash. -/
inductive Place where
  | outside
  | afterBlank
  | escape
  | single
  | singleEscape
  | double
  | doubleEscape
deriving DecidableEq, Repr

/-- What opens a quote or an escape outside of quotes. -/
def Place.opened (c : Char) : Place :=
  if c = '\\' then .escape
  else if c = '"' then .double
  else if c = '\'' then .single
  else .outside

def Place.next (c : Char) : Place → Place
  | .outside =>
    if Text.isBlank c && c != '\n' && c != '\r' then .afterBlank else .opened c
  | .afterBlank => .opened c
  | .escape => .outside
  | .single => if c = '\\' then .singleEscape else if c = '\'' then .outside else .single
  | .singleEscape => .single
  | .double => if c = '\\' then .doubleEscape else if c = '"' then .outside else .double
  | .doubleEscape => .double

/-- The end of a line: past it, or before a comment, which starts just after a blank. -/
inductive LineEnd where
  | at (place : Place)
  | comment

/-- The part of a line that belongs to a statement. -/
def scanLine (place : Place) : List Char → List Char × LineEnd
  | [] => ([], .at place)
  | c :: rest =>
    if place = .afterBlank ∧ c = '#' then ([], .comment)
    else
      let (cs, lineEnd) := scanLine (place.next c) rest
      (c :: cs, lineEnd)

def lines : List Char → List (List Char)
  | [] => []
  | c :: rest =>
    if c = '\n' then ['\n'] :: lines rest
    else match lines rest with
      | [] => [[c]]
      | line :: more => (c :: line) :: more

def dropBreak (cs : List Char) : List Char :=
  match cs.reverse with
  | '\n' :: '\r' :: rest => rest.reverse
  | '\n' :: rest => rest.reverse
  | _ => cs

/-- The statements of a file, `before` being the open one; none if the file ends in an open one. -/
def statements? (before : List Char) (place : Place) :
    List (List Char) → Option (List (List Char))
  | [] => if place = .outside then some [] else none
  | line :: rest =>
    if (Text.trimLeft (before ++ line)).head? = some '#' then statements? [] .outside rest
    else match scanLine place line with
      | (cs, .comment) => (statements? [] .outside rest).map ((before ++ cs) :: ·)
      | (cs, .at .outside) => (statements? [] .outside rest).map (dropBreak (before ++ cs) :: ·)
      | (cs, .at within) => statements? (before ++ cs) within rest

/-- The state of reading a value: plain, after a blank that ends it, in single quotes, in double
quotes, after a backslash in or out of these, in the name of a variable, in one in braces. -/
inductive Mode where
  | plain
  | ended
  | single
  | double
  | escape (quoted : Bool)
  | name (quoted : Bool) (read : List Char)
  | braced (quoted : Bool) (read : List Char)

def escaped? (c : Char) : Option Char :=
  if c ∈ ['\\', '\'', '"', '$', ' '] then some c
  else if c = 'n' then some '\n'
  else none

def inside (quoted : Bool) : Mode := if quoted then .double else .plain

def value (e : Environment) (name : List Char) : List Char := (e.find? name).getD []

/-- The text of a value. The character that ends the name of a variable stands for itself, unless it
starts another name. -/
def value? (e : Environment) : Mode → List Char → Option (List Char)
  | .plain, [] | .ended, [] | .escape false, [] => some []
  | .name false read, [] => some (value e read.reverse)
  | _, [] => none
  | .ended, c :: rest =>
    if c = ' ' ∨ c = '\t' then value? e .ended rest
    else if c = '#' then some []
    else none
  | .escape quoted, c :: rest => do
    let d ← escaped? c
    (value? e (inside quoted) rest).map (d :: ·)
  | .single, c :: rest =>
    if c = '\'' then value? e .plain rest else (value? e .single rest).map (c :: ·)
  | .name quoted read, c :: rest =>
    if Text.isLetterOrDigit c then value? e (.name quoted (c :: read)) rest
    else if c = '\x7b' ∧ read.isEmpty then value? e (.braced quoted []) rest
    else if c = '$' then (value? e (.name quoted []) rest).map (value e read.reverse ++ ·)
    else (value? e (inside quoted) rest).map ((value e read.reverse ++ [c]) ++ ·)
  | .braced quoted read, c :: rest =>
    if c = '\x7d' then (value? e (inside quoted) rest).map (value e read.reverse ++ ·)
    else value? e (.braced quoted (c :: read)) rest
  | .double, c :: rest =>
    if c = '$' then value? e (.name true []) rest
    else if c = '"' then value? e .plain rest
    else if c = '\\' then value? e (.escape true) rest
    else (value? e .double rest).map (c :: ·)
  | .plain, c :: rest =>
    if c = '$' then value? e (.name false []) rest
    else if c = '\'' then value? e .single rest
    else if c = '"' then value? e .double rest
    else if c = '\\' then value? e (.escape false) rest
    else if c = ' ' ∨ c = '\t' then value? e .ended rest
    else (value? e .plain rest).map (c :: ·)

def startsName (c : Char) : Bool := c.isAlpha || c == '_'

def isNameChar (c : Char) : Bool := c.isAlphanum || c == '_' || c == '.'

def readName? (cs : List Char) : Option (String × List Char) :=
  if cs.head?.any startsName then
    some (String.ofList (cs.takeWhile isNameChar), Text.trimLeft (cs.dropWhile isNameChar))
  else none

/-- The name before the equals sign, with what follows this. The word `export` may precede it. -/
def readTarget? (cs : List Char) : Option (String × List Char) := do
  match ← readName? cs with
  | (name, '=' :: rest) => some (name, Text.trimLeft rest)
  | ("export", rest) =>
    match ← readName? rest with
    | (name, '=' :: rest) => some (name, Text.trimLeft rest)
    | _ => none
  | _ => none

def isEmptyOrComment : List Char → Bool
  | c :: _ => c == '#'
  | [] => true

def assign? (e : Environment) (statement : List Char) : Option Environment := do
  let cs := Text.trimLeft (Text.trimRight statement)
  if isEmptyOrComment cs then some e
  else
    let (name, rest) ← readTarget? cs
    let cs ← if isEmptyOrComment rest then some [] else value? e .plain rest
    some (e.setIfUnset name (String.ofList cs))

/-- The environment after all statements of a file. A statement is a name and a value, joined by an
equals sign; it ends with its line, unless a quote is open there. Values may be quoted, hold
escapes, and refer to variables that are set. A variable that has a value keeps it. -/
def load? (e : Environment) (text : String) : Option Environment := do
  let cs := text.toList
  let cs := if cs.head? = some '\ufeff' then cs.tail else cs
  (← statements? [] .outside (lines cs)).foldlM assign? e

end Covenant.Dotenv
