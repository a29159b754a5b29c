import Covenant.Pattern.Reading
import Covenant.Text.Case
import Covenant.Text.Decimal
import Covenant.Text.Integer
import Covenant.Text.Split

namespace Covenant.Log

inductive FilterFault where
  | directive
  | level
  | field (fault : Pattern.Fault)
deriving DecidableEq, Repr

def FilterFault.text : FilterFault → String
  | .directive => "invalid filter directive"
  | .level => "error parsing level filter: expected one of \"off\", \"error\", \"warn\", " ++
      "\"info\", \"debug\", \"trace\", or a number 0-5"
  | .field fault => "invalid field filter: " ++ fault.text

def levelNames : List String := ["off", "error", "warn", "info", "debug", "trace"]

/-- Nothing, a level's name in any letter case, or its number. -/
def isLevel (cs : List Char) : Bool :=
  let digits := if cs.head? = some '+' then cs.tail else cs
  cs.isEmpty || (Text.unsigned? digits).any (· ≤ 5) ||
    levelNames.contains (Text.lowerAscii (String.ofList cs))

def startsTarget (c : Char) : Bool := c == '-' || c == ':' || c == '_' || Text.isLetterOrDigit c

/-- Blanks around a directive spoil its level: those after it belong to it, and those before it make
its place begin at the equals sign at the latest. -/
def levelFault? (directive level : List Char) : Option FilterFault :=
  if Text.trim directive = directive ∧ isLevel level then none else some .level

def restFault? (directive : List Char) : List Char → Option FilterFault
  | [] => none
  | '=' :: level => levelFault? directive level
  | _ => some .directive

def size (cs : List Char) : Nat := (String.ofList cs).utf8ByteSize

/-- The characters that begin within so many bytes after the first ones. -/
def cut : Nat → Nat → List Char → List Char
  | _, _, [] => []
  | skipped, taken, c :: rest =>
    if 0 < skipped then cut (skipped - c.utf8Size) taken rest
    else if 0 < taken then c :: cut 0 (taken - c.utf8Size) rest
    else []

def floatNames : List String := ["inf", "infinity", "nan"]

def isNumber (cs : List Char) : Bool :=
  floatNames.contains (Text.lowerAscii (String.ofList (Text.dropSign cs))) ||
    (Text.decimal? cs).isSome

/-- The value of a field is what stands between its first two equals signs, if it has any: a truth
value, a number or a pattern. -/
def fieldFault? (field : List Char) : Option Pattern.Fault :=
  match Text.splitAt '=' field with
  | _ :: value :: _ =>
    if value = "true".toList ∨ value = "false".toList ∨ isNumber value then none
    else Pattern.fault? value
  | _ => none

def spanFault? (directive cs : List Char) : Option FilterFault :=
  match cs.dropWhile fun c => c != ']' && c != '\x7b' with
  | [] => some .directive
  | c :: rest =>
    if c = ']' then restFault? directive rest
    else
      let field := rest.takeWhile (· != '\x7d')
      match rest.drop field.length with
      | [] => some .directive
      | _ :: after =>
        if field.isEmpty then some .directive
        else
          let place := size (Text.trim directive) - size rest
          match fieldFault? (cut place (size field) directive), after with
          | some fault, _ => some (.field fault)
          | none, ']' :: after => restFault? directive after
          | none, _ => some .directive

/-- A word alone is a level or a target. -/
def directiveFault? (directive : List Char) : Option FilterFault :=
  match Text.trim directive with
  | [] => some .directive
  | '[' :: rest => spanFault? directive rest
  | c :: rest =>
    if startsTarget c then
      match rest.dropWhile fun c => c != '=' && c != '[' with
      | [] => none
      | '[' :: more => spanFault? directive more
      | _ :: level => levelFault? directive level
    else some .directive

/-- The fault of the first bad directive; they stand between commas. A directive is a level, a
target, or a target with the level it is logged at; the name of a span in brackets, with a field in
braces, may narrow the target. Its parts are found in it without the blanks around it, but their
text is taken from the same places of it with them. -/
def filterFault? (filter : String) : Option FilterFault :=
  ((Text.splitAt ',' filter.toList).filter (!·.isEmpty)).findSome? directiveFault?

end Covenant.Log
