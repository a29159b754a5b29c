import Covenant.Json.Printer
import Covenant.Text.Hex

namespace Covenant.Json

/-- JSON text as it is written: with the spelling of numbers and of strings and every member of an
object, so that parts of a text that nobody asks for need not denote anything. A string may then
write half a surrogate pair, a number may lie beyond all bounds. -/
inductive Source where
  | null
  | bool (b : Bool)
  | number (literal : List Char)
  | string (body : List Char)
  | array (items : List Source)
  | object (members : List (List Char × Source))
deriving Repr, Inhabited

namespace Source

def skipBlanks (cs : List Char) : List Char :=
  cs.dropWhile fun c => c = ' ' || c = '\t' || c = '\n' || c = '\r'

def shortEscape? : Char → Option Char
  | '"' => some '"'
  | '\\' => some '\\'
  | '/' => some '/'
  | 'b' => some '\x08'
  | 'f' => some '\x0c'
  | 'n' => some '\n'
  | 'r' => some '\r'
  | 't' => some '\t'
  | _ => none

/-- The rest of a string after its opening quote: its body, and what follows the closing quote. -/
def scanString : List Char → Option (List Char × List Char)
  | [] => none
  | '"' :: rest => some ([], rest)
  | '\\' :: 'u' :: a :: b :: c :: d :: rest =>
    if [a, b, c, d].all Text.isHex then
      (scanString rest).map fun (body, r) => ('\\' :: 'u' :: a :: b :: c :: d :: body, r)
    else none
  | '\\' :: c :: rest =>
    if (shortEscape? c).isSome then
      (scanString rest).map fun (body, r) => ('\\' :: c :: body, r)
    else none
  | c :: rest =>
    if c = '\\' ∨ c.toNat < 0x20 then none
    else (scanString rest).map fun (body, r) => (c :: body, r)

def scanDigits (cs : List Char) : Option (List Char × List Char) :=
  match cs.takeWhile Char.isDigit with
  | [] => none
  | ds => some (ds, cs.dropWhile Char.isDigit)

/-- A digit zero stands alone before the point. -/
def scanInteger : List Char → Option (List Char × List Char)
  | '0' :: rest => some (['0'], rest)
  | cs => scanDigits cs

def scanFraction : List Char → Option (List Char × List Char)
  | '.' :: rest => (scanDigits rest).map fun (ds, r) => ('.' :: ds, r)
  | cs => some ([], cs)

def scanExponent : List Char → Option (List Char × List Char)
  | c :: rest =>
    if c = 'e' ∨ c = 'E' then
      match rest with
      | s :: more =>
        if s = '+' ∨ s = '-' then (scanDigits more).map fun (ds, r) => (c :: s :: ds, r)
        else (scanDigits rest).map fun (ds, r) => (c :: ds, r)
      | [] => none
    else some ([], c :: rest)
  | [] => some ([], [])

def scanNumber (cs : List Char) : Option (List Char × List Char) := do
  let (sign, cs) := match cs with
    | '-' :: rest => (['-'], rest)
    | _ => ([], cs)
  let (whole, cs) ← scanInteger cs
  let (fraction, cs) ← scanFraction cs
  let (power, cs) ← scanExponent cs
  some (sign ++ whole ++ fraction ++ power, cs)

mutual

/-- A value at the head of the text and what follows it. A character is met by at most two nested
calls, so twice the length of a text is fuel enough. -/
def readValue : Nat → List Char → Option (Source × List Char)
  | 0, _ => none
  | fuel + 1, cs =>
    match skipBlanks cs with
    | '\x7b' :: rest =>
      match skipBlanks rest with
      | '\x7d' :: rest => some (.object [], rest)
      | rest => (readMembers fuel rest).map fun (ms, r) => (.object ms, r)
    | '[' :: rest =>
      match skipBlanks rest with
      | ']' :: rest => some (.array [], rest)
      | rest => (readItems fuel rest).map fun (vs, r) => (.array vs, r)
    | '"' :: rest => (scanString rest).map fun (body, r) => (.string body, r)
    | 'n' :: 'u' :: 'l' :: 'l' :: rest => some (.null, rest)
    | 't' :: 'r' :: 'u' :: 'e' :: rest => some (.bool true, rest)
    | 'f' :: 'a' :: 'l' :: 's' :: 'e' :: rest => some (.bool false, rest)
    | rest => (scanNumber rest).map fun (literal, r) => (.number literal, r)

def readItems : Nat → List Char → Option (List Source × List Char)
  | 0, _ => none
  | fuel + 1, cs => do
    let (v, rest) ← readValue fuel cs
    match skipBlanks rest with
    | ',' :: rest => (readItems fuel rest).map fun (vs, r) => (v :: vs, r)
    | ']' :: rest => some ([v], rest)
    | _ => none

def readMembers : Nat → List Char → Option (List (List Char × Source) × List Char)
  | 0, _ => none
  | fuel + 1, cs =>
    match skipBlanks cs with
    | '"' :: rest => do
      let (key, rest) ← scanString rest
      match skipBlanks rest with
      | ':' :: rest => do
        let (v, rest) ← readValue fuel rest
        match skipBlanks rest with
        | ',' :: rest => (readMembers fuel rest).map fun (ms, r) => ((key, v) :: ms, r)
        | '\x7d' :: rest => some ([(key, v)], rest)
        | _ => none
      | _ => none
    | _ => none

end

/-- The source of a text that holds one value and nothing else but blanks. -/
def ofText? (text : String) : Option Source :=
  match readValue (2 * text.length + 2) text.toList with
  | some (v, rest) => if (skipBlanks rest).isEmpty then some v else none
  | none => none

end Source

end Covenant.Json
