import Covenant.Json.Meaning
import Covenant.Text.Integer

namespace Covenant.Toml

open Json

def isBlank (c : Char) : Bool := c == ' ' || c == '\t'

def skipBlanks (cs : List Char) : List Char := cs.dropWhile isBlank

/-- A character that text and comments may hold: no control character but the tab. -/
def isTextChar (c : Char) : Bool := c == '\t' || (0x20 ≤ c.toNat && c.toNat != 0x7F)

def startsLine : List Char → Bool
  | '\n' :: _ => true
  | '\r' :: '\n' :: _ => true
  | _ => false

/-- The line break that may follow the opening of a text of several lines. -/
def dropLineBreak : List Char → List Char
  | '\n' :: rest => rest
  | '\r' :: '\n' :: rest => rest
  | cs => cs

def shortEscape? : Char → Option Char
  | 'b' => some '\x08'
  | 't' => some '\t'
  | 'n' => some '\n'
  | 'f' => some '\x0c'
  | 'r' => some '\r'
  | '"' => some '"'
  | '\\' => some '\\'
  | _ => none

def cons? (c : Option Char) (tail : Option (List Char × List Char)) :
    Option (List Char × List Char) := do
  let c ← c
  let (cs, rest) ← tail
  some (c :: cs, rest)

def basicString : List Char → Option (List Char × List Char)
  | [] => none
  | '"' :: rest => some ([], rest)
  | '\\' :: 'u' :: a :: b :: c :: d :: rest =>
    cons? (Text.hexCharacter? [a, b, c, d]) (basicString rest)
  | '\\' :: 'U' :: a :: b :: c :: d :: e :: f :: g :: h :: rest =>
    cons? (Text.hexCharacter? [a, b, c, d, e, f, g, h]) (basicString rest)
  | '\\' :: c :: rest => cons? (shortEscape? c) (basicString rest)
  | c :: rest => if c != '\\' && isTextChar c then cons? (some c) (basicString rest) else none

def literalString : List Char → Option (List Char × List Char)
  | [] => none
  | '\'' :: rest => some ([], rest)
  | c :: rest => if isTextChar c then cons? (some c) (literalString rest) else none

/-- A text of several lines, with escapes. Up to two quotes may stand before the closing three. A
backslash at the end of a line takes all space up to the next character away; while that goes on
`trimming` holds. -/
def basicText (trimming : Bool) : List Char → Option (List Char × List Char)
  | [] => none
  | '"' :: '"' :: '"' :: '"' :: '"' :: rest => some (['"', '"'], rest)
  | '"' :: '"' :: '"' :: '"' :: rest => some (['"'], rest)
  | '"' :: '"' :: '"' :: rest => some ([], rest)
  | '\r' :: '\n' :: rest =>
    if trimming then basicText true rest else cons? (some '\n') (basicText false rest)
  | '\n' :: rest =>
    if trimming then basicText true rest else cons? (some '\n') (basicText false rest)
  | '\\' :: 'u' :: a :: b :: c :: d :: rest =>
    cons? (Text.hexCharacter? [a, b, c, d]) (basicText false rest)
  | '\\' :: 'U' :: a :: b :: c :: d :: e :: f :: g :: h :: rest =>
    cons? (Text.hexCharacter? [a, b, c, d, e, f, g, h]) (basicText false rest)
  | '\\' :: c :: rest =>
    match shortEscape? c with
    | some e => cons? (some e) (basicText false rest)
    | none =>
      if (isBlank c || c == '\n' || c == '\r') && startsLine (skipBlanks (c :: rest)) then
        basicText true rest
      else none
  | c :: rest =>
    if trimming && isBlank c then basicText true rest
    else if c != '\\' && isTextChar c then cons? (some c) (basicText false rest)
    else none

/-- A text of several lines, as it stands but for the spelling of line breaks. -/
def literalText : List Char → Option (List Char × List Char)
  | [] => none
  | '\'' :: '\'' :: '\'' :: '\'' :: '\'' :: rest => some (['\'', '\''], rest)
  | '\'' :: '\'' :: '\'' :: '\'' :: rest => some (['\''], rest)
  | '\'' :: '\'' :: '\'' :: rest => some ([], rest)
  | '\r' :: '\n' :: rest => cons? (some '\n') (literalText rest)
  | '\n' :: rest => cons? (some '\n') (literalText rest)
  | c :: rest => if isTextChar c then cons? (some c) (literalText rest) else none

def groupedDigits? (isDigit : Char → Bool) (cs : List Char) : Option (List Char) :=
  let ds := cs.filter (· != '_')
  let runs := cs.splitBy fun a b => (a == '_') == (b == '_')
  if !ds.isEmpty && ds.all isDigit && cs.head? != some '_' && cs.getLast? != some '_' &&
      runs.all (fun r => r.head? != some '_' || r.length == 1) then some ds
  else none

def splitSign : List Char → Bool × List Char
  | '-' :: cs => (true, cs)
  | '+' :: cs => (false, cs)
  | cs => (false, cs)

/-- No zeros lead a number of several digits. -/
def decimalDigits? (cs : List Char) : Option (List Char) :=
  (groupedDigits? Char.isDigit cs).filter fun ds => ds.length == 1 || ds.head? != some '0'

def based? (base : Nat) (isDigit : Char → Bool) (cs : List Char) : Option Int := do
  let ds ← groupedDigits? isDigit cs
  some (ds.foldl (fun n c => base * n + Text.hexValue c) 0 : Nat)

def integer? (cs : List Char) : Option Int :=
  let read := match cs with
    | '0' :: 'x' :: ds => based? 16 Text.isHex ds
    | '0' :: 'o' :: ds => based? 8 (fun c => '0' ≤ c && c ≤ '7') ds
    | '0' :: 'b' :: ds => based? 2 (fun c => c == '0' || c == '1') ds
    | cs =>
      let (negative, ds) := splitSign cs
      (decimalDigits? ds).map fun ds =>
        if negative then -(Number.natOfDigits ds : Int) else Number.natOfDigits ds
  read.filter Text.fitsInt64

/-- A number with a fraction, an exponent or both. One beyond the largest is refused, one beyond the
least is infinite; infinity and what is no number have no JSON. -/
def float? (cs : List Char) : Option Value := do
  let (negative, body) := splitSign cs
  if body = "inf".toList ∨ body = "nan".toList then return .null
  let whole ← decimalDigits? (body.takeWhile fun c => c.isDigit || c == '_')
  let rest := body.dropWhile fun c => c.isDigit || c == '_'
  let (fraction, rest) ← match rest with
    | '.' :: r => do
      let ds ← groupedDigits? Char.isDigit (r.takeWhile fun c => c.isDigit || c == '_')
      some (ds, r.dropWhile fun c => c.isDigit || c == '_')
    | r => some ([], r)
  let power ← match rest with
    | [] => some 0
    | e :: r =>
      if e = 'e' ∨ e = 'E' then do
        let ds ← groupedDigits? Char.isDigit (splitSign r).2
        let n : Int := Number.natOfDigits ds
        some (if (splitSign r).1 then -n else n)
      else none
  if fraction.isEmpty && rest.isEmpty then none
  else
    let digits := Number.natOfDigits (whole ++ fraction)
    match Binary64.nearestDecimal? negative digits (power - fraction.length) with
    | some x => some (.number (.float x))
    | none => if negative then some .null else none

def field? (width low high : Nat) (cs : List Char) : Option Nat :=
  if cs.length = width ∧ cs.all Char.isDigit then
    (some (Number.natOfDigits cs)).filter fun n => low ≤ n && n ≤ high
  else none

def daysIn (year month : Nat) : Nat :=
  if month = 2 then
    if year % 4 = 0 ∧ (year % 100 ≠ 0 ∨ year % 400 = 0) then 29 else 28
  else if month = 4 ∨ month = 6 ∨ month = 9 ∨ month = 11 then 30
  else 31

def isDate (cs : List Char) : Bool :=
  cs.length == 10 && cs[4]? == some '-' && cs[7]? == some '-' &&
    match field? 4 0 9999 (cs.take 4), field? 2 1 12 ((cs.drop 5).take 2) with
    | some y, some m => (field? 2 1 (daysIn y m) (cs.drop 8)).isSome
    | _, _ => false

def isTime (cs : List Char) : Bool :=
  cs[2]? == some ':' && cs[5]? == some ':' && (field? 2 0 23 (cs.take 2)).isSome &&
    (field? 2 0 59 ((cs.drop 3).take 2)).isSome && (field? 2 0 60 ((cs.drop 6).take 2)).isSome &&
    match cs.drop 8 with
    | [] => true
    | '.' :: ds => !ds.isEmpty && ds.all Char.isDigit
    | _ => false

def isOffset (cs : List Char) : Bool :=
  match cs with
  | [c] => c == 'Z' || c == 'z'
  | c :: rest =>
    (c == '+' || c == '-') && rest.length == 5 && rest[2]? == some ':' &&
      (field? 2 0 23 (rest.take 2)).isSome && (field? 2 0 59 (rest.drop 3)).isSome
  | [] => false

def isTimeWithOffset (cs : List Char) : Bool :=
  let time := cs.takeWhile fun c => c.isDigit || c == ':' || c == '.'
  let offset := cs.drop time.length
  isTime time && (offset.isEmpty || isOffset offset)

def isMoment (cs : List Char) : Bool :=
  isDate cs || isTime cs ||
    (isDate (cs.take 10) && (cs[10]? == some 'T' || cs[10]? == some 't' || cs[10]? == some ' ') &&
      isTimeWithOffset (cs.drop 11))

/-- The JSON form of a moment: an object with its text. -/
def moment (cs : List Char) : Value :=
  .object [("$__toml_private_datetime", .string (String.ofList cs))]

def isWordChar (c : Char) : Bool :=
  c.isAlphanum || c == '_' || c == '+' || c == '-' || c == '.' || c == ':'

def word? (cs : List Char) : Option Value :=
  if cs = "true".toList then some (.bool true)
  else if cs = "false".toList then some (.bool false)
  else if isMoment cs then some (moment cs)
  else ((integer? cs).map Value.int).or (float? cs)

/-- A word at the head of the text; date and time may have a blank between them. -/
def readWord (cs : List Char) : Option (Value × List Char) :=
  let word := cs.takeWhile isWordChar
  let rest := cs.drop word.length
  let joined := match rest with
    | ' ' :: more => word ++ ' ' :: more.takeWhile isWordChar
    | _ => word
  if isDate word && isMoment joined then some (moment joined, cs.drop joined.length)
  else (word? word).map (·, rest)

end Covenant.Toml
