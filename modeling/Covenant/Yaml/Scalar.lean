import Covenant.Binary64
import Covenant.Json.Printer
import Covenant.Text.Decimal

namespace Covenant.Yaml

def isLineBreak (c : Char) : Bool :=
  c == '\n' || c == '\r' || c == '\u0085' || c == '\u2028' || c == '\u2029'

def isPrintable (c : Char) : Bool :=
  let n := c.toNat
  c == '\n' || (0x20 ≤ n && n ≤ 0x7E) || (0xA0 ≤ n && n ≤ 0xFFFD && n != 0xFEFF) || 0x10000 ≤ n

/-- A blank, a line break, or the end of the text. -/
def isGap : Option Char → Bool
  | none => true
  | some c => c == ' ' || c == '\t' || isLineBreak c

/-- Somewhere a character with the first property stands before one with the second. -/
def hasPair (p q : Char → Bool) : List Char → Bool
  | c :: d :: rest => (p c && q d) || hasPair p q (d :: rest)
  | _ => false

/-- A colon before a gap, or a number sign after one, past the first character. -/
def hasInnerMark : List Char → Bool
  | c :: d :: rest =>
    (d == ':' && isGap rest.head?) || (d == '#' && isGap (some c)) || hasInnerMark (d :: rest)
  | _ => false

/-- A text that would open a structure, a comment or a document. -/
def startsWithMark (cs : List Char) : Bool :=
  match cs with
  | [] => false
  | c :: rest =>
    "#,[]\x7b\x7d&*!|>'\"%@`".toList.contains c ||
      ((c == '?' || c == ':' || c == '-') && isGap rest.head?) ||
      cs.take 3 == ['-', '-', '-'] || cs.take 3 == ['.', '.', '.']

def isSpace (c : Char) : Bool := c == ' '

/-- Unprintable characters, or a blank at the end of a line. -/
def needsEscapes (cs : List Char) : Bool :=
  cs.any (!isPrintable ·) || hasPair isSpace isLineBreak cs

def allowsPlain (cs : List Char) : Bool :=
  !cs.isEmpty && !needsEscapes cs && !cs.any isLineBreak && cs.head? != some ' ' &&
    cs.getLast? != some ' ' && !startsWithMark cs && !hasInnerMark cs

def allowsSingle (cs : List Char) : Bool := !needsEscapes cs && !hasPair isLineBreak isSpace cs

def allowsLiteral (cs : List Char) : Bool := !needsEscapes cs && cs.getLast? != some ' '

def numberIn? (base : Nat) (value? : Char → Option Nat) (cs : List Char) : Option Nat :=
  if cs.isEmpty then none
  else cs.foldlM (fun n c => (value? c).map (base * n + ·)) 0

def hexValue? (c : Char) : Option Nat :=
  if c.isDigit then some (c.toNat - '0'.toNat)
  else if 'a' ≤ c ∧ c ≤ 'f' then some (c.toNat - 'a'.toNat + 10)
  else if 'A' ≤ c ∧ c ≤ 'F' then some (c.toNat - 'A'.toNat + 10)
  else none

def digitValueBelow (base : Nat) (c : Char) : Option Nat := (hexValue? c).filter (· < base)

/-- A number behind the mark of its base, of at most 128 bits. -/
def isBasedInteger (cs : List Char) : Bool :=
  let bound := if cs.head? = some '-' then Binary64.twoTo 127 + 1 else Binary64.twoTo 128
  let within (base : Nat) (ds : List Char) :=
    ((numberIn? base (digitValueBelow base) ds).filter (· < bound)).isSome
  match Text.dropSign cs with
  | '0' :: 'x' :: ds => within 16 ds
  | '0' :: 'o' :: ds => within 8 ds
  | '0' :: 'b' :: ds => within 2 ds
  | _ => false

/-- A decimal that is not beyond all numbers. -/
def isDecimal (cs : List Char) : Bool :=
  match Text.decimal? cs with
  | some (digits, power) => (Binary64.nearestDecimal? false digits power).isSome
  | none => false

def reservedWords : List String := ["", "~", "null", "Null", "NULL", "true", "True", "TRUE",
  "false", "False", "FALSE", ".inf", ".Inf", ".INF", "+.inf", "+.Inf", "+.INF", "-.inf", "-.Inf",
  "-.INF", ".nan", ".NaN", ".NAN"]

/-- The plain text would be read as a word of its own or as a number. -/
def readsOtherwise (s : String) : Bool :=
  let cs := s.toList
  reservedWords.contains s || isBasedInteger cs || isDecimal cs

def singleQuotedFrom (indent : Nat) : List Char → Bool → List Char
  | [], afterBreak => if afterBreak then List.replicate indent ' ' else []
  | c :: rest, afterBreak =>
    if isLineBreak c then c :: singleQuotedFrom indent rest true
    else
      (if afterBreak && !isSpace c then List.replicate indent ' ' else []) ++
        (if c = '\'' then ['\'', '\''] else [c]) ++
          singleQuotedFrom indent rest (afterBreak && isSpace c)

def singleQuoted (indent : Nat) (cs : List Char) : List Char :=
  '\'' :: singleQuotedFrom indent cs false ++ ['\'']

def upperHex (width n : Nat) : List Char :=
  let ds := (Nat.toDigits 16 n).map Char.toUpper
  List.replicate (width - ds.length) '0' ++ ds

def letterEscapes : List (Char × Char) := [('\x00', '0'), ('\x07', 'a'), ('\x08', 'b'),
  ('\t', 't'), ('\n', 'n'), ('\x0b', 'v'), ('\x0c', 'f'), ('\r', 'r'), ('\x1b', 'e'), ('"', '"'),
  ('\\', '\\'), ('\u0085', 'N'), ('\u00a0', '_'), ('\u2028', 'L'), ('\u2029', 'P')]

def escapeChar (c : Char) : List Char :=
  match letterEscapes.lookup c with
  | some e => ['\\', e]
  | none =>
    if c.toNat ≤ 0xFF then '\\' :: 'x' :: upperHex 2 c.toNat
    else if c.toNat ≤ 0xFFFF then '\\' :: 'u' :: upperHex 4 c.toNat
    else '\\' :: 'U' :: upperHex 8 c.toNat

def doubleQuoted (cs : List Char) : List Char :=
  '"' :: cs.flatMap (fun c =>
    if !isPrintable c || isLineBreak c || c == '"' || c == '\\' then escapeChar c else [c]) ++ ['"']

/-- How a block ends: with no line break, with one, or with several, all kept. -/
def chomping (cs : List Char) : List Char :=
  match cs.reverse with
  | [] => ['-']
  | [c] => if isLineBreak c then ['+'] else ['-']
  | c :: d :: _ => if !isLineBreak c then ['-'] else if isLineBreak d then ['+'] else []

/-- Lines that are not empty are indented. -/
def literalLines (indent : Nat) : List Char → Bool → List Char
  | [], _ => []
  | c :: rest, afterBreak =>
    if isLineBreak c then c :: literalLines indent rest true
    else (if afterBreak then List.replicate indent ' ' else []) ++
      c :: literalLines indent rest false

/-- The indentation is stated where the first line could hide it. -/
def literal (indent : Nat) (cs : List Char) : List Char :=
  let hint := match cs with
    | c :: _ => if isSpace c || isLineBreak c then ['2'] else []
    | [] => []
  '|' :: hint ++ chomping cs ++ '\n' :: literalLines indent cs true

/-- A string is written plain unless it would be read as something else or the marks in it would;
then in single quotes; a string of several lines as a literal block; and in double quotes, with
escapes, where none of these can hold it. -/
def scalar (indent : Nat) (s : String) : List Char :=
  let cs := s.toList
  if cs.contains '\n' then
    if allowsLiteral cs then literal indent cs else doubleQuoted cs
  else if !readsOtherwise s && allowsPlain cs then cs
  else if allowsSingle cs then singleQuoted indent cs
  else doubleQuoted cs

end Covenant.Yaml
