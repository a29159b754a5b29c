import Covenant.Entries
import Covenant.Toml.Scalar

namespace Covenant.Toml

open Json

/-- How a table came about: by a header of its own, as a step in the header of another, by the dots
of a key, or in braces. -/
inductive Origin where
  | header
  | passage
  | dots
  | braces
deriving DecidableEq, Repr

inductive Node where
  | value (v : Value)
  | table (origin : Origin) (entries : List (String × Node))

abbrev Table := List (String × Node)

mutual

def Node.toJson : Node → Value
  | .value v => v
  | .table _ entries => .object (tableToJson entries)

def tableToJson : List (String × Node) → List (String × Value)
  | [] => []
  | (k, n) :: rest => (k, n.toJson) :: tableToJson rest

end

/-- Enters a node under a key that a path of tables leads to. Dots open tables and go through those
that were not opened by a header; the last one must be made of dots. -/
def enter (key : String) (node : Node) : List String → Table → Option Table
  | [], t => if (t.lookup key).isSome then none else some (t ++ [(key, node)])
  | step :: path, t =>
    match t.lookup step with
    | none => (enter key node path []).map fun inner => t ++ [(step, .table .dots inner)]
    | some (.table origin inner) =>
      if origin = .dots ∨ (origin = .passage ∧ !path.isEmpty) then
        (enter key node path inner).map fun inner => Entries.put step (.table origin inner) t
      else none
    | some (.value _) => none

/-- Opens the table of a header. -/
def openTable (key : String) : List String → Table → Option Table
  | [], t =>
    match t.lookup key with
    | none => some (t ++ [(key, .table .header [])])
    | some (.table .passage inner) => some (Entries.put key (.table .header inner) t)
    | some _ => none
  | step :: path, t =>
    match t.lookup step with
    | none => (openTable key path []).map fun inner => t ++ [(step, .table .passage inner)]
    | some (.table .braces _) => none
    | some (.table origin inner) =>
      (openTable key path inner).map fun inner => Entries.put step (.table origin inner) t
    | some (.value _) => none

def within (change : Table → Option Table) : List String → Table → Option Table
  | [], t => change t
  | step :: path, t =>
    match t.lookup step with
    | some (.table origin inner) =>
      (within change path inner).map fun inner => Entries.put step (.table origin inner) t
    | _ => none

def isBareKeyChar (c : Char) : Bool := c.isAlphanum || c == '_' || c == '-'

def readKey (cs : List Char) : Option (String × List Char) :=
  match cs with
  | '"' :: rest => (basicString rest).map fun (k, r) => (String.ofList k, r)
  | '\'' :: rest => (literalString rest).map fun (k, r) => (String.ofList k, r)
  | cs =>
    match cs.takeWhile isBareKeyChar with
    | [] => none
    | k => some (String.ofList k, cs.dropWhile isBareKeyChar)

/-- At most so many keys are joined by dots, and at most so many brackets are open at a place. -/
def maxDepth : Nat := 79

/-- At most so many keys joined by dots: the path, the last key, and what follows. -/
def readKeys : Nat → List Char → Option (List String × String × List Char)
  | 0, _ => none
  | count + 1, cs => do
    let (key, rest) ← readKey (skipBlanks cs)
    match skipBlanks rest with
    | '.' :: rest => (readKeys count rest).map fun (path, last, r) => (key :: path, last, r)
    | rest => some ([], key, rest)

def skipComment : List Char → Option (List Char)
  | [] => some []
  | c :: rest =>
    if startsLine (c :: rest) then some (c :: rest)
    else if isTextChar c then skipComment rest else none

def skipSpace : Nat → List Char → Option (List Char)
  | 0, _ => none
  | fuel + 1, cs =>
    match skipBlanks cs with
    | '\n' :: rest => skipSpace fuel rest
    | '\r' :: '\n' :: rest => skipSpace fuel rest
    | '#' :: rest => do skipSpace fuel (← skipComment rest)
    | rest => some rest

def textValue (read : Option (List Char × List Char)) : Option (Node × List Char) :=
  read.map fun (cs, r) => (.value (.string (String.ofList cs)), r)

mutual

/-- A value at the head of the text, in which at most `depth` brackets may be open at a place. Every
nested call is made past a character of its own or by a call of another kind, so thrice the length
of the text is fuel enough. -/
def readValue : Nat → Nat → List Char → Option (Node × List Char)
  | 0, _, _ => none
  | fuel + 1, depth, cs =>
    match cs, depth with
    | '"' :: '"' :: '"' :: rest, _ => textValue (basicText false (dropLineBreak rest))
    | '"' :: rest, _ => textValue (basicString rest)
    | '\'' :: '\'' :: '\'' :: rest, _ => textValue (literalText (dropLineBreak rest))
    | '\'' :: rest, _ => textValue (literalString rest)
    | '[' :: rest, depth + 1 =>
      (readItems fuel depth rest).map fun (vs, r) => (.value (.array vs), r)
    | '\x7b' :: rest, depth + 1 =>
      match skipBlanks rest with
      | '\x7d' :: rest => some (.table .braces [], rest)
      | rest => (readEntries fuel depth [] rest).map fun (t, r) => (.table .braces t, r)
    | cs, _ => (readWord cs).map fun (v, r) => (.value v, r)

def readItems : Nat → Nat → List Char → Option (List Value × List Char)
  | 0, _, _ => none
  | fuel + 1, depth, cs => do
    match ← skipSpace (cs.length + 1) cs with
    | ']' :: rest => some ([], rest)
    | cs =>
      let (v, rest) ← readValue fuel depth cs
      match ← skipSpace (rest.length + 1) rest with
      | ',' :: rest => (readItems fuel depth rest).map fun (vs, r) => (v.toJson :: vs, r)
      | ']' :: rest => some ([v.toJson], rest)
      | _ => none

/-- The entries of a table in braces, on one line. -/
def readEntries : Nat → Nat → Table → List Char → Option (Table × List Char)
  | 0, _, _, _ => none
  | fuel + 1, depth, t, cs => do
    match ← readKeys maxDepth cs with
    | (path, key, '=' :: rest) =>
      let (v, rest) ← readValue fuel depth (skipBlanks rest)
      let t ← enter key v path t
      match skipBlanks rest with
      | ',' :: rest => readEntries fuel depth t rest
      | '\x7d' :: rest => some (t, rest)
      | _ => none
    | _ => none

end

/-- The rest of a line holds nothing but a comment. -/
def endLine (cs : List Char) : Option (List Char) :=
  match skipBlanks cs with
  | '#' :: rest => (skipComment rest).map dropLineBreak
  | [] => some []
  | cs => if startsLine cs then some (dropLineBreak cs) else none

/-- Statements up to the end of the text; `place` is the table of the last header. -/
def readStatements : Nat → List String → Table → List Char → Option Table
  | 0, _, _, _ => none
  | fuel + 1, place, root, cs =>
    match skipBlanks cs with
    | [] => some root
    | '[' :: rest => do
      match ← readKeys maxDepth rest with
      | (path, key, ']' :: rest) =>
        readStatements fuel (path ++ [key]) (← openTable key path root) (← endLine rest)
      | _ => none
    | '#' :: rest => do readStatements fuel place root (← endLine ('#' :: rest))
    | cs =>
      if startsLine cs then readStatements fuel place root (dropLineBreak cs)
      else do
        match ← readKeys maxDepth cs with
        | (path, key, '=' :: rest) =>
          let (v, rest) ← readValue (3 * cs.length + 3) maxDepth (skipBlanks rest)
          let root ← within (enter key v path) place root
          readStatements fuel place root (← endLine rest)
        | _ => none

/-- A document is a sequence of headers and settings; a header opens a table, a setting enters a
value under a key, whose dots lead through tables. A table can be opened once, and neither mark can
reach into what the other has made. Documents with arrays of tables are refused. -/
def ofText? (text : String) : Option Value :=
  let cs := text.toList
  let cs := if cs.head? = some '\ufeff' then cs.tail else cs
  (readStatements (cs.length + 1) [] [] cs).map fun t => .object (tableToJson t)

end Covenant.Toml
