import Covenant.Docs.Tree
import Covenant.Yaml.Scalar

namespace Covenant.Yaml

open Docs

def spaces (n : Nat) : List Char := List.replicate n ' '

def line (cs : List Char) : List Char :=
  match cs.getLast? with
  | some c => if isLineBreak c then cs else cs ++ ['\n']
  | none => ['\n']

def isSimpleKey (s : String) : Bool := !s.toList.any isLineBreak && s.utf8ByteSize ≤ 128

def flagText (b : Bool) : List Char := if b then "true".toList else "false".toList

/-- An entry at column `n`, whose value follows the colon of a simple key, or else the mark of the
value on a line of its own. -/
def entry (n : Nat) (k : Key) (afterKey afterMark : Unit → List Char) : List Char :=
  match k with
  | .code code => Nat.toDigits 10 code.toNat ++ ':' :: afterKey ()
  | .name s =>
    if isSimpleKey s then scalar (n + 2) s ++ ':' :: afterKey ()
    else '?' :: ' ' :: line (scalar (n + 2) s) ++ spaces n ++ ':' :: afterMark ()

mutual

def afterKey (n : Nat) : Tree → List Char
  | .text s => ' ' :: line (scalar (n + 2) s)
  | .flag b => ' ' :: line (flagText b)
  | .list ts => if ts.isEmpty then [' ', '[', ']', '\n'] else '\n' :: items n ts
  | .table es => if es.isEmpty then [' ', '\x7b', '\x7d', '\n'] else '\n' :: entries (n + 2) es

/-- What follows the mark of an item at column `n`, its first part on the line of the mark. -/
def afterMark (n : Nat) : Tree → List Char
  | .text s => ' ' :: line (scalar (n + 2) s)
  | .flag b => ' ' :: line (flagText b)
  | .list ts => if ts.isEmpty then [' ', '[', ']', '\n'] else ' ' :: (items (n + 2) ts).drop (n + 2)
  | .table es =>
    if es.isEmpty then [' ', '\x7b', '\x7d', '\n'] else ' ' :: (entries (n + 2) es).drop (n + 2)

def items (n : Nat) : List Tree → List Char
  | [] => []
  | t :: rest => spaces n ++ '-' :: afterMark n t ++ items n rest

def entries (n : Nat) : List (Key × Tree) → List Char
  | [] => []
  | (k, t) :: rest =>
    spaces n ++ entry n k (fun _ => afterKey n t) (fun _ => afterMark n t) ++ entries n rest

end

/-- The text of a table in block style: tables indent by two, lists stand at the indentation of
their key. A key of several lines or of more than 128 bytes is set apart by a question mark. -/
def document (table : List (Key × Tree)) : String := String.ofList (entries 0 table)

end Covenant.Yaml
