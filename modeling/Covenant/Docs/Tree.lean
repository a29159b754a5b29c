import Covenant.Json.Value

namespace Covenant.Docs

inductive Key where
  | name (text : String)
  | code (n : UInt16)
deriving DecidableEq, Repr

def Key.text : Key → String
  | .name text => text
  | .code n => toString n.toNat

/-- A document before it is written. As JSON all keys are strings, in the order of the table. -/
inductive Tree where
  | text (s : String)
  | flag (b : Bool)
  | list (items : List Tree)
  | table (entries : List (Key × Tree))

namespace Tree

def names (entries : List (String × Tree)) : Tree :=
  .table (entries.map fun (k, t) => (.name k, t))

def texts (items : List String) : Tree := .list (items.map .text)

mutual

def toJson : Tree → Json.Value
  | .text s => .string s
  | .flag b => .bool b
  | .list items => .array (itemsToJson items)
  | .table entries => .object (entriesToJson entries)

def itemsToJson : List Tree → List Json.Value
  | [] => []
  | t :: rest => t.toJson :: itemsToJson rest

def entriesToJson : List (Key × Tree) → List (String × Json.Value)
  | [] => []
  | (k, t) :: rest => (k.text, t.toJson) :: entriesToJson rest

end

end Tree

end Covenant.Docs
