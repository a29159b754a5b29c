import Covenant.Json.Number

namespace Covenant.Json

/-- An object is the list of its members; the functions that build one keep its keys sorted by code
points, which is also their order as UTF-8 bytes. -/
inductive Value where
  | null
  | bool (b : Bool)
  | number (n : Number)
  | string (s : String)
  | array (items : List Value)
  | object (members : List (String × Value))
deriving Repr, Inhabited

abbrev Members := List (String × Value)

namespace Members

def get? (m : Members) (key : String) : Option Value := m.lookup key

/-- A member of this key is replaced; a new one goes before the first greater key. -/
def insert (key : String) (v : Value) : Members → Members
  | [] => [(key, v)]
  | (k, w) :: rest =>
    if key = k then (key, v) :: rest
    else if key < k then (key, v) :: (k, w) :: rest
    else (k, w) :: insert key v rest

/-- Of members with equal keys the last one counts. -/
def ofList (pairs : List (String × Value)) : Members :=
  pairs.foldl (fun m (k, v) => insert k v m) []

end Members

namespace Value

def int (n : Int) : Value := .number (.whole n)

def ofPairs (pairs : List (String × Value)) : Value := .object (Members.ofList pairs)

def kindName : Value → String
  | .null => "null"
  | .bool _ => "boolean"
  | .number _ => "number"
  | .string _ => "string"
  | .array _ => "array"
  | .object _ => "object"

/-- The same value with the keys of every object sorted and free of repetition. -/
def sorted : Value → Value
  | .null => .null
  | .bool b => .bool b
  | .number n => .number n
  | .string s => .string s
  | .array items => .array (sortedItems items)
  | .object members => .object (Members.ofList (sortedMembers members))
where
  sortedItems : List Value → List Value
    | [] => []
    | v :: rest => v.sorted :: sortedItems rest
  sortedMembers : List (String × Value) → List (String × Value)
    | [] => []
    | (k, v) :: rest => (k, v.sorted) :: sortedMembers rest

end Value

end Covenant.Json
