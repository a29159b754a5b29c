import Covenant.Json.Meaning

namespace Covenant.Json.Source

/-- A part of a record: not there, because an array ended before it or an object lacks it, or a
source. -/
inductive Part where
  | beyondEnd
  | lacking
  | given (source : Source)

def keyed? (members : List (List Char × Source)) : Option (List (String × Source)) :=
  members.mapM fun (k, s) => (textOf? k).map (·, s)

/-- A record is written as an object of its named parts or as an array of them in order; an object
may have other members, but none of the named ones twice. -/
def parts? (names : List String) : Source → Option (List Part)
  | .array items =>
    if items.length ≤ names.length then
      some (items.map .given ++ List.replicate (names.length - items.length) .beyondEnd)
    else none
  | .object members => do
    let keyed ← keyed? members
    if names.all fun n => (keyed.filter (·.1 == n)).length ≤ 1 then
      some (names.map fun n => (keyed.lookup n).elim .lacking .given)
    else none
  | _ => none

def string? : Source → Option String
  | .string body => textOf? body
  | _ => none

def bool? : Source → Option Bool
  | .bool b => some b
  | _ => none

def array? : Source → Option (List Source)
  | .array items => some items
  | _ => none

/-- A choice without content: its name, or an object that gives the name nothing. -/
def choice? : Source → Option String
  | .string body => textOf? body
  | .object [(name, .null)] => textOf? name
  | _ => none

namespace Part

def required? {α : Type} (read : Source → Option α) : Part → Option α
  | .given s => read s
  | _ => none

/-- Left out, or null, for nothing. -/
def optional? {α : Type} (read : Source → Option α) : Part → Option (Option α)
  | .given .null => some none
  | .given s => (read s).map some
  | _ => some none

/-- Left out for a value that is not written. -/
def withDefault? {α : Type} (default : α) (read : Source → Option α) : Part → Option α
  | .given s => read s
  | _ => some default

/-- Optional in an object, where nothing may stand for it, but not at the end of an array. -/
def optionalMember? {α : Type} (read : Source → Option α) : Part → Option (Option α)
  | .beyondEnd => none
  | p => p.optional? read

end Part

end Covenant.Json.Source
