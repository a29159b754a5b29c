import Covenant.Entries

namespace Covenant

structure Environment where
  entries : List (String × String)

namespace Environment

def empty : Environment := ⟨[]⟩

def get? (e : Environment) (name : String) : Option String := e.entries.lookup name

/-- What follows a name and an equals sign in the first entry that starts with them, an entry being
read as a name, an equals sign and a value. So a name with an equals sign in it reaches into values;
an empty one is not looked up. -/
def find? (e : Environment) (name : List Char) : Option (List Char) :=
  if name.isEmpty then none
  else e.entries.findSome? fun (k, v) =>
    (name ++ ['=']).isPrefixOf? (k.toList ++ '=' :: v.toList)

def set (e : Environment) (name value : String) : Environment :=
  ⟨Entries.put name value e.entries⟩

/-- A variable that has a value keeps it. -/
def setIfUnset (e : Environment) (name value : String) : Environment :=
  if (e.get? name).isSome then e else e.set name value

def ofList (pairs : List (String × String)) : Environment := ⟨Entries.ofList pairs⟩

end Environment

end Covenant
