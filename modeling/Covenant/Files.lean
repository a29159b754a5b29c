import Covenant.Text.Split

namespace Covenant

inductive FileNode where
  | file (content : ByteArray)
  | directory

/-- Files and directories by their steps from a working directory. -/
structure Directory where
  nodes : List (List String × FileNode)

/-- Where a path leads: so many steps down from the working directory, or above it. -/
inductive Place where
  | within (steps : List String)
  | above

namespace Directory

def empty : Directory := ⟨[]⟩

def put (d : Directory) (path : String) (node : FileNode) : Directory :=
  ⟨(Text.split '/' path, node) :: d.nodes⟩

/-- A directory is there if something is in it. -/
def node? (d : Directory) : Place → Option FileNode
  | .above => some .directory
  | .within steps =>
    if steps.isEmpty then some .directory
    else match d.nodes.lookup steps with
      | some node => some node
      | none => if d.nodes.any fun (other, _) => steps.isPrefixOf other then some .directory else none

def isDirectory (d : Directory) (place : Place) : Bool :=
  match d.node? place with
  | some .directory => true
  | _ => false

def up : Place → Place
  | .above => .above
  | .within steps => if steps.isEmpty then .above else .within steps.dropLast

def down? (d : Directory) (step : String) : Place → Option Place
  | .above => none
  | .within steps =>
    let place := Place.within (steps ++ [step])
    if (d.node? place).isSome then some place else none

def follow? (d : Directory) (place : Place) : List String → Option Place
  | [] => some place
  | step :: rest =>
    if !d.isDirectory place then none
    else if step = "" ∨ step = "." then d.follow? place rest
    else if step = ".." then d.follow? (up place) rest
    else (d.down? step place).bind fun next => d.follow? next rest

/-- Names and paths are bounded in bytes, and a null character is in none of them. -/
def isPath (path : String) : Bool :=
  path != "" && path.utf8ByteSize ≤ 4095 && !path.contains '\x00' &&
    (Text.split '/' path).all (·.utf8ByteSize ≤ 255)

def start (path : String) : Place := if path.startsWith "/" then .above else .within []

def find? (d : Directory) (path : String) : Option FileNode :=
  if isPath path then (d.follow? (start path) (Text.split '/' path)).bind d.node? else none

/-- A file can be written where its directory exists and no directory has its name. -/
def canWrite (d : Directory) (path : String) : Bool :=
  let steps := Text.split '/' path
  match steps.getLast? with
  | none => false
  | some name =>
    isPath path && name != "" && name != "." && name != ".." && !path.startsWith "/" &&
      match d.follow? (start path) steps.dropLast with
      | some place =>
        d.isDirectory place && !((d.down? name place).any d.isDirectory)
      | none => false

end Directory

def FileNode.text? : FileNode → Option String
  | .file content => String.fromUTF8? content
  | .directory => none

end Covenant
