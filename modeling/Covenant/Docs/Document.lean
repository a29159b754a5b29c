import Covenant.Docs.Tree
import Covenant.Entries
import Covenant.Json.Parts

namespace Covenant.Docs

structure Info where
  title : String
  version : String
deriving DecidableEq, Repr

inductive Location where
  | path
  | body
deriving DecidableEq, Repr

structure Parameter where
  name : String
  location : Location
  type : Option String
  required : Bool
  /-- The definition that describes a body. -/
  reference : Option String
deriving DecidableEq, Repr

structure Response where
  description : String
  reference : String
deriving DecidableEq, Repr

structure Endpoint where
  operation : String
  parameters : List Parameter
  responses : List (UInt16 × Response)
deriving DecidableEq, Repr

structure Definition where
  type : String
  properties : List (String × String)
deriving DecidableEq, Repr

/-- A Swagger 2.0 document, which is written as a tree and read back from JSON text. -/
structure Document where
  swagger : String
  host : String
  info : Info
  schemes : List String
  basePath : String
  produces : List String
  paths : List (String × List (String × Endpoint))
  definitions : List (String × Definition)
deriving DecidableEq, Repr

@[ext]
structure BasicInfo where
  host : String
  title : String
  version : String
  schemes : List String
  basePath : String
deriving DecidableEq, Repr

namespace Location

def name : Location → String
  | .path => "path"
  | .body => "body"

def ofName? : String → Option Location
  | "path" => some .path
  | "body" => some .body
  | _ => none

end Location

open Docs.Tree

def referenceTree (reference : String) : Tree := names [("$ref", .text reference)]

def optionalEntry (name : String) : Option Tree → List (String × Tree)
  | some t => [(name, t)]
  | none => []

def Parameter.tree (p : Parameter) : Tree :=
  names ([("name", .text p.name), ("in", .text p.location.name)] ++
    optionalEntry "type" (p.type.map .text) ++ [("required", .flag p.required)] ++
    optionalEntry "schema" (p.reference.map referenceTree))

def Response.tree (r : Response) : Tree :=
  names [("description", .text r.description), ("schema", referenceTree r.reference)]

/-- No parameters are left out. -/
def Endpoint.tree (e : Endpoint) : Tree :=
  names ([("operationId", .text e.operation)] ++
    (if e.parameters.isEmpty then []
      else [("parameters", .list (e.parameters.map Parameter.tree))]) ++
    [("responses", .table (e.responses.map fun (status, r) => (.code status, r.tree)))])

def Definition.tree (d : Definition) : Tree :=
  names [("type", .text d.type),
    ("properties", names (d.properties.map fun (f, type) => (f, names [("type", .text type)])))]

namespace Document

def entries (d : Document) : List (String × Tree) :=
  [("swagger", .text d.swagger), ("host", .text d.host),
    ("info", names [("title", .text d.info.title), ("version", .text d.info.version)]),
    ("schemes", texts d.schemes), ("basePath", .text d.basePath), ("produces", texts d.produces),
    ("paths", names (d.paths.map fun (path, methods) =>
      (path, names (methods.map fun (method, e) => (method, e.tree))))),
    ("definitions", names (d.definitions.map fun (name, definition) => (name, definition.tree)))]

def tree (d : Document) : Tree := names d.entries

def json (d : Document) : String := d.tree.toJson.pretty

end Document

open Json Source

/-- A table whose keys are strings; of equal keys the last value counts. -/
def table? {α : Type} (read : Source → Option α) : Source → Option (List (String × α))
  | .object members => do
    let pairs ← members.mapM fun (k, s) => do some (← textOf? k, ← read s)
    some (Entries.ofList pairs)
  | _ => none

/-- A status as it is written: a number of 16 bits without leading zeros. -/
def statusKey? (cs : List Char) : Option UInt16 :=
  match scanInteger cs with
  | some (ds, []) =>
    let n := Json.Number.natOfDigits ds
    if n < UInt16.size then some n.toUInt16 else none
  | _ => none

def statusTable? {α : Type} (read : Source → Option α) : Source → Option (List (UInt16 × α))
  | .object members => do
    let pairs ← members.mapM fun (k, s) => do some (← statusKey? k, ← read s)
    some (Entries.ofList pairs)
  | _ => none

def list? {α : Type} (read : Source → Option α) (s : Source) : Option (List α) := do
  (← s.array?).mapM read

def single? (name : String) (s : Source) : Option String := do
  match ← parts? [name] s with
  | [part] => part.required? string?
  | _ => none

def Parameter.ofSource? (s : Source) : Option Parameter := do
  match ← parts? ["name", "in", "type", "required", "schema"] s with
  | [name, location, type, required, schema] =>
    some {
      name := ← name.required? string?
      location := ← (← location.required? choice?) |> Location.ofName?
      type := ← type.optional? string?
      required := ← required.required? bool?
      reference := ← schema.optional? (single? "$ref") }
  | _ => none

def Response.ofSource? (s : Source) : Option Response := do
  match ← parts? ["description", "schema"] s with
  | [description, schema] =>
    some {
      description := ← description.required? string?
      reference := ← schema.required? (single? "$ref") }
  | _ => none

def Endpoint.ofSource? (s : Source) : Option Endpoint := do
  match ← parts? ["operationId", "parameters", "responses"] s with
  | [operation, parameters, responses] =>
    some {
      operation := ← operation.required? string?
      parameters := ← parameters.withDefault? [] (list? Parameter.ofSource?)
      responses := ← responses.required? (statusTable? Response.ofSource?) }
  | _ => none

def Definition.ofSource? (s : Source) : Option Definition := do
  match ← parts? ["type", "properties"] s with
  | [type, properties] =>
    some {
      type := ← type.required? string?
      properties := ← properties.required? (table? (single? "type")) }
  | _ => none

def Info.ofSource? (s : Source) : Option Info := do
  match ← parts? ["title", "version"] s with
  | [title, version] =>
    some { title := ← title.required? string?, version := ← version.required? string? }
  | _ => none

namespace Document

def ofSource? (s : Source) : Option Document := do
  match ← parts? ["swagger", "host", "info", "schemes", "basePath", "produces", "paths",
      "definitions"] s with
  | [swagger, host, info, schemes, basePath, produces, paths, definitions] =>
    some {
      swagger := ← swagger.required? string?
      host := ← host.required? string?
      info := ← info.required? Info.ofSource?
      schemes := ← schemes.required? (list? string?)
      basePath := ← basePath.required? string?
      produces := ← produces.required? (list? string?)
      paths := ← paths.required? (table? (table? Endpoint.ofSource?))
      definitions := ← definitions.required? (table? Definition.ofSource?) }
  | _ => none

def ofJson? (text : String) : Option Document := (Source.ofText? text).bind ofSource?

end Document

end Covenant.Docs
