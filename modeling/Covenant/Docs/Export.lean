import Covenant.Docs.Document
import Covenant.Files
import Covenant.Registry
import Covenant.Text.Case
import Covenant.Text.FileName
import Covenant.Yaml.Printer

namespace Covenant.Docs

def typeName (t : FieldType) : String := Text.lowerAscii t.name

def definitionReference (name : String) : String := "#/definitions/" ++ name

def Definition.ofSchema (s : RecordSchema) : Definition :=
  ⟨"object", s.fields.map fun (f, t) => (f, typeName t)⟩

/-- The same type and properties, in whatever order. -/
def Definition.sameContent (a b : Definition) : Bool :=
  a.type == b.type && Entries.sameContent a.properties b.properties

def Parameter.inPath (name type : String) : Parameter := ⟨name, .path, some type, true, none⟩

def Parameter.forBody (schema : String) : Parameter :=
  ⟨"body", .body, none, true, some (definitionReference schema)⟩

def Endpoint.ofOperation (o : Operation) : Endpoint where
  operation := o.id
  parameters :=
    (o.contract.request.path.toList.flatMap fun s =>
      s.fields.map fun (f, t) => .inPath f (typeName t)) ++
    (o.contract.request.body.toList.map fun s => .forBody s.name)
  responses := o.contract.responses.map fun (status, r) =>
    (status.code, ⟨r.description, definitionReference r.schema.name⟩)

def usedSchemas (o : Operation) : List RecordSchema :=
  o.contract.request.body.toList ++ o.contract.responses.map (·.2.schema)

/-- A name that so far stood for something else is reported. -/
def define (definitions : List (String × Definition)) (s : RecordSchema) :
    Recorded (List (String × Definition)) := do
  let definition := Definition.ofSchema s
  if let some previous := definitions.lookup s.name then
    if !previous.sameContent definition then Recorded.emit (.definitionReshaped s.name)
  return Entries.put s.name definition definitions

def defineAll (operations : List Operation) : Recorded (List (String × Definition)) :=
  (operations.flatMap usedSchemas).foldlM define []

def addPath (paths : List (String × List (String × Endpoint))) (o : Operation) :
    List (String × List (String × Endpoint)) :=
  let methods := (paths.lookup o.template).getD []
  Entries.put o.template
    (Entries.put (Text.lowerAscii o.method.text) (Endpoint.ofOperation o) methods) paths

def swaggerVersion : String := "2.0"

/-- Operations are grouped by template and lower-case method; the schemas of bodies and responses
become definitions under their names, of which the latest stays. -/
def Document.ofRegistry (basic : BasicInfo) (registry : Registry) : Recorded Document := do
  let definitions ← defineAll registry.operations
  return {
    swagger := swaggerVersion
    host := basic.host
    info := ⟨basic.title, basic.version⟩
    schemes := basic.schemes
    basePath := basic.basePath
    produces := ["application/json"]
    paths := registry.operations.foldl addPath []
    definitions := definitions }

inductive Format where
  | json
  | yaml
deriving DecidableEq, Repr

namespace Format

def name : Format → String
  | .json => "json"
  | .yaml => "yaml"

def ofPath (path : String) : Format :=
  match Text.extension? path with
  | some e => if Text.equalIgnoringAsciiCase e "json" then .json else .yaml
  | none => .yaml

end Format

namespace Document

def yaml (d : Document) : String :=
  Yaml.document (d.entries.map fun (k, t) => (.name k, t))

def render (d : Document) : Format → String
  | .json => d.json
  | .yaml => d.yaml

def write? (d : Document) (directory : Directory) (path : String) : Recorded (Option String) := do
  if directory.canWrite path then
    let format := Format.ofPath path
    Recorded.emit (.documentWritten path format.name)
    return some (d.render format)
  else return none

end Document

end Covenant.Docs
