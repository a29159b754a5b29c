import Covenant.Docs.Export
import Covenant.Exchange

namespace Covenant

structure Draft where
  registry : Registry
  policy : Policy
  info : Docs.BasicInfo
  documentPath : String

structure Service where
  registry : Registry
  policy : Policy
  info : Docs.BasicInfo
  documentPath : String

namespace Draft

def new (policy : Policy) (info : Docs.BasicInfo) (documentPath : String) : Draft :=
  ⟨.empty, policy, info, documentPath⟩

def routeFault? (registry : Registry) (o : Operation) : Option DefinitionFault :=
  (registry.operations.find? fun p =>
    p.method = o.method ∧ p.template = o.template ∧ p.id ≠ o.id).map
      fun p => .takenRoute o.method.text o.template p.id

def segmentFault? (o : Operation) : Option DefinitionFault := do
  let path ← o.contract.request.path
  let field ← path.fieldNames.find? fun f => !Template.mentions o.template f
  some (.missingSegment field o.template)

/-- The first reason not to take an operation. -/
def fault? (d : Draft) (o : Operation) : Option DefinitionFault :=
  (o.contract.request.fault?.or ((segmentFault? o).or (routeFault? d.registry o))).map
    fun fault => .inOperation o.id fault.message

def addRoute (d : Draft) (o : Operation) : Recorded (Draft × Except ContractError Unit) := do
  match d.fault? o with
  | some fault => return (d, .error fault.error)
  | none =>
    Recorded.emit (.routeRegistered o.id o.method.text o.template)
    let (registry, _) ← d.registry.register o
    return ({ d with registry := registry }, .ok ())

def build (d : Draft) : Recorded Service := do
  Recorded.emit (.registryFrozen d.registry.size)
  return ⟨d.registry, d.policy, d.info, d.documentPath⟩

end Draft

namespace Service

def route? (s : Service) (id : RequestId) (method : Method) (path : String) :
    Option (Context × Captures) :=
  (s.registry.resolve? method path).map fun (o, captures) => (.bound id o.id, captures)

def beforeDispatch (s : Service) (context : Context) (captures : Captures) (body : Json.Value) :
    Recorded (Context × Except ContractError Unit) :=
  Exchange.validateRequest s.registry s.policy context captures body

def afterHandler (s : Service) (context : Context) (status : Status) (body : Json.Value) :
    Recorded (Except ContractError Unit) :=
  Exchange.validateResponse s.registry s.policy context status body

def render (s : Service) (context : Context) (status : Status) (content : Instance) :
    Except ContractError (Status × Json.Value) :=
  Exchange.renderResponse s.registry context status content

def document (s : Service) (info : Docs.BasicInfo) : Recorded Docs.Document :=
  Docs.Document.ofRegistry info s.registry

def write? (s : Service) (directory : Directory) (path : String) : Recorded (Option String) := do
  (← s.document s.info).write? directory path

def writeConfigured? (s : Service) (directory : Directory) : Recorded (Option String) :=
  s.write? directory s.documentPath

end Service

end Covenant
