namespace Covenant

/-- Where a value fails its schema, and why. -/
structure Problem where
  path : String
  message : String
deriving DecidableEq, Repr

def Problem.text (p : Problem) : String := s!"validation error at '{p.path}': {p.message}"

inductive ContractError where
  | request (problem : Problem)
  | response (problem : Problem)
  | missingField (schema field : String)
  | definition (message : String)
  | unmappedOperation (operation : String)
  | undeclaredStatus (operation : String) (status : UInt16)
deriving DecidableEq, Repr

/-- The client's fault, the handler's, or the author's of the contract. -/
inductive Category where
  | validation
  | responseValidation
  | definition
deriving DecidableEq, Repr

namespace Category

def name : Category → String
  | .validation => "validation"
  | .responseValidation => "response_validation"
  | .definition => "definition"

def all : List Category := [.validation, .responseValidation, .definition]

def ofName? (name : String) : Option Category := all.find? (·.name == name)

def status : Category → UInt16
  | .validation => 400
  | .responseValidation => 500
  | .definition => 500

end Category

namespace ContractError

def text : ContractError → String
  | .request p => s!"request validation failed: {p.text}"
  | .response p => s!"response validation failed: {p.text}"
  | .missingField schema field => s!"missing field '{field}' for schema '{schema}'"
  | .definition message => s!"definition error: {message}"
  | .unmappedOperation id => s!"operation '{id}' is not registered"
  | .undeclaredStatus id status => s!"operation '{id}' declares no response for status {status.toNat}"

def category : ContractError → Category
  | .request _ => .validation
  | .missingField _ _ => .validation
  | .response _ => .responseValidation
  | .definition _ => .definition
  | .unmappedOperation _ => .definition
  | .undeclaredStatus _ _ => .definition

def isValidation (e : ContractError) : Bool := e.category != .definition

def status (e : ContractError) : UInt16 := e.category.status

def problem? : ContractError → Option Problem
  | .request p => some p
  | .response p => some p
  | _ => none

end ContractError

inductive DefinitionFault where
  | undeclaredField (schema field : String)
  | sharedField (field first second : String)
  | unsuppliedField (field schema : String)
  | conflictingTypes (field partialType partialName canonicalType canonicalName : String)
  | missingSegment (field template : String)
  | takenRoute (method template holder : String)
  | inOperation (operation message : String)
  | noOperation
  | finishedPipeline (operation : String)
deriving DecidableEq, Repr

namespace DefinitionFault

def message : DefinitionFault → String
  | .undeclaredField schema field => s!"schema '{schema}' declares no field '{field}'"
  | .sharedField field first second => s!"field '{field}' is declared by both '{first}' and '{second}'"
  | .unsuppliedField field schema =>
    s!"field '{field}' of '{schema}' is not supplied by the path or body schema"
  | .conflictingTypes field partialType partialName canonicalType canonicalName =>
    s!"field '{field}' is {partialType} in '{partialName}' but {canonicalType} in '{canonicalName}'"
  | .missingSegment field template =>
    s!"path schema field '{field}' has no '\x7b{field}\x7d' segment in '{template}'"
  | .takenRoute method template holder => s!"{method} {template} is already bound to '{holder}'"
  | .inOperation id message => s!"operation '{id}': {message}"
  | .noOperation => "no operation bound to the request context"
  | .finishedPipeline id => s!"request pipeline for '{id}' already ran"

def error (f : DefinitionFault) : ContractError := .definition f.message

end DefinitionFault

end Covenant
