import Covenant.Error
import Covenant.Json.Parts

namespace Covenant

/-- How an error travels to the client: a code, the message, its category and the fields of the
error, with the id of the request if it is known. -/
structure Envelope where
  code : String
  message : String
  category : Category
  details : Option Json.Value
  requestId : Option String

namespace ContractError

def code : ContractError → String
  | .request _ => "VALIDATION_ERROR"
  | .response _ => "RESPONSE_VALIDATION_ERROR"
  | .missingField _ _ => "MISSING_FIELD"
  | .definition _ => "DEFINITION_ERROR"
  | .unmappedOperation _ => "UNMAPPED_OPERATION"
  | .undeclaredStatus _ _ => "UNDECLARED_STATUS"

def problemDetails (p : Problem) : Json.Value :=
  .ofPairs [("path", .string p.path), ("message", .string p.message)]

def details : ContractError → Option Json.Value
  | .request p => some (problemDetails p)
  | .response p => some (problemDetails p)
  | .missingField schema field =>
    some (.ofPairs [("schema", .string schema), ("field", .string field)])
  | .definition _ => none
  | .unmappedOperation id => some (.ofPairs [("operation_id", .string id)])
  | .undeclaredStatus id status =>
    some (.ofPairs [("operation_id", .string id), ("status", .int status.toNat)])

def envelope (e : ContractError) (requestId : Option String) : Envelope :=
  ⟨e.code, e.text, e.category, e.details, requestId⟩

end ContractError

namespace Envelope

def optionalMember (name : String) : Option Json.Value → List (String × Json.Value)
  | some v => [(name, v)]
  | none => []

/-- Parts that are absent are left out. -/
def toJson (e : Envelope) : Json.Value :=
  .object (("error", .object ([("code", .string e.code), ("message", .string e.message),
      ("category", .string e.category.name)] ++ optionalMember "details" e.details)) ::
    optionalMember "request_id" (e.requestId.map .string))

def text (e : Envelope) : String := e.toJson.compact

open Json.Source in
def ofSource? (s : Json.Source) : Option Envelope :=
  match parts? ["error", "request_id"] s with
  | some [error, requestId] => do
    let requestId ← requestId.optionalMember? string?
    match parts? ["code", "message", "category", "details"] (← error.required? some) with
    | some [code, message, category, details] =>
      some {
        code := ← code.required? string?
        message := ← message.required? string?
        category := ← (← category.required? choice?) |> Category.ofName?
        details := ← details.optionalMember? fun d => (value? d).map Json.Value.sorted
        requestId := requestId }
    | _ => none
  | _ => none

def ofText? (text : String) : Option Envelope := (Json.Source.ofText? text).bind ofSource?

end Envelope

end Covenant
