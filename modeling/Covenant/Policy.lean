import Covenant.Json.Parts

namespace Covenant

@[ext]
structure Policy where
  validateRequests : Bool
  validateResponses : Bool
  /-- A response that breaks its contract is an error and not only reported. -/
  enforceResponses : Bool
  /-- An absent parameter or member is an error where it is read. -/
  rejectMissingFields : Bool
  /-- A response with an undeclared status passes unchecked. -/
  allowUndeclaredStatus : Bool
deriving DecidableEq, Repr

namespace Policy

def default : Policy := ⟨true, true, true, false, false⟩

def strict : Policy := ⟨true, true, true, true, false⟩

def permissive : Policy := ⟨false, false, false, false, true⟩

def development : Policy := default

def production : Policy := ⟨true, true, false, false, true⟩

def names : List String := ["validate_requests", "validate_responses", "enforce_responses",
  "reject_missing_fields", "allow_undeclared_status"]

def toJson (p : Policy) : Json.Value :=
  .object (names.zip (([p.validateRequests, p.validateResponses, p.enforceResponses,
    p.rejectMissingFields, p.allowUndeclaredStatus]).map .bool))

def ofFlags? : List Bool → Option Policy
  | [a, b, c, d, e] => some ⟨a, b, c, d, e⟩
  | _ => none

/-- Every flag has to be written. -/
def ofText? (text : String) : Option Policy := do
  let source ← Json.Source.ofText? text
  let parts ← source.parts? names
  let flags ← parts.mapM (·.required? Json.Source.bool?)
  ofFlags? flags

end Policy

end Covenant
