namespace Covenant

inductive Stage where
  | unvalidated
  | pathValidated
  | bodyValidated
  | combined
  | ready
deriving DecidableEq, Repr

namespace Stage

def name : Stage → String
  | .unvalidated => "unvalidated"
  | .pathValidated => "path_validated"
  | .bodyValidated => "body_validated"
  | .combined => "combined"
  | .ready => "ready"

def rank : Stage → Nat
  | .unvalidated => 0
  | .pathValidated => 1
  | .bodyValidated => 2
  | .combined => 3
  | .ready => 4

end Stage

end Covenant
