import Covenant.Record

namespace Covenant

inductive Counter where
  | requestsRejected
  | requestsValidated
  | responsesRejected
deriving DecidableEq, Repr

namespace Counter

def all : List Counter := [.requestsRejected, .requestsValidated, .responsesRejected]

def name : Counter → String
  | .requestsRejected => "miyabi_request_validation_failures_total"
  | .requestsValidated => "miyabi_requests_validated_total"
  | .responsesRejected => "miyabi_response_validation_failures_total"

def description : Counter → String
  | .requestsRejected => "Total number of requests rejected by contract validation"
  | .requestsValidated => "Total number of requests that passed contract validation"
  | .responsesRejected => "Total number of responses that broke their declared contract"

def help (c : Counter) : String := s!"# HELP {c.name} {c.description}"

def type (c : Counter) : String := s!"# TYPE {c.name} counter"

end Counter

namespace Count

def counter : Count → Counter
  | .requestValidated _ => .requestsValidated
  | .requestRejected _ => .requestsRejected
  | .responseRejected _ _ => .responsesRejected

def labels : Count → List (String × String)
  | .requestValidated id => [("operation", id)]
  | .requestRejected id => [("operation", id)]
  | .responseRejected id status => [("operation", id), ("status", toString status.toNat)]

/-- The value of a label, escaped. A backslash waits for the character after it: two of them, and one
before any other character, become an escaped one, but one before a quote joins the quote's own
escape. A line break goes ahead of a backslash that waits. -/
def escaped (waiting : Bool) : List Char → List Char
  | [] => backslash waiting
  | c :: rest =>
    if c = '\n' then '\\' :: 'n' :: escaped waiting rest
    else if c = '"' then '\\' :: '"' :: escaped false rest
    else if c = '\\' then backslash waiting ++ escaped (!waiting) rest
    else backslash waiting ++ c :: escaped false rest
where
  backslash (waiting : Bool) : List Char := if waiting then ['\\', '\\'] else []

def quoted (value : String) : String := "\"" ++ String.ofList (escaped false value.toList) ++ "\""

def text (c : Count) : String :=
  c.counter.name ++ "\x7b" ++ ",".intercalate (c.labels.map fun (k, v) => k ++ "=" ++ quoted v) ++
    "\x7d"

end Count

namespace Counter

def tally (counts : List Count) : List (String × Nat) :=
  let texts := counts.map Count.text
  (texts.eraseDups.mergeSort fun a b => a ≤ b).map fun t => (t, texts.count t)

def introductions (counts : List Count) : List String :=
  let raised := all.filter fun c => counts.any (·.counter = c)
  raised.map help ++ raised.map type

end Counter

end Covenant
