import Covenant.Binary64.Integer
import Covenant.Instance
import Covenant.Json.Printer
import Covenant.Text.Integer

namespace Covenant.Validation

open Json Text

/-- An integer is taken from a number, whose fraction is cut off, from a boolean or from text. -/
def coerceInteger : Value → Except String Int
  | .number (.whole n) =>
    if fitsInt64 n then .ok n else .error s!"integer {n} is out of range"
  | .number (.float x) =>
    match x.toInt64? with
    | some n => .ok n
    | none => .error s!"number {String.ofList (Number.floatText x)} is not an integer"
  | .bool b => .ok b.toInt
  | .string s =>
    match int64? s with
    | some n => .ok n
    | none => .error s!"'{s}' is not a valid integer"
  | v => .error s!"expected integer, got {v.kindName}"

/-- A string stands for itself, any other value for its text. -/
def coerceText : Value → String
  | .string s => s
  | v => v.compact

end Covenant.Validation
