import Covenant.Json.Number

namespace Covenant.Text

def dropSign : List Char → List Char
  | '-' :: cs => cs
  | '+' :: cs => cs
  | cs => cs

/-- The digits without the point, and the power of ten that goes with them. -/
def decimal? (cs : List Char) : Option (Nat × Int) :=
  let cs := dropSign cs
  let whole := cs.takeWhile Char.isDigit
  let rest := cs.dropWhile Char.isDigit
  let (fraction, rest) := match rest with
    | '.' :: r => (r.takeWhile Char.isDigit, r.dropWhile Char.isDigit)
    | r => ([], r)
  let power? : Option Int := match rest with
    | [] => some 0
    | e :: ds =>
      if (e = 'e' ∨ e = 'E') ∧ dropSign ds ≠ [] ∧ (dropSign ds).all Char.isDigit then
        some (Json.Number.intOfDigits ds)
      else none
  if (whole ++ fraction).isEmpty then none
  else power?.map fun power =>
    (Json.Number.natOfDigits (whole ++ fraction), power - fraction.length)

end Covenant.Text
