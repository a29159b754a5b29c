import Covenant.Text.Blank
import Covenant.Json.Number

namespace Covenant.Text

def fitsInt64 (n : Int) : Bool :=
  -(Binary64.twoTo 63 : Int) ≤ n && n < (Binary64.twoTo 63 : Int)

def unsigned? (cs : List Char) : Option Nat :=
  if cs.isEmpty || !cs.all Char.isDigit then none else some (Json.Number.natOfDigits cs)

def signed? : List Char → Option Int
  | '-' :: ds => (unsigned? ds).map fun n => -(n : Int)
  | '+' :: ds => (unsigned? ds).map Int.ofNat
  | ds => (unsigned? ds).map Int.ofNat

/-- Between blanks, at most one sign and one or more digits of the ASCII range, for a number of 64
bits. -/
def int64? (s : String) : Option Int := (signed? (trim s.toList)).filter fitsInt64

end Covenant.Text
