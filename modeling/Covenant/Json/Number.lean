import Covenant.Binary64.Shortest

namespace Covenant.Json

/-- Whole numbers of up to 64 bits are kept exactly, all others are floating point. -/
inductive Number where
  | whole (n : Int)
  | float (x : Binary64)
deriving DecidableEq, Repr

namespace Number

/-- Whole numbers are kept from here, the least signed one, … -/
def leastWhole : Int := -(Binary64.twoTo 63 : Int)

/-- … up to here, the greatest unsigned one. -/
def greatestWhole : Int := (Binary64.twoTo 64 : Int) - 1

def digitValue (c : Char) : Nat := c.toNat - '0'.toNat

def natOfDigits (cs : List Char) : Nat := cs.foldl (fun n c => 10 * n + digitValue c) 0

def intOfDigits : List Char → Int
  | '-' :: cs => -(natOfDigits cs : Int)
  | '+' :: cs => natOfDigits cs
  | cs => natOfDigits cs

/-- Digits are gathered as long as the number they write fits 64 bits; the rest is left over. -/
def gather (n : Nat) : List Char → Nat × List Char
  | [] => (n, [])
  | c :: cs =>
    if 10 * n + digitValue c ≤ greatestWhole.toNat then gather (10 * n + digitValue c) cs
    else (n, c :: cs)

/-- The number that a literal of the JSON grammar writes: without fraction and exponent, and other
than `-0`, a whole number if it is kept as such; else a floating point number, and none beyond the
largest. Digits that no longer fit are dropped; before the point each still counts a power of ten. -/
def ofLiteral? (literal : List Char) : Option Number :=
  let negative := literal.head? = some '-'
  let body := if negative then literal.tail else literal
  let whole := body.takeWhile Char.isDigit
  let rest := body.dropWhile Char.isDigit
  let (fraction, rest) := match rest with
    | '.' :: r => (r.takeWhile Char.isDigit, r.dropWhile Char.isDigit)
    | r => ([], r)
  let power := match rest with
    | _ :: e => intOfDigits e
    | [] => 0
  let n := intOfDigits literal
  if body.all Char.isDigit ∧ leastWhole ≤ n ∧ n ≤ greatestWhole ∧ ¬(negative ∧ n = 0) then
    some (.whole n)
  else
    let (digits, droppedWhole) := gather 0 whole
    let (digits, droppedFraction) := gather digits fraction
    let exponent := power + droppedWhole.length - (fraction.length - droppedFraction.length : Nat)
    (Binary64.ofDecimal negative digits exponent).map .float

def significantDigits (d : Binary64.Decimal) : List Char × Int :=
  let ds := Nat.toDigits 10 d.digits
  ((ds.reverse.dropWhile (· == '0')).reverse, d.exponent + (ds.length : Int) - 1)

/-- A magnitude in positional notation if its leading digit stands between the fifth place after the
point and the sixteenth before it, else with an exponent, whose sign is always written. -/
def magnitudeText (d : Binary64.Decimal) : List Char :=
  let (ds, e) := significantDigits d
  if 0 ≤ e ∧ e ≤ 15 then
    let intPart := ds.take (e.toNat + 1)
    let fraction := ds.drop (e.toNat + 1)
    intPart ++ List.replicate (e.toNat + 1 - intPart.length) '0' ++ '.' ::
      (if fraction.isEmpty then ['0'] else fraction)
  else if -5 ≤ e ∧ e < 0 then
    ['0', '.'] ++ List.replicate ((-e).toNat - 1) '0' ++ ds
  else
    let mantissa := match ds with
      | [] => []
      | [d] => [d]
      | d :: more => d :: '.' :: more
    mantissa ++ 'e' :: (if e < 0 then '-' else '+') :: Nat.toDigits 10 e.natAbs

def floatText (x : Binary64) : List Char :=
  (if x.negative then ['-'] else []) ++
    (if x.significand = 0 then ['0', '.', '0'] else magnitudeText x.shortest)

def text : Number → List Char
  | .whole (.ofNat n) => Nat.toDigits 10 n
  | .whole (.negSucc n) => '-' :: Nat.toDigits 10 (n + 1)
  | .float x => floatText x

end Number

end Covenant.Json
