namespace Covenant

/-- A finite binary floating point number of 64 bits, held exactly as `± significand × 2 ^
exponent`. Every operation rounds its exact result to the nearest of them, a tie going to the even
significand. -/
structure Binary64 where
  negative : Bool
  significand : Nat
  exponent : Int
deriving DecidableEq, Repr

namespace Binary64

/-- The least exponent; numbers that need a smaller one lose digits. -/
def minExponent : Int := -1074

def maxExponent : Int := 971

def zero (negative : Bool) : Binary64 := ⟨negative, 0, minExponent⟩

def twoTo (e : Nat) : Nat := Nat.pow 2 e

def tenTo (e : Nat) : Nat := Nat.pow 10 e

def truncate (x : Binary64) : Int :=
  let n : Nat := match x.exponent with
    | .ofNat e => x.significand * twoTo e
    | .negSucc e => x.significand / twoTo (e + 1)
  if x.negative then -n else n

/-- The quotient rounded to an integer, a half going to the even one. -/
def roundQuotient (num den : Nat) : Nat :=
  let q := num / den
  let r := num % den
  if den < 2 * r ∨ (den = 2 * r ∧ q % 2 = 1) then q + 1 else q

/-- `num / den` over `2 ^ e`, as a pair of whole numbers. -/
def scaled (num den : Nat) (e : Int) : Nat × Nat :=
  (num * twoTo (-e).toNat, den * twoTo e.toNat)

/-- The nearest number to `num / den`, or none if that lies beyond the largest one. -/
def ofRatio (negative : Bool) (num den : Nat) : Option Binary64 :=
  if num = 0 then some (zero negative)
  else
    let guess : Int := (num.log2 : Int) - (den.log2 : Int) - 53
    let (a, b) := scaled num den guess
    let e := max (if twoTo 53 ≤ a / b then guess + 1 else guess) minExponent
    let (a, b) := scaled num den e
    let m := roundQuotient a b
    let (m, e) := if m = twoTo 53 then (twoTo 52, e + 1) else (m, e)
    if maxExponent < e then none else some ⟨negative, m, e⟩

def ratio (x : Binary64) : Nat × Nat :=
  (x.significand * twoTo x.exponent.toNat, twoTo (-x.exponent).toNat)

def times? (x y : Binary64) : Option Binary64 :=
  ofRatio (x.negative != y.negative) (x.ratio.1 * y.ratio.1) (x.ratio.2 * y.ratio.2)

/-- The divisor is not zero. -/
def over? (x y : Binary64) : Option Binary64 :=
  ofRatio (x.negative != y.negative) (x.ratio.1 * y.ratio.2) (x.ratio.2 * y.ratio.1)

/-- The nearest number to `± digits × 10 ^ exponent`, or none if that lies beyond the largest one.
Magnitudes that are far from all numbers are not written out. -/
def nearestDecimal? (negative : Bool) (digits : Nat) (exponent : Int) : Option Binary64 :=
  let top := ((Nat.toDigits 10 digits).length : Int) + exponent
  if digits = 0 ∨ top < -400 then some (zero negative)
  else if 400 < top then none
  else ofRatio negative (digits * tenTo exponent.toNat) (tenTo (-exponent).toNat)

def powerOfTen? (e : Nat) : Option Binary64 := ofRatio false (tenTo e) 1

def maxPower : Nat := 308

/-- `± digits × 10 ^ exponent`, rounded three times: the digits, the power of ten, and their product
or quotient. Where the power is too small to be a number, the quotient is taken in two steps; two of
the longest steps bring any 64 bits of digits to zero. -/
def ofDecimal (negative : Bool) (digits : Nat) (exponent : Int) : Option Binary64 := do
  let x ← ofRatio negative digits 1
  if digits = 0 then some x
  else if 0 ≤ exponent then
    if maxPower < exponent then none else x.times? (← powerOfTen? exponent.toNat)
  else if -(maxPower : Int) ≤ exponent then x.over? (← powerOfTen? (-exponent).toNat)
  else if exponent < -(2 * maxPower : Int) then some (zero negative)
  else (← x.over? (← powerOfTen? maxPower)).over? (← powerOfTen? (-exponent - maxPower).toNat)

end Binary64

end Covenant
