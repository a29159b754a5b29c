import Covenant.Binary64

namespace Covenant.Binary64

/-- A whole number of units `10 ^ exponent`. -/
structure Decimal where
  digits : Nat
  exponent : Int
deriving DecidableEq, Repr

/-- Lower end, number and upper end of the rounding interval, over one denominator. -/
structure Interval where
  low : Nat
  mid : Nat
  high : Nat
  den : Nat
  closed : Bool

def interval (x : Binary64) : Interval :=
  let m := x.significand
  let gap := if m = twoTo 52 ∧ minExponent < x.exponent then 1 else 2
  let up := twoTo (x.exponent - 2).toNat
  ⟨(4 * m - gap) * up, 4 * m * up, (4 * m + 2) * up, twoTo (2 - x.exponent).toNat, m % 2 = 0⟩

def leadingExponent (num den : Nat) : Int :=
  if den ≤ num then ((Nat.toDigits 10 (num / den)).length : Int) - 1
  else
    let t := (Nat.toDigits 10 (den / num)).length
    if den ≤ num * tenTo (t - 1) then 1 - (t : Int) else -(t : Int)

/-- `c` units `10 ^ s` lie in the interval. -/
def Interval.holds (i : Interval) (s : Int) (c : Nat) : Bool :=
  let at' (n : Nat) := n * tenTo (-s).toNat
  let point := c * (i.den * tenTo s.toNat)
  if i.closed then at' i.low ≤ point && point ≤ at' i.high
  else at' i.low < point && point < at' i.high

/-- The better neighbour of the number on the grid of step `10 ^ s`, if one lies in the interval. -/
def Interval.nearest? (i : Interval) (s : Int) : Option Nat :=
  let num := i.mid * tenTo (-s).toNat
  let den := i.den * tenTo s.toNat
  let c := num / den
  match i.holds s c, i.holds s (c + 1) with
  | true, true =>
    some (if 2 * (num % den) < den ∨ (2 * (num % den) = den ∧ c % 2 = 0) then c else c + 1)
  | true, false => some c
  | false, true => some (c + 1)
  | false, false => none

/-- Seventeen digits always suffice, so the last alternative is not met. -/
def searchDigits (i : Interval) (top : Int) : Nat → Nat → Decimal
  | 0, n => ⟨i.mid / i.den, top - n⟩
  | more + 1, n =>
    match i.nearest? (top - n) with
    | some c => ⟨c, top - n⟩
    | none => searchDigits i top more (n + 1)

/-- The shortest decimal that reads back as the magnitude of a number other than zero, and among
those of its length the nearest. The reals that round to the number form an interval, whose ends
belong to it iff the significand is even; for each count of digits only the two neighbours on that
decimal grid can lie in it first. -/
def shortest (x : Binary64) : Decimal :=
  let i := x.interval
  searchDigits i (leadingExponent i.mid i.den) 17 0

end Covenant.Binary64
