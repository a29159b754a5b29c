import Covenant.Binary64

namespace Covenant.Binary64

def leastInt64 : Int := -(twoTo 63 : Int)

def greatestInt64 : Int := (twoTo 63 : Int) - 1

def ofInt? (n : Int) : Option Binary64 := ofRatio (n < 0) n.natAbs 1

def trunc (x : Binary64) : Binary64 :=
  let unit := twoTo (-x.exponent).toNat
  { x with significand := x.significand / unit * unit }

/-- How many times `2 ^ e` the number is; `e` is not above its exponent. -/
def steps (x : Binary64) (e : Int) : Int :=
  let n : Int := x.significand * twoTo (x.exponent - e).toNat
  if x.negative then -n else n

def le (x y : Binary64) : Bool :=
  let e := min x.exponent y.exponent
  x.steps e ≤ y.steps e

def lt (x y : Binary64) : Bool := !y.le x

def saturate (n : Int) : Int := max leastInt64 (min greatestInt64 n)

/-- The number gives up its fraction and becomes an integer of 64 bits, if it lies between the
bounds of these as numbers. The upper bound is no number: it becomes the next power of two, which
must not be reached. -/
def toInt64? (x : Binary64) : Option Int := do
  let low ← ofInt? leastInt64
  let high ← ofInt? greatestInt64
  if low.le x.trunc && x.trunc.lt high then some (saturate x.trunc.truncate) else none

end Covenant.Binary64
