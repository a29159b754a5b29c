namespace Covenant.Text

def isHex (c : Char) : Bool := c.isDigit || ('a' ≤ c && c ≤ 'f') || ('A' ≤ c && c ≤ 'F')

def hexValue (c : Char) : Nat :=
  if c.isDigit then c.toNat - '0'.toNat
  else if 'a' ≤ c then c.toNat - 'a'.toNat + 10
  else c.toNat - 'A'.toNat + 10

def hexNumber (cs : List Char) : Nat := cs.foldl (fun n c => 16 * n + hexValue c) 0

def hexCharacter? (digits : List Char) : Option Char :=
  let n := hexNumber digits
  if digits.all isHex ∧ n.isValidChar then some (Char.ofNat n) else none

end Covenant.Text
