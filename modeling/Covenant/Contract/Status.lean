namespace Covenant

structure Status where
  code : UInt16
  threeDigits : 100 ≤ code ∧ code ≤ 999
deriving DecidableEq, Repr

namespace Status

def ofNat? (n : Nat) : Option Status :=
  if h : 100 ≤ n.toUInt16 ∧ n.toUInt16 ≤ 999 then
    if n < UInt16.size then some ⟨n.toUInt16, h⟩ else none
  else none

def success : Status := ⟨200, by decide⟩

def created : Status := ⟨201, by decide⟩

def notFound : Status := ⟨404, by decide⟩

end Status

end Covenant
