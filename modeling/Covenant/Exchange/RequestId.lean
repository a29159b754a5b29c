import Covenant.Json.Meaning

namespace Covenant

/-- An id has 128 bits, written as hexadecimal digits in groups of 8, 4, 4, 4 and 12. -/
structure RequestId where
  bits : BitVec 128
deriving DecidableEq, Repr

namespace RequestId

open Json

def ofDigits? (cs : List Char) : Option RequestId :=
  if cs.length = 32 ∧ cs.all Text.isHex then some ⟨BitVec.ofNat 128 (Text.hexNumber cs)⟩
  else none

/-- Cuts at the hyphens of the written form, which stand after 8, 13, 18 and 23 characters. -/
def ofGroups? (cs : List Char) : Option RequestId :=
  if cs.length = 36 ∧ [8, 13, 18, 23].all fun i => cs[i]? = some '-' then
    ofDigits? (cs.take 8 ++ (cs.drop 9).take 4 ++ (cs.drop 14).take 4 ++ (cs.drop 19).take 4 ++
      cs.drop 24)
  else none

def urns : List (List Char) := ["urn:uuid:".toList, "URN:UUID:".toList]

/-- Accepts the digits alone, in groups, in groups within braces, and in groups as a URN. -/
def ofText? (text : String) : Option RequestId :=
  let cs := text.toList
  if cs.length = 32 then ofDigits? cs
  else if cs.length = 36 then ofGroups? cs
  else if cs.length = 38 ∧ cs.head? = some '\x7b' ∧ cs.getLast? = some '\x7d' then
    ofGroups? cs.tail.dropLast
  else if cs.take 9 ∈ urns then ofGroups? (cs.drop 9)
  else none

def hexDigits : Nat → Nat → List Char
  | 0, _ => []
  | n + 1, v => hexDigits n (v / 16) ++ [hexDigit (v % 16)]

def text (id : RequestId) : String :=
  let ds := hexDigits 32 id.bits.toNat
  String.ofList (ds.take 8 ++ '-' :: (ds.drop 8).take 4 ++ '-' :: (ds.drop 12).take 4 ++
    '-' :: (ds.drop 16).take 4 ++ '-' :: ds.drop 20)

end RequestId

end Covenant
