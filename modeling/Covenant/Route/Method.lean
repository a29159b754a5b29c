namespace Covenant

/-- Letters, digits and the marks that a token may hold. -/
def isTokenChar (c : Char) : Bool :=
  c.isAlphanum || "!#$%&'*+-.^_`|~".toList.contains c

structure Method where
  text : String
  isToken : (!text.isEmpty && text.toList.all isTokenChar) = true
deriving DecidableEq

namespace Method

def ofText? (text : String) : Option Method :=
  if h : (!text.isEmpty && text.toList.all isTokenChar) = true then some ⟨text, h⟩ else none

end Method

end Covenant
