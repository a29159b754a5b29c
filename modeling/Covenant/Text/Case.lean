import Covenant.Text.CaseTable
import Covenant.Text.Letters

namespace Covenant.Text

def CaseRun.holds (r : CaseRun) (n : Nat) : Bool :=
  r.first ≤ n && n ≤ r.last && (n - r.first) % r.stride == 0

def mapCase (runs : List CaseRun) (expansions : List (Nat × List Nat)) (c : Char) : List Char :=
  match expansions.lookup c.toNat with
  | some ns => ns.map Char.ofNat
  | none =>
    match runs.find? (·.holds c.toNat) with
    | some r => [Char.ofNat ((c.toNat : Int) + r.shift).toNat]
    | none => [c]

/-- Past the marks that do not count, the text goes on with a letter that has case. -/
def goesOnCased (cs : List Char) : Bool :=
  match cs.dropWhile (inRanges caseIgnorableRanges) with
  | [] => false
  | c :: _ => inRanges casedRanges c

/-- The second argument is what was read, last character first. -/
def lowerFrom : List Char → List Char → List Char
  | [], _ => []
  | c :: rest, seen =>
    (if c = 'Σ' then [if goesOnCased seen && !goesOnCased rest then 'ς' else 'σ']
      else mapCase lowerRuns lowerExpansions c) ++ lowerFrom rest (c :: seen)

/-- The full mapping of the Unicode standard, in which one character may become several and a
capital sigma at the end of a word becomes a final one. -/
def lower (s : String) : String := String.ofList (lowerFrom s.toList [])

def upper (s : String) : String :=
  String.ofList (s.toList.flatMap (mapCase upperRuns upperExpansions))

def lowerAscii (s : String) : String := s.map Char.toLower

def equalIgnoringAsciiCase (s t : String) : Bool := lowerAscii s == lowerAscii t

end Covenant.Text
