import Covenant.Entries
import Covenant.Text.Split

namespace Covenant

/-- A segment in braces stands for any one segment and captures it under its name. -/
inductive Segment where
  | literal (text : String)
  | parameter (name : String)
deriving DecidableEq, Repr

abbrev Captures := List (String × String)

namespace Segment

/-- The outermost braces are taken off, one on each side. -/
def ofPiece : List Char → Segment
  | '\x7b' :: rest =>
    if rest.getLast? = some '\x7d' then .parameter (String.ofList rest.dropLast)
    else .literal (String.ofList ('\x7b' :: rest))
  | piece => .literal (String.ofList piece)

def isLiteral : Segment → Bool
  | .literal _ => true
  | .parameter _ => false

def name? : Segment → Option String
  | .literal _ => none
  | .parameter name => some name

end Segment

namespace Template

def pieces (path : String) : List (List Char) :=
  (Text.splitAt '/' path.toList).filter (!·.isEmpty)

def segments (template : String) : List Segment := (pieces template).map Segment.ofPiece

def parameters (template : String) : List String := (segments template).filterMap Segment.name?

def literalCount (template : String) : Nat := (segments template).countP Segment.isLiteral

/-- Goes along template and path; of parameters with one name the last capture stays. -/
def capture : List Segment → List String → Captures → Option Captures
  | [], [], found => some found
  | .literal text :: segments, piece :: pieces, found =>
    if text = piece then capture segments pieces found else none
  | .parameter name :: segments, piece :: pieces, found =>
    capture segments pieces (Entries.put name piece found)
  | _, _, _ => none

def captures? (template path : String) : Option Captures :=
  capture (segments template) ((pieces path).map String.ofList) []

/-- One of the parts between slashes is the name in braces. -/
def mentions (template name : String) : Bool :=
  (Text.splitAt '/' template.toList).contains ('\x7b' :: name.toList ++ ['\x7d'])

end Template

end Covenant
