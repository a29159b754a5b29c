import Covenant.Pattern.CharSet

namespace Covenant

/-- Characters and sets of them, in sequence, as a choice, repeated and in groups, with edges that
stand between two characters. -/
inductive Pattern where
  | empty
  | modes
  | character (c : Char)
  | any
  | named (ranges : List (Char × Char))
  | set (s : CharSet)
  | edge (ofWords : Bool)
  | repeated (p : Pattern)
  | group (name : Option (List Char)) (p : Pattern)
  | sequence (ps : List Pattern)
  | choice (ps : List Pattern)

namespace Pattern

def ofItems : List Pattern → Pattern
  | [] => .empty
  | [p] => p
  | ps => .sequence ps

def ofBranches : List Pattern → Pattern
  | [] => .empty
  | [p] => p
  | ps => .choice ps

def isRepeatable : Pattern → Bool
  | .empty => false
  | .modes => false
  | _ => true

mutual

def depth : Pattern → Nat
  | .repeated p => depth p + 1
  | .group _ p => depth p + 1
  | .sequence ps => greatestDepth ps + 1
  | .choice ps => greatestDepth ps + 1
  | .set s => s.depth
  | _ => 0

def greatestDepth : List Pattern → Nat
  | [] => 0
  | p :: rest => max (depth p) (greatestDepth rest)

end

mutual

def groupNames : Pattern → List (List Char)
  | .repeated p => groupNames p
  | .group name p => name.toList ++ groupNames p
  | .sequence ps => allGroupNames ps
  | .choice ps => allGroupNames ps
  | _ => []

def allGroupNames : List Pattern → List (List Char)
  | [] => []
  | p :: rest => groupNames p ++ allGroupNames rest

end

mutual

def hasWordEdge : Pattern → Bool
  | .edge ofWords => ofWords
  | .repeated p => hasWordEdge p
  | .group _ p => hasWordEdge p
  | .sequence ps => anyHasWordEdge ps
  | .choice ps => anyHasWordEdge ps
  | _ => false

def anyHasWordEdge : List Pattern → Bool
  | [] => false
  | p :: rest => hasWordEdge p || anyHasWordEdge rest

end

end Pattern

end Covenant
