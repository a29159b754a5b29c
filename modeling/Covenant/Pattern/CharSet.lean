namespace Covenant

/-- How a pattern is read: with or without regard to letter case, as speaking of characters or of
bytes, and with its blanks and comments left out or not. -/
structure Modes where
  ignoreCase : Bool
  unicode : Bool
  spaced : Bool
deriving DecidableEq, Repr

inductive SetOperation where
  | intersection
  | difference
  | symmetricDifference
deriving DecidableEq, Repr

/-- A set as a pattern writes it in brackets: ranges, named sets, sets within sets, and what two
sets have in common or not. Where a pattern speaks of bytes only, those in brackets must all be
ASCII: the others are no characters. -/
inductive CharSet where
  | range (first last : Char)
  | named (ranges : List (Char × Char)) (negated : Bool)
  | union (sets : List CharSet)
  | combined (operation : SetOperation) (left right : CharSet)
  | brackets (negated : Bool) (inner : CharSet)

abbrev ByteSet := BitVec 256

namespace ByteSet

def range (first last : Char) : ByteSet :=
  (BitVec.allOnes 256 <<< first.toNat) &&& (BitVec.allOnes 256 >>> (255 - last.toNat))

/-- Every letter in both cases. -/
def foldCase (s : ByteSet) : ByteSet :=
  s ||| ((s &&& range 'A' 'Z') <<< 32) ||| ((s &&& range 'a' 'z') >>> 32)

def isAscii (s : ByteSet) : Bool := s >>> 128 == 0#256

def combine (s t : ByteSet) : SetOperation → ByteSet
  | .intersection => s &&& t
  | .difference => s &&& ~~~t
  | .symmetricDifference => s ^^^ t

end ByteSet

namespace CharSet

def digits : List (Char × Char) := [('0', '9')]

def spaces : List (Char × Char) := [('\t', '\r'), (' ', ' ')]

def words : List (Char × Char) := [('0', '9'), ('A', 'Z'), ('_', '_'), ('a', 'z')]

def ofName? (name : String) : Option (List (Char × Char)) :=
  [("alnum", [('0', '9'), ('A', 'Z'), ('a', 'z')]), ("alpha", [('A', 'Z'), ('a', 'z')]),
    ("ascii", [('\x00', '\x7f')]), ("blank", [('\t', '\t'), (' ', ' ')]),
    ("cntrl", [('\x00', '\x1f'), ('\x7f', '\x7f')]), ("digit", digits), ("graph", [('!', '~')]),
    ("lower", [('a', 'z')]), ("print", [(' ', '~')]),
    ("punct", [('!', '/'), (':', '@'), ('[', '\x60'), ('\x7b', '~')]), ("space", spaces),
    ("upper", [('A', 'Z')]), ("word", words),
    ("xdigit", [('0', '9'), ('A', 'F'), ('a', 'f')])].lookup name

def ofMembers : List CharSet → CharSet
  | [s] => s
  | ss => .union ss

mutual

/-- The bytes of a set; none if it, or one in brackets within it, holds others than ASCII. Letter
case is dropped before sets are combined or negated. -/
def bytes? (ignoreCase : Bool) : CharSet → Option ByteSet
  | .range first last => if last.toNat < 128 then some (ByteSet.range first last) else none
  | .named ranges negated =>
    let s := ranges.foldl (fun s (first, last) => s ||| ByteSet.range first last) 0#256
    some (if negated then ~~~s else s)
  | .union sets => unionBytes? ignoreCase sets
  | .combined operation left right => do
    let s ← bytes? ignoreCase left
    let t ← bytes? ignoreCase right
    some (if ignoreCase then s.foldCase.combine t.foldCase operation else s.combine t operation)
  | .brackets negated inner => do
    let s ← bytes? ignoreCase inner
    let s := if ignoreCase then s.foldCase else s
    let s := if negated then ~~~s else s
    if s.isAscii then some s else none

def unionBytes? (ignoreCase : Bool) : List CharSet → Option ByteSet
  | [] => some 0#256
  | s :: rest => do some ((← bytes? ignoreCase s) ||| (← unionBytes? ignoreCase rest))

end

mutual

def hasMember : CharSet → Bool
  | .range _ _ => true
  | .named _ _ => true
  | .union sets => anyHasMember sets
  | .combined _ left right => hasMember left || hasMember right
  | .brackets _ inner => hasMember inner

def anyHasMember : List CharSet → Bool
  | [] => false
  | s :: rest => hasMember s || anyHasMember rest

end

mutual

def depth : CharSet → Nat
  | .range _ _ => 0
  | .named _ _ => 0
  | .union sets => if sets.isEmpty then 0 else maxDepth sets + 1
  | .combined _ left right => max (depth left) (depth right) + 1
  | .brackets _ inner => depth inner + 1

def maxDepth : List CharSet → Nat
  | [] => 0
  | s :: rest => max (depth s) (maxDepth rest)

end

/-- There is no regard to the letter case of characters other than bytes. -/
def isAllowed (m : Modes) (s : CharSet) : Bool :=
  if m.unicode then !(m.ignoreCase && s.hasMember) else (s.bytes? m.ignoreCase).isSome

end CharSet

end Covenant
