import Covenant.Pattern
import Covenant.Text.Blank
import Covenant.Text.Hex
import Covenant.Text.Letters

namespace Covenant.Pattern

/-- Drops blanks and comments; a comment ends with its line. -/
def skipSpace (inComment : Bool) : List Char → List Char
  | [] => []
  | c :: rest =>
    if inComment then skipSpace (c != '\n') rest
    else if Text.isBlank c then skipSpace false rest
    else if c = '#' then skipSpace true rest
    else c :: rest

def skip (m : Modes) (cs : List Char) : List Char := if m.spaced then skipSpace false cs else cs

/-- The next character past blanks, or past the sign of a comment and blanks. -/
def peek? (m : Modes) (cs : List Char) : Option Char :=
  if m.spaced then
    match cs.dropWhile Text.isBlank with
    | '#' :: rest => (rest.dropWhile Text.isBlank).head?.or cs.head?
    | rest => rest.head?.or cs.head?
  else cs.head?

inductive Atom where
  | character (c : Char)
  | named (ranges : List (Char × Char))
  | edge (ofWords : Bool)

/-- So many hexadecimal digits, which may have blanks between and behind them. -/
def readHex (m : Modes) : Nat → List Char → List Char → Option (List Char × List Char)
  | 0, read, cs => some (read.reverse, skip m cs)
  | count + 1, read, cs =>
    match skip m cs with
    | c :: rest => if Text.isHex c then readHex m count (c :: read) rest else none
    | [] => none

def codeLength? : Char → Option Nat
  | 'x' => some 2
  | 'u' => some 4
  | 'U' => some 8
  | _ => none

def setOf? : Char → Option (List (Char × Char))
  | 'd' => some CharSet.digits
  | 's' => some CharSet.spaces
  | 'w' => some CharSet.words
  | _ => none

def controlOf? : Char → Option Char
  | 'a' => some '\x07'
  | 'f' => some '\x0c'
  | 'n' => some '\n'
  | 'r' => some '\r'
  | 't' => some '\t'
  | 'v' => some '\x0b'
  | _ => none

def readEscape (m : Modes) : List Char → Option (Atom × List Char)
  | [] => none
  | c :: rest =>
    match codeLength? c with
    | some count => do
      let (digits, rest) ← readHex m count [] rest
      let d ← Text.hexCharacter? digits
      if c = 'x' ∧ !m.unicode ∧ 128 ≤ d.toNat then none else some (.character d, rest)
    | none =>
      match setOf? c, controlOf? c with
      | some ranges, _ => if m.unicode then none else some (.named ranges, rest)
      | none, some d => some (.character d, rest)
      | none, none =>
        if c = 'A' ∨ c = 'z' then some (.edge false, rest)
        else if c ∈ ['b', 'B', '<', '>'] then some (.edge m.unicode, rest)
        else if c.toNat < 128 ∧ !c.isAlphanum then some (.character c, rest)
        else none

def Atom.member? : Atom → Option CharSet
  | .character c => some (.range c c)
  | .named ranges => some (.named ranges false)
  | .edge _ => none

def readMember (m : Modes) : List Char → Option (Atom × List Char)
  | [] => none
  | '\\' :: rest => readEscape m rest
  | c :: rest => some (.character c, rest)

/-- A range or a member alone. A hyphen before another one or before the end makes no range. -/
def readRange (m : Modes) (cs : List Char) : Option (CharSet × List Char) := do
  let (first, rest) ← readMember m cs
  match skip m rest with
  | [] => none
  | '-' :: more =>
    if peek? m more = some ']' ∨ peek? m more = some '-' then
      first.member?.map (·, '-' :: more)
    else match first, ← readMember m (skip m more) with
      | .character a, (.character b, rest) => if a ≤ b then some (.range a b, rest) else none
      | _, _ => none
  | rest => first.member?.map (·, rest)

def readNamed (cs : List Char) : Option (CharSet × List Char) :=
  match cs with
  | ':' :: rest =>
    let negated := rest.head? = some '^'
    let rest := if negated then rest.tail else rest
    match rest.dropWhile (· != ':') with
    | ':' :: ']' :: more =>
      (CharSet.ofName? (String.ofList (rest.takeWhile (· != ':')))).map fun ranges =>
        (.named ranges negated, more)
    | _ => none
  | _ => none

def readNegation (m : Modes) (cs : List Char) : Bool × List Char :=
  match skip m cs with
  | '^' :: rest => (true, rest)
  | rest => (false, rest)

def operation? : List Char → Option (SetOperation × List Char)
  | '&' :: '&' :: rest => some (.intersection, rest)
  | '-' :: '-' :: rest => some (.difference, rest)
  | '~' :: '~' :: rest => some (.symmetricDifference, rest)
  | _ => none

/-- The members after the last operation, joined to what precedes it. -/
def joined (before : Option (SetOperation × CharSet)) (members : List CharSet) : CharSet :=
  match before with
  | none => .ofMembers members.reverse
  | some (operation, left) => .combined operation left (.ofMembers members.reverse)

/-- A set up to its closing bracket. At its start hyphens stand for themselves, and so does a bracket
that would close it. Every call is made past a character, so the length of the text and one more is
fuel enough. -/
def readSet : Nat → Modes → Bool → Bool → Option (SetOperation × CharSet) → List CharSet →
    List Char → Option (CharSet × List Char)
  | 0, _, _, _, _, _, _ => none
  | fuel + 1, m, negated, atStart, before, members, cs =>
    match skip m cs with
    | [] => none
    | c :: rest =>
      if atStart ∧ (c = '-' ∨ (c = ']' ∧ members.isEmpty)) then
        readSet fuel m negated (c == '-') before (.range c c :: members) rest
      else if c = ']' then some (.brackets negated (joined before members), rest)
      else if c = '[' then
        match readNamed rest with
        | some (s, rest) => readSet fuel m negated false before (s :: members) rest
        | none => do
          let (innerNegated, rest) := readNegation m rest
          let (s, rest) ← readSet fuel m innerNegated true none [] rest
          readSet fuel m negated false before (s :: members) rest
      else match operation? (c :: rest) with
        | some (operation, rest) =>
          readSet fuel m negated false (some (operation, joined before members)) [] rest
        | none => do
          let (s, rest) ← readRange m (c :: rest)
          readSet fuel m negated false before (s :: members) rest

/-- What an opening parenthesis begins: a change of modes for the rest of the group it stands in, or
a group with a name and with modes of its own. -/
inductive Opening where
  | change (modes : Modes)
  | group (name : Option (List Char)) (modes : Modes)

/-- A mode that is turned on, or off behind a hyphen; as it was, if it is not named. -/
def switched (letters : List Char) (letter : Char) (before : Bool) : Bool :=
  if letter ∈ letters.takeWhile (· != '-') then true
  else if letter ∈ letters then false
  else before

/-- The modes with those that the letters name turned on, or off behind a hyphen. Nothing is written
twice, and a hyphen has a letter behind it. -/
def changed? (m : Modes) (letters : List Char) : Option Modes :=
  if letters.all (· ∈ ['i', 'm', 's', 'U', 'u', 'R', 'x', '-']) ∧ letters.Nodup ∧
      letters.getLast? ≠ some '-' then
    some ⟨switched letters 'i' m.ignoreCase, switched letters 'u' m.unicode,
      switched letters 'x' m.spaced⟩
  else none

def startsName (c : Char) : Bool := c == '_' || Text.isLetter c

def continuesName (c : Char) : Bool :=
  c == '_' || c == '.' || c == '[' || c == ']' || Text.isLetterOrDigit c

def readName (m : Modes) (cs : List Char) : Option (Opening × List Char) :=
  match cs.takeWhile (· != '>'), cs.dropWhile (· != '>') with
  | c :: name, _ :: rest =>
    if startsName c && name.all continuesName then some (.group (some (c :: name)) m, rest)
    else none
  | _, _ => none

def readOpening (m : Modes) (cs : List Char) : Option (Opening × List Char) :=
  match cs with
  | '?' :: 'P' :: '<' :: rest => readName m rest
  | '?' :: '<' :: rest => readName m rest
  | '?' :: rest =>
    let letters := rest.takeWhile fun c => c != ':' && c != ')'
    match rest.drop letters.length with
    | [] => none
    | c :: rest =>
      if c = ':' then (changed? m letters).map fun m => (.group none m, rest)
      else if letters.isEmpty then none
      else (changed? m letters).map fun m => (.change m, rest)
  | _ => some (.group none m, cs)

def literal? (m : Modes) (c : Char) : Option Pattern :=
  if m.unicode && m.ignoreCase then none else some (.character c)

def Atom.pattern? (m : Modes) : Atom → Option Pattern
  | .character c => literal? m c
  | .named ranges => some (.named ranges)
  | .edge ofWords => some (.edge ofWords)

/-- A character, a set without brackets or an edge. -/
def readAtom (m : Modes) : List Char → Option (Pattern × List Char)
  | [] => none
  | '\\' :: rest => do
    let (a, rest) ← readEscape m rest
    (a.pattern? m).map (·, rest)
  | c :: rest =>
    if c = '.' then if m.unicode then some (.any, rest) else none
    else if c = '^' ∨ c = '$' then some (.edge false, rest)
    else (literal? m c).map (·, rest)

def isRepetition (c : Char) : Bool := c == '?' || c == '*' || c == '+'

/-- A pattern up to the end of the group that it stands in, or of the text. `branches` and `items`
were read before, the last one first. A brace would open a count, whose end is never there. Every
call is made past a character, so the length of the text and one more is fuel enough. -/
def read : Nat → Modes → List Pattern → List Pattern → List Char → Option (Pattern × List Char)
  | 0, _, _, _, _ => none
  | fuel + 1, m, branches, items, cs =>
    match skip m cs with
    | [] => some (ofBranches (ofItems items.reverse :: branches).reverse, [])
    | c :: rest =>
      if c = ')' then some (ofBranches (ofItems items.reverse :: branches).reverse, c :: rest)
      else if c = '|' then read fuel m (ofItems items.reverse :: branches) [] rest
      else if c = '(' then
        match readOpening m (skip m rest) with
        | none => none
        | some (.change m, rest) => read fuel m branches (.modes :: items) rest
        | some (.group name inner, rest) =>
          match read fuel inner [] [] rest with
          | some (p, ')' :: rest) => read fuel m branches (.group name p :: items) rest
          | _ => none
      else if c = '[' then do
        let (negated, rest) := readNegation m rest
        let (s, rest) ← readSet (rest.length + 1) m negated true none [] rest
        if s.isAllowed m then read fuel m branches (.set s :: items) rest else none
      else if isRepetition c then
        match items with
        | p :: items =>
          let rest := if rest.head? = some '?' then rest.tail else rest
          if p.isRepeatable then read fuel m branches (.repeated p :: items) rest else none
        | [] => none
      else if c = '\x7b' then none
      else do
        let (p, rest) ← readAtom m (c :: rest)
        read fuel m branches (p :: items) rest

inductive Fault where
  | malformed
  | wordEdge
deriving DecidableEq, Repr

def Fault.text : Fault → String
  | .malformed => "error building NFA"
  | .wordEdge => "unsupported regex feature for DFAs: cannot build DFAs for regexes with " ++
      "Unicode word boundaries; switch to ASCII word boundaries, or heuristically enable " ++
      "Unicode word boundaries or use a different regex engine"

def nestingLimit : Nat := 250

def start : Modes := ⟨false, true, false⟩

/-- Refused is what is badly written, and what asks for more than is known here: the digits, blanks
and letters of all scripts and the case of these letters. A pattern that speaks of bytes has digits,
blanks, letters and letter case, but those of ASCII only. -/
def fault? (cs : List Char) : Option Fault :=
  match read (cs.length + 1) start [] [] cs with
  | some (p, []) =>
    if nestingLimit < p.depth ∨ ¬p.groupNames.Nodup then some .malformed
    else if p.hasWordEdge then some .wordEdge
    else none
  | _ => some .malformed

end Covenant.Pattern
