import Covenant.Json.Value

namespace Covenant.Json

structure Layout where
  indented : Bool

namespace Layout

def compact : Layout := ⟨false⟩

def pretty : Layout := ⟨true⟩

def gap (l : Layout) (depth : Nat) : List Char :=
  if l.indented then '\n' :: List.replicate (2 * depth) ' ' else []

def colon (l : Layout) : List Char := if l.indented then [':', ' '] else [':']

end Layout

def hexDigit (n : Nat) : Char := Nat.digitChar n

/-- Only the quote, the backslash and the control characters below the blank are escaped. -/
def escapeChar (c : Char) : List Char :=
  if c = '"' then ['\\', '"']
  else if c = '\\' then ['\\', '\\']
  else if c = '\n' then ['\\', 'n']
  else if c = '\r' then ['\\', 'r']
  else if c = '\t' then ['\\', 't']
  else if c = '\x08' then ['\\', 'b']
  else if c = '\x0c' then ['\\', 'f']
  else if c.toNat < 0x20 then
    ['\\', 'u', '0', '0', hexDigit (c.toNat / 16), hexDigit (c.toNat % 16)]
  else [c]

def escape (cs : List Char) : List Char := cs.flatMap escapeChar

def quote (s : String) : List Char := '"' :: escape s.toList ++ ['"']

mutual

def render (l : Layout) (depth : Nat) : Value → List Char
  | .null => ['n', 'u', 'l', 'l']
  | .bool true => ['t', 'r', 'u', 'e']
  | .bool false => ['f', 'a', 'l', 's', 'e']
  | .number n => n.text
  | .string s => quote s
  | .array [] => ['[', ']']
  | .array (v :: rest) =>
    '[' :: l.gap (depth + 1) ++ render l (depth + 1) v ++ renderItems l depth rest
  | .object [] => ['\x7b', '\x7d']
  | .object ((k, v) :: rest) =>
    '\x7b' :: l.gap (depth + 1) ++ quote k ++ l.colon ++ render l (depth + 1) v ++
      renderMembers l depth rest

def renderItems (l : Layout) (depth : Nat) : List Value → List Char
  | [] => l.gap depth ++ [']']
  | v :: rest =>
    ',' :: l.gap (depth + 1) ++ render l (depth + 1) v ++ renderItems l depth rest

def renderMembers (l : Layout) (depth : Nat) : List (String × Value) → List Char
  | [] => l.gap depth ++ ['\x7d']
  | (k, v) :: rest =>
    ',' :: l.gap (depth + 1) ++ quote k ++ l.colon ++ render l (depth + 1) v ++
      renderMembers l depth rest

end

namespace Value

def compact (v : Value) : String := String.ofList (render .compact 0 v)

def pretty (v : Value) : String := String.ofList (render .pretty 0 v)

end Value

end Covenant.Json
