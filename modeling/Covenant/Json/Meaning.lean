import Covenant.Json.Source

namespace Covenant.Json.Source

def isHighSurrogate (n : Nat) : Bool := 0xD800 ≤ n && n < 0xDC00

def isLowSurrogate (n : Nat) : Bool := 0xDC00 ≤ n && n < 0xE000

/-- The characters that the body of a string writes; none if it holds half a surrogate pair. -/
def unescape? : List Char → Option (List Char)
  | [] => some []
  | '\\' :: 'u' :: a :: b :: c :: d :: rest =>
    let n := Text.hexNumber [a, b, c, d]
    if isHighSurrogate n then
      match rest with
      | '\\' :: 'u' :: a' :: b' :: c' :: d' :: rest' =>
        let m := Text.hexNumber [a', b', c', d']
        if isLowSurrogate m then
          (unescape? rest').map (Char.ofNat (0x10000 + (n - 0xD800) * 0x400 + (m - 0xDC00)) :: ·)
        else none
      | _ => none
    else if isLowSurrogate n then none
    else (unescape? rest).map (Char.ofNat n :: ·)
  | '\\' :: c :: rest =>
    match shortEscape? c with
    | some e => (unescape? rest).map (e :: ·)
    | none => none
  | c :: rest => (unescape? rest).map (c :: ·)

def textOf? (body : List Char) : Option String := (unescape? body).map String.ofList

mutual

def value? : Source → Option Value
  | .null => some .null
  | .bool b => some (.bool b)
  | .number literal => (Number.ofLiteral? literal).map .number
  | .string body => (textOf? body).map .string
  | .array items => (values? items).map .array
  | .object members => (members? members).map .object

def values? : List Source → Option (List Value)
  | [] => some []
  | s :: rest => do
    let v ← value? s
    let vs ← values? rest
    some (v :: vs)

def members? : List (List Char × Source) → Option (List (String × Value))
  | [] => some []
  | (k, s) :: rest => do
    let key ← textOf? k
    let v ← value? s
    let ms ← members? rest
    some ((key, v) :: ms)

end

end Covenant.Json.Source

namespace Covenant.Json.Value

/-- The value a text writes, members in the order of the text. -/
def ofText? (text : String) : Option Value := (Source.ofText? text).bind Source.value?

end Covenant.Json.Value
