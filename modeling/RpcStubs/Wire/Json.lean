import RpcStubs.Text.Hex
import RpcStubs.Text.Utf8

namespace RpcStubs.Wire

/-- A document's characters; `none` is a byte that is part of no character. -/
abbrev RawText := List (Option Char)

/-- Strings are kept as they are written, so that a value nobody looks at may hold escapes without a
meaning; `text?` gives a string its meaning. -/
inductive Json where
  | null
  | bool (value : Bool)
  | number
  | string (raw : RawText)
  | array (items : List Json)
  | object (fields : List (RawText × Json))
  deriving Repr, Inhabited

namespace Json

def isSpace (c : Option Char) : Bool :=
  c == some ' ' || c == some '\n' || c == some '\t' || c == some '\r'

def skipSpace (s : RawText) : RawText := s.dropWhile isSpace

def hexUnit? (a b c d : Option Char) : Option Nat := do
  let a ← (← a) |> Text.hexValue?
  let b ← (← b) |> Text.hexValue?
  let c ← (← c) |> Text.hexValue?
  let d ← (← d) |> Text.hexValue?
  return ((a * 16 + b) * 16 + c) * 16 + d

def isSimpleEscape (c : Option Char) : Bool :=
  match c with
  | some c => ['"', '\\', '/', 'b', 'f', 'n', 'r', 't'].contains c
  | none => false

/-- The body of a string up to its closing quote, and the rest. Escapes must be well formed and
control characters must not occur. -/
def stringBody? (done : RawText) : RawText → Option (RawText × RawText)
  | some '"' :: rest => some (done.reverse, rest)
  | some '\\' :: some 'u' :: a :: b :: c :: d :: rest =>
    if (hexUnit? a b c d).isSome then
      stringBody? (d :: c :: b :: a :: some 'u' :: some '\\' :: done) rest
    else none
  | some '\\' :: e :: rest =>
    if isSimpleEscape e then stringBody? (e :: some '\\' :: done) rest else none
  | some c :: rest => if c.toNat < 0x20 || c = '\\' then none else stringBody? (some c :: done) rest
  | none :: rest => stringBody? (none :: done) rest
  | [] => none

def isDigit (c : Option Char) : Bool := c.any Char.isDigit

def dropDigits (s : RawText) : RawText := s.dropWhile isDigit

def numberTail? (s : RawText) : Option RawText := do
  let s ← match s with
    | some '.' :: rest => if rest.head?.any isDigit then some (dropDigits rest) else none
    | _ => some s
  match s with
  | some 'e' :: rest | some 'E' :: rest =>
    let rest := match rest with
      | some '+' :: r | some '-' :: r => r
      | _ => rest
    if rest.head?.any isDigit then some (dropDigits rest) else none
  | _ => some s

def number? (s : RawText) : Option RawText :=
  let s := match s with
    | some '-' :: rest => rest
    | _ => s
  match s with
  | some '0' :: rest => if rest.head?.any isDigit then none else numberTail? rest
  | c :: rest => if isDigit c then numberTail? (dropDigits rest) else none
  | [] => none

def word? (word : String) (s : RawText) : Option RawText :=
  if (word.toList.map some).isPrefixOf s then some (s.drop word.length) else none

mutual

def value? : Nat → RawText → Option (Json × RawText)
  | 0, _ => none
  | fuel + 1, s =>
    match skipSpace s with
    | some 'n' :: _ => (word? "null" (skipSpace s)).map (null, ·)
    | some 't' :: _ => (word? "true" (skipSpace s)).map (bool true, ·)
    | some 'f' :: _ => (word? "false" (skipSpace s)).map (bool false, ·)
    | some '"' :: rest => (stringBody? [] rest).map fun (raw, rest) ↦ (string raw, rest)
    | some '[' :: rest =>
      match skipSpace rest with
      | some ']' :: rest => some (array [], rest)
      | rest => (items? fuel rest).map fun (items, rest) ↦ (array items, rest)
    | some '\x7b' :: rest =>
      match skipSpace rest with
      | some '\x7d' :: rest => some (object [], rest)
      | rest => (fields? fuel rest).map fun (fields, rest) ↦ (object fields, rest)
    | s => (number? s).map (number, ·)

def items? : Nat → RawText → Option (List Json × RawText)
  | 0, _ => none
  | fuel + 1, s =>
    match value? fuel s with
    | none => none
    | some (item, rest) =>
      match skipSpace rest with
      | some ',' :: rest => (items? fuel rest).map fun (items, rest) ↦ (item :: items, rest)
      | some ']' :: rest => some ([item], rest)
      | _ => none

def fields? : Nat → RawText → Option (List (RawText × Json) × RawText)
  | 0, _ => none
  | fuel + 1, s =>
    match skipSpace s with
    | some '"' :: rest =>
      match stringBody? [] rest with
      | none => none
      | some (key, rest) =>
        match skipSpace rest with
        | some ':' :: rest =>
          match value? fuel rest with
          | none => none
          | some (value, rest) =>
            match skipSpace rest with
            | some ',' :: rest =>
              (fields? fuel rest).map fun (fields, rest) ↦ ((key, value) :: fields, rest)
            | some '\x7d' :: rest => some ([(key, value)], rest)
            | _ => none
        | _ => none
    | _ => none

end

def parse? (s : RawText) : Option Json :=
  match value? (2 * s.length + 2) s with
  | some (value, rest) => if (skipSpace rest).isEmpty then some value else none
  | none => none

def simpleEscape (c : Char) : Char :=
  match c with
  | 'b' => '\x08'
  | 'f' => '\x0c'
  | 'n' => '\n'
  | 'r' => '\r'
  | 't' => '\t'
  | other => other

/-- The text that a string's body means. A surrogate must be the first of a pair. -/
def text? : RawText → Option (List Char)
  | [] => some []
  | some '\\' :: some 'u' :: a :: b :: c :: d :: rest => do
    let high ← hexUnit? a b c d
    if 0xD800 ≤ high ∧ high < 0xDC00 then
      match rest with
      | some '\\' :: some 'u' :: a :: b :: c :: d :: rest =>
        let low ← hexUnit? a b c d
        if 0xDC00 ≤ low ∧ low < 0xE000 then
          return Char.ofNat ((high - 0xD800) * 0x400 + (low - 0xDC00) + 0x10000) :: (← text? rest)
        else none
      | _ => none
    else if 0xDC00 ≤ high ∧ high < 0xE000 then none
    else return Char.ofNat high :: (← text? rest)
  | some '\\' :: some e :: rest => return simpleEscape e :: (← text? rest)
  | some c :: rest => return c :: (← text? rest)
  | none :: _ => none

def rawString? (raw : RawText) : Option String := (text? raw).map String.ofList

def string? : Json → Option String
  | .string raw => rawString? raw
  | _ => none

def escape (c : Char) : List Char :=
  if c = '"' then ['\\', '"']
  else if c = '\\' then ['\\', '\\']
  else if c = '\x08' then ['\\', 'b']
  else if c = '\x0c' then ['\\', 'f']
  else if c = '\n' then ['\\', 'n']
  else if c = '\r' then ['\\', 'r']
  else if c = '\t' then ['\\', 't']
  else if c.toNat < 0x20 then
    ['\\', 'u', '0', '0'] ++ Text.hexByte c.toNat.toUInt8
  else [c]

def renderString (s : String) : String :=
  String.ofList ('"' :: s.toList.flatMap escape ++ ['"'])

end Json

end RpcStubs.Wire
