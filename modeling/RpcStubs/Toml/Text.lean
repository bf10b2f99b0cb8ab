import RpcStubs.Text.Hex
import RpcStubs.Toml.Table

namespace RpcStubs.Toml

def isSpace (c : Char) : Bool := c == ' ' || c == '\t'

def skipSpace (s : List Char) : List Char := s.dropWhile isSpace

def isControl (c : Char) : Bool := (c.toNat < 0x20 && c != '\t') || c.toNat == 0x7f

def newline? : List Char → Option (List Char)
  | '\n' :: rest => some rest
  | '\r' :: '\n' :: rest => some rest
  | _ => none

def skipComment (s : List Char) : List Char := s.dropWhile fun c ↦ !isControl c

def skipToLineEnd (s : List Char) : List Char :=
  match skipSpace s with
  | '#' :: rest => skipComment rest
  | rest => rest

def skipLines : (fuel : Nat) → List Char → List Char
  | 0, s => skipToLineEnd s
  | fuel + 1, s =>
    match newline? (skipToLineEnd s) with
    | some rest => skipLines fuel rest
    | none => skipToLineEnd s

def hexNumber? (digits : List Char) : Option Nat :=
  digits.foldlM (fun n c ↦ (Text.hexValue? c).map (n * 16 + ·)) 0

def codePoint? (size : Nat) (s : List Char) : Option (Char × List Char) :=
  if s.length < size then none
  else
    match hexNumber? (s.take size) with
    | some n => if h : n.isValidChar then some (Char.ofNatAux n h, s.drop size) else none
    | none => none

def escape? : List Char → Option (Char × List Char)
  | 'b' :: rest => some ('\x08', rest)
  | 't' :: rest => some ('\t', rest)
  | 'n' :: rest => some ('\n', rest)
  | 'f' :: rest => some ('\x0c', rest)
  | 'r' :: rest => some ('\r', rest)
  | 'e' :: rest => some ('\x1b', rest)
  | '"' :: rest => some ('"', rest)
  | '\\' :: rest => some ('\\', rest)
  | 'x' :: rest => codePoint? 2 rest
  | 'u' :: rest => codePoint? 4 rest
  | 'U' :: rest => codePoint? 8 rest
  | _ => none

def basic? : (fuel : Nat) → List Char → Option (List Char × List Char)
  | 0, _ => none
  | fuel + 1, s =>
    match s with
    | '"' :: rest => some ([], rest)
    | '\\' :: rest =>
      match escape? rest with
      | some (c, rest) => (basic? fuel rest).map fun (body, rest) ↦ (c :: body, rest)
      | none => none
    | c :: rest =>
      if isControl c then none else (basic? fuel rest).map fun (body, rest) ↦ (c :: body, rest)
    | [] => none

def literal? : List Char → Option (List Char × List Char)
  | [] => none
  | c :: rest =>
    if c = '\x27' then some ([], rest)
    else if isControl c then none
    else (literal? rest).map fun (body, rest) ↦ (c :: body, rest)

/-- Three quotes end a long string; up to two more belong to its body. -/
def longEnd? (q : Char) (s : List Char) : Option (List Char × List Char) :=
  let run := (s.takeWhile (· == q)).length
  if 3 ≤ run then
    let extra := min (run - 3) 2
    some (List.replicate extra q, s.drop (3 + extra))
  else none

def isLongControl (c : Char) : Bool := isControl c && c != '\n'

def skipBlank : List Char → List Char
  | '\r' :: '\n' :: rest => skipBlank rest
  | c :: rest => if isSpace c || c == '\n' then skipBlank rest else c :: rest
  | [] => []

/-- A backslash at the end of a line takes the line break and all blank space after it. -/
def lineContinuation? (s : List Char) : Option (List Char) :=
  (newline? (skipSpace s)).map skipBlank

/-- The body of a long string, whose escapes count when `escapes` is set, and the rest. -/
def long? (q : Char) (escapes : Bool) : (fuel : Nat) → List Char → Option (List Char × List Char)
  | 0, _ => none
  | fuel + 1, s =>
    match longEnd? q s with
    | some found => some found
    | none =>
      match s with
      | [] => none
      | '\r' :: '\n' :: rest =>
        (long? q escapes fuel rest).map fun (body, rest) ↦ ('\r' :: '\n' :: body, rest)
      | c :: rest =>
        if c = '\\' && escapes then
          match lineContinuation? rest with
          | some rest => long? q escapes fuel rest
          | none =>
            match escape? rest with
            | some (c, rest) => (long? q escapes fuel rest).map fun (body, rest) ↦ (c :: body, rest)
            | none => none
        else if isLongControl c then none
        else (long? q escapes fuel rest).map fun (body, rest) ↦ (c :: body, rest)

def skipFirstNewline (s : List Char) : List Char := (newline? s).getD s

def string? (s : List Char) : Option (List Char × List Char) :=
  match s with
  | '"' :: '"' :: '"' :: rest => long? '"' true (rest.length + 1) (skipFirstNewline rest)
  | '\x27' :: '\x27' :: '\x27' :: rest =>
    long? '\x27' false (rest.length + 1) (skipFirstNewline rest)
  | '"' :: rest => basic? (rest.length + 1) rest
  | '\x27' :: rest => literal? rest
  | _ => none

def isBareKeyChar (c : Char) : Bool := c.isAlphanum || c == '_' || c == '-'

def keyPart? (s : List Char) : Option (String × List Char) :=
  match s with
  | '"' :: rest => (basic? (rest.length + 1) rest).map fun (k, rest) ↦ (String.ofList k, rest)
  | '\x27' :: rest => (literal? rest).map fun (k, rest) ↦ (String.ofList k, rest)
  | _ =>
    let k := s.takeWhile isBareKeyChar
    if k.isEmpty then none else some (String.ofList k, s.dropWhile isBareKeyChar)

def key? : (fuel : Nat) → List Char → Option (Key × List Char)
  | 0, _ => none
  | fuel + 1, s =>
    match keyPart? (skipSpace s) with
    | none => none
    | some (part, rest) =>
      match skipSpace rest with
      | '.' :: rest => (key? fuel rest).map fun (key, rest) ↦ (⟨part :: key.path, key.last⟩, rest)
      | rest => some (⟨[], part⟩, rest)

end RpcStubs.Toml
