import RpcStubs.Pattern.Basic
import RpcStubs.Text.Blank
import RpcStubs.Text.Hex

namespace RpcStubs.Pattern

def skipFrom : (comment : Bool) → List Char → List Char
  | _, [] => []
  | true, c :: rest => skipFrom (c ≠ '\n') rest
  | false, c :: rest =>
    if Text.isBlank c then skipFrom false rest
    else if c = '#' then skipFrom true rest
    else c :: rest

def skip (verbose : Bool) (s : List Char) : List Char := if verbose then skipFrom false s else s

/-- The next character that counts, one step ahead: blanks and the mark of a comment are passed
over, unless nothing else follows. -/
def peek (verbose : Bool) (s : List Char) : Option Char :=
  if !verbose then s.head?
  else
    let ahead := match s.dropWhile Text.isBlank with
      | '#' :: rest => rest.dropWhile Text.isBlank
      | rest => rest
    ahead.head?.or s.head?

def hexDigits? (verbose : Bool) (value : Nat) : (count : Nat) → List Char →
    Option (Nat × List Char)
  | 0, s => some (value, skip verbose s)
  | count + 1, s =>
    match skip verbose s with
    | [] => none
    | c :: rest =>
      match Text.hexValue? c with
      | some digit => hexDigits? verbose (16 * value + digit) count rest
      | none => none

def codePoint? (verbose byte : Bool) (count : Nat) (s : List Char) :
    Option (Pattern × List Char) :=
  match hexDigits? verbose 0 count s with
  | some (n, rest) =>
    if h : n.isValidChar then some (.literal (Char.ofNatAux n h) byte, rest) else none
  | none => none

/-- A property by one letter. Longer names stand in braces, which never close inside a directive. -/
def property? (verbose : Bool) (s : List Char) : Option (Pattern × List Char) :=
  match skip verbose s with
  | [] => none
  | c :: rest => if c = '\x7b' ∨ c = '\\' then none else some (.property, skip verbose rest)

def controls : List (Char × Char) :=
  [('a', '\x07'), ('f', '\x0c'), ('n', '\n'), ('r', '\r'), ('t', '\t'), ('v', '\x0b')]

/-- What a backslash makes of one character. Of ASCII, all but letters and digits may be escaped
without need. -/
def letterEscape? (c : Char) : Option Pattern :=
  if ['d', 's', 'w', 'D', 'S', 'W'].contains c then some (.shorthand c.isUpper)
  else if ['A', 'z'].contains c then some .edge
  else if ['b', 'B', '<', '>'].contains c then some .wordEdge
  else
    match controls.lookup c with
    | some control => some (.literal control false)
    | none => if c.toNat < 0x80 ∧ !c.isAlphanum then some (.literal c false) else none

def escape? (verbose : Bool) : List Char → Option (Pattern × List Char)
  | [] => none
  | c :: rest =>
    if c = 'x' then codePoint? verbose true 2 rest
    else if c = 'u' then codePoint? verbose false 4 rest
    else if c = 'U' then codePoint? verbose false 8 rest
    else if c = 'p' ∨ c = 'P' then property? verbose rest
    else (letterEscape? c).map (·, rest)

def setItem? (verbose : Bool) : List Char → Option (Pattern × List Char)
  | [] => none
  | '\\' :: rest => escape? verbose rest
  | c :: rest => some (.literal c false, rest)

def asPart? : Pattern → Option CharSet
  | .literal c _ => some (.single c)
  | .shorthand negated => some (.shorthand negated)
  | .property => some .property
  | _ => none

def range? : Pattern → Pattern → Option CharSet
  | .literal first _, .literal last _ =>
    if first.toNat ≤ last.toNat then some (.range first last) else none
  | _, _ => none

/-- An item of a set, or a range of characters. A dash before another dash or before the closing
bracket makes no range. -/
def setRange? (verbose : Bool) (s : List Char) : Option (CharSet × List Char) := do
  let (first, rest) ← setItem? verbose s
  match skip verbose rest with
  | [] => none
  | '-' :: rest =>
    if [some ']', some '-'].contains (peek verbose rest) then
      return (← asPart? first, '-' :: rest)
    else
      let (last, rest) ← setItem? verbose (skip verbose rest)
      return (← range? first last, rest)
  | rest => return (← asPart? first, rest)

def setNames : List String :=
  ["alnum", "alpha", "ascii", "blank", "cntrl", "digit", "graph", "lower", "print", "punct",
    "space", "upper", "word", "xdigit"]

def namedSet? : List Char → Option (CharSet × List Char)
  | ':' :: s =>
    let (negated, s) := match s with
      | '^' :: s => (true, s)
      | s => (false, s)
    let name := s.takeWhile (· ≠ ':')
    match s.drop name.length with
    | ':' :: ']' :: rest =>
      if setNames.contains (String.ofList name) then some (.named negated, rest) else none
    | _ => none
  | _ => none

/-- Dashes that open a set stand for themselves. Something has to follow. -/
def leadingDashes? (verbose : Bool) (parts : List CharSet) : (fuel : Nat) → List Char →
    Option (List CharSet × List Char)
  | 0, _ => none
  | fuel + 1, s =>
    match skip verbose s with
    | [] => none
    | '-' :: rest => leadingDashes? verbose (parts ++ [.single '-']) fuel rest
    | rest => some (parts, rest)

/-- What stands at the start of a set: whether it is negated, and the dashes or the one closing
bracket that stand for themselves. -/
def openSet? (verbose : Bool) (s : List Char) : Option (Bool × List CharSet × List Char) := do
  let (negated, s) := match skip verbose s with
    | '^' :: rest => (true, rest)
    | rest => (false, rest)
  let (parts, rest) ← leadingDashes? verbose [] (s.length + 1) s
  match parts, rest with
  | [], ']' :: rest =>
    match skip verbose rest with
    | [] => none
    | rest => return (negated, [.single ']'], rest)
  | _, _ => return (negated, parts, rest)

def joined (left : Option CharSet) (parts : List CharSet) : CharSet :=
  match left with
  | some left => .combined left (.ofParts parts)
  | none => .ofParts parts

/-- The rest of a set up to its closing bracket. The fuel bounds the number of its parts. -/
def setBody? (verbose : Bool) : (fuel : Nat) → (left : Option CharSet) → (parts : List CharSet) →
    List Char → Option (CharSet × List Char)
  | 0, _, _, _ => none
  | fuel + 1, left, parts, s =>
    match skip verbose s with
    | [] => none
    | ']' :: rest => some (joined left parts, rest)
    | '&' :: '&' :: rest => setBody? verbose fuel (joined left parts) [] rest
    | '-' :: '-' :: rest => setBody? verbose fuel (joined left parts) [] rest
    | '~' :: '~' :: rest => setBody? verbose fuel (joined left parts) [] rest
    | '[' :: rest =>
      match namedSet? rest with
      | some (part, rest) => setBody? verbose fuel left (parts ++ [part]) rest
      | none =>
        match openSet? verbose rest with
        | none => none
        | some (negated, inner, rest) =>
          match setBody? verbose fuel none inner rest with
          | some (body, rest) =>
            setBody? verbose fuel left (parts ++ [.bracketed negated body]) rest
          | none => none
    | s =>
      match setRange? verbose s with
      | some (part, rest) => setBody? verbose fuel left (parts ++ [part]) rest
      | none => none

def set? (verbose : Bool) (s : List Char) : Option (Pattern × List Char) := do
  let (negated, parts, rest) ← openSet? verbose s
  let (body, rest) ← setBody? verbose (rest.length + 1) none parts rest
  return (.charSet negated body, rest)

end RpcStubs.Pattern
