import RpcStubs.Code.Layout.Fault

namespace RpcStubs.Layout

/-- What a character of Go source belongs to. Quotes and comment markers belong to the region they
open or close; the newline after a line comment is code. -/
inductive Region where
  | code
  | lineComment
  | blockComment
  | str
  | rawStr
  | rune
  deriving DecidableEq, Repr

def Region.spansLines : Region → Bool
  | .rawStr | .blockComment => true
  | _ => false

abbrev Glyph := Char × Region

/-- How the next character is read. -/
inductive Mode where
  | inside (region : Region)
  | opening (region : Region)
  | closing
  | escaped (region : Region)
  deriving DecidableEq, Repr

def Region.delimiter : Region → Char
  | .str => '"'
  | .rune => '\x27'
  | _ => '\x60'

def readCode (c : Char) (next : Option Char) : Region × Mode :=
  if c = '/' ∧ next = some '/' then (.lineComment, .opening .lineComment)
  else if c = '/' ∧ next = some '*' then (.blockComment, .opening .blockComment)
  else if c = Region.str.delimiter then (.str, .inside .str)
  else if c = Region.rawStr.delimiter then (.rawStr, .inside .rawStr)
  else if c = Region.rune.delimiter then (.rune, .inside .rune)
  else (.code, .inside .code)

/-- Reads `c` in a string or rune literal, which a newline must not break. -/
def readLiteral (region : Region) (c : Char) (next : Option Char) : Option (Region × Mode) :=
  if c = '\n' then none
  else if c = '\\' ∧ next.any (· ≠ '\n') then some (region, .escaped region)
  else if c = region.delimiter then some (region, .inside .code)
  else some (region, .inside region)

/-- The region of `c` and how to go on. There is none for a newline in a literal. -/
def Mode.read : Mode → Char → Option Char → Option (Region × Mode)
  | .inside .code, c, next => some (readCode c next)
  | .inside .lineComment, c, _ =>
    if c = '\n' then some (.code, .inside .code) else some (.lineComment, .inside .lineComment)
  | .inside .blockComment, c, next =>
    if c = '*' ∧ next = some '/' then some (.blockComment, .closing)
    else some (.blockComment, .inside .blockComment)
  | .inside .rawStr, c, _ =>
    some (.rawStr, if c = Region.rawStr.delimiter then .inside .code else .inside .rawStr)
  | .inside .str, c, next => readLiteral .str c next
  | .inside .rune, c, next => readLiteral .rune c next
  | .opening region, _, _ => some (region, .inside region)
  | .closing, _, _ => some (.blockComment, .inside .code)
  | .escaped region, _, _ => some (region, .inside region)

def Mode.endFault? (opened : Nat) : Mode → Option Fault
  | .inside .code | .inside .lineComment | .opening .lineComment => none
  | .inside .blockComment | .opening .blockComment | .closing => some (.openComment opened)
  | _ => some (.openLiteral opened)

/-- Marks the text after the characters in `done`, which are last first. -/
def markFrom (mode : Mode) (opened line : Nat) (done : List Glyph) :
    List Char → Except Fault (List Glyph)
  | [] =>
    match mode.endFault? opened with
    | none => .ok done.reverse
    | some fault => .error fault
  | c :: rest =>
    match mode.read c rest.head? with
    | none => .error (.newlineInLiteral opened)
    | some (region, mode') =>
      markFrom mode' (if mode = .inside .code then line else opened)
        (if c = '\n' then line + 1 else line) ((c, region) :: done) rest

def mark (source : List Char) : Except Fault (List Glyph) := markFrom (.inside .code) 1 1 [] source

end RpcStubs.Layout
