import RpcStubs.Code.Layout.Region
import RpcStubs.Text.Blank
import RpcStubs.Text.Split

namespace RpcStubs.Layout

open Text

inductive Opener where
  | group
  | block
  | ifBlock
  | elseBlock
  | switch
  | struct
  | literal
  deriving DecidableEq, Repr

def Opener.ofHead (head : List Char) : Opener :=
  let head := match head with
    | '\x7d' :: rest => trimStart rest
    | _ => head
  if "if ".toList.isPrefixOf head || "else if ".toList.isPrefixOf head then .ifBlock
  else if head = "else".toList then .elseBlock
  else if head = "switch".toList || "switch ".toList.isPrefixOf head || head = "select".toList then
    .switch
  else .block

def Opener.of (bracket : Char) (before : List Char) : Opener :=
  if bracket ≠ '\x7b' then .group
  else
    let head := trim before
    if "struct".toList.isSuffixOf head then .struct
    else if !head.isEmpty && !(before.getLast?.any isBlank) then .literal
    else .ofHead head

structure OpenBracket where
  bracket : Char
  line : Nat
  opener : Opener
  deriving DecidableEq, Repr

def isOpening (c : Char) : Bool := c == '\x7b' || c == '(' || c == '['

def isClosing (c : Char) : Bool := c == '\x7d' || c == ')' || c == ']'

def closes (bracket found : Char) : Bool :=
  (bracket == '\x7b' && found == '\x7d') || (bracket == '(' && found == ')') ||
    (bracket == '[' && found == ']')

/-- A line of marked text. It is verbatim when it starts inside a raw string or block comment. -/
structure MarkedLine where
  verbatim : Bool
  glyphs : List Glyph
  deriving Repr

def MarkedLine.text (l : MarkedLine) : List Char := l.glyphs.map Prod.fst

/-- Cuts at newlines; `current` is the line so far, last character first. An empty rest after the
last newline is no line. -/
def cutLines (verbatim : Bool) (current : List Glyph) : List Glyph → List MarkedLine
  | [] => if current.isEmpty then [] else [⟨verbatim, current.reverse⟩]
  | (c, region) :: rest =>
    if c = '\n' then ⟨verbatim, current.reverse⟩ :: cutLines region.spansLines [] rest
    else cutLines verbatim ((c, region) :: current) rest

structure Brackets where
  stack : List OpenBracket
  closedFirst : Option Opener
  deriving Repr

/-- Reads one character of code; `before` is the line before it, last character first. -/
def Brackets.read (line : Nat) (before : List Char) (c : Char) (b : Brackets) :
    Except Fault Brackets :=
  if isOpening c then
    .ok { b with stack := ⟨c, line, .of c before.reverse⟩ :: b.stack }
  else if isClosing c then
    match b.stack with
    | [] => .error (.unexpected c line)
    | top :: stack =>
      if closes top.bracket c then
        .ok ⟨stack, if c = '\x7d' && before.all isBlank then some top.opener else b.closedFirst⟩
      else .error (.mismatched top.bracket top.line c line)
  else .ok b

def Brackets.readLine (line : Nat) (before : List Char) (b : Brackets) :
    List Glyph → Except Fault Brackets
  | [] => .ok b
  | (c, region) :: rest =>
    if region = .code then
      match b.read line before c with
      | .ok b => b.readLine line (c :: before) rest
      | .error fault => .error fault
    else b.readLine line (c :: before) rest

def startsElse (trimmed : List Char) : Bool :=
  "\x7d else \x7b".toList.isPrefixOf trimmed || "\x7d else if ".toList.isPrefixOf trimmed

def isLooseElse (trimmed : List Char) : Bool :=
  trimmed = "else".toList || "else \x7b".toList.isPrefixOf trimmed ||
    "else if ".toList.isPrefixOf trimmed

def startsCase (trimmed : List Char) : Bool := "case ".toList.isPrefixOf trimmed

def startsDefault (trimmed : List Char) : Bool := "default:".toList.isPrefixOf trimmed

/-- The clause rules: `else` follows the brace of an `if`, and `case` and `default` stand directly
in a `switch`. -/
def clauseFault? (trimmed : List Char) (line : Nat) (enclosing closedFirst : Option Opener) :
    Option Fault :=
  if startsElse trimmed && closedFirst ≠ some .ifBlock then some (.elseWithoutIf line)
  else if isLooseElse trimmed then some (.looseElse line)
  else if startsCase trimmed && enclosing ≠ some .switch then
    some (.clauseOutsideSwitch "case" line)
  else if startsDefault trimmed && enclosing ≠ some .switch then
    some (.clauseOutsideSwitch "default" line)
  else none

structure Line where
  depth : Nat
  verbatim : Bool
  enclosing : Option Opener
  balanced : Bool
  text : List Char
  deriving Repr

def nestLines (line : Nat) (stack : List OpenBracket) : List MarkedLine → Except Fault (List Line)
  | [] =>
    match stack with
    | [] => .ok []
    | top :: _ => .error (.neverClosed top.bracket top.line)
  | l :: rest => do
    let after ← Brackets.readLine line [] ⟨stack, none⟩ l.glyphs
    let enclosing := stack.head?.map (·.opener)
    if !l.verbatim then
      match clauseFault? (trim l.text) line enclosing after.closedFirst with
      | some fault => throw fault
      | none => pure ()
    let nested ← nestLines (line + 1) after.stack rest
    return {
      depth := stack.length
      verbatim := l.verbatim
      enclosing := enclosing
      balanced := after.closedFirst.isNone && after.stack.length == stack.length
      text := l.text } :: nested

def nest (source : List Char) : Except Fault (List Line) := do
  let glyphs ← mark source
  nestLines 1 [] (cutLines false [] glyphs)

end RpcStubs.Layout
