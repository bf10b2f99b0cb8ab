import RpcStubs.Failure
import RpcStubs.Code.Name
import RpcStubs.Text.Blank

namespace RpcStubs

open Text

def keywords : List String := [
  "break", "case", "chan", "const", "continue", "default", "defer", "else", "fallthrough", "for",
  "func", "go", "goto", "if", "import", "interface", "map", "package", "range", "return", "select",
  "struct", "switch", "type", "var"]

def isKeyword (s : String) : Bool := keywords.contains s

def startsWord (c : Char) : Bool := isLetter c || c == '_'

def isWord : List Char → Bool
  | [] => false
  | c :: rest => startsWord c && rest.all Name.isWordChar

inductive IdentifierFault where
  | empty
  | badStart
  | badCharacter
  | keyword
  deriving DecidableEq, Repr

def IdentifierFault.reason : IdentifierFault → String
  | .empty => "identifier is empty"
  | .badStart => "identifier must start with a letter or underscore"
  | .badCharacter => "identifier contains illegal characters"
  | .keyword => "identifier is a key word"

def identifierFault? (s : String) : Option IdentifierFault :=
  match s.toList with
  | [] => some .empty
  | c :: rest =>
    if !startsWord c then some .badStart
    else if !rest.all Name.isWordChar then some .badCharacter
    else if isKeyword s then some .keyword
    else none

structure Identifier where
  name : String
  legal : identifierFault? name = none
  deriving DecidableEq

instance : Repr Identifier := ⟨fun i ↦ reprPrec i.name⟩

namespace Identifier

def ofString (s : String) : Build Identifier :=
  match h : identifierFault? s with
  | none => .ok ⟨s, h⟩
  | some fault => .error (.invalidIdentifier s fault.reason)

def exported (s : String) : Build Identifier := ofString (Name.exported s)

def unexported (s : String) : Build Identifier := ofString (Name.unexported s)

def isExported (i : Identifier) : Bool :=
  match i.name.toList with
  | c :: _ => isCapital c
  | [] => false

end Identifier

def checkIdentifier (s : String) : Build Unit :=
  match identifierFault? s with
  | none => .ok ()
  | some fault => .error (.invalidIdentifier s fault.reason)

def checkIdentifiers : List String → Build Unit
  | [] => .ok ()
  | s :: rest => do
    checkIdentifier s
    checkIdentifiers rest

def segments (selector : String) : List String :=
  (pieces '.' selector.toList).map String.ofList

def checkSelector (builder field selector : String) : Build Unit :=
  if selector.isEmpty then .error (.missingField builder field)
  else if (segments selector).all fun s ↦ (identifierFault? s).isNone then .ok ()
  else .error (.invalidIdentifier selector "selector segment is not an identifier")

/-- An operand is present and is not a bare keyword; surrounding blanks do not count. -/
def checkOperand (builder field operand : String) : Build Unit :=
  let trimmed := String.ofList (trim operand.toList)
  if trimmed.isEmpty then .error (.missingField builder field)
  else if isKeyword trimmed then
    .error (.invalidIdentifier trimmed IdentifierFault.keyword.reason)
  else .ok ()

end RpcStubs
