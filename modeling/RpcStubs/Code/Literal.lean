import RpcStubs.Code.Block

namespace RpcStubs

/-- `name := [N]T{…}`, or a slice when the length is not fixed. -/
structure SliceLiteral where
  name : Identifier
  element : GoType
  fixed : Bool
  values : List String

namespace SliceLiteral

def builder : String := "SliceLiteral"

def new (name : String) (element : GoType) (fixed : Bool) : Build SliceLiteral := do
  return ⟨← Build.inBuilder builder (Identifier.ofString name), element, fixed, []⟩

def push (l : SliceLiteral) (value : String) : Build SliceLiteral := do
  checkOperand builder "value" value
  return { l with values := l.values ++ [value] }

def imports (l : SliceLiteral) : ImportSet := l.element.imports

/-- An array takes its length from the number of values. -/
def type (l : SliceLiteral) : GoType :=
  if l.fixed then .array l.values.length l.element else .slice l.element

def closeEntries (entries : List String) : String := if entries.isEmpty then "\x7d" else "\n\x7d"

def source (l : SliceLiteral) : String :=
  l.name.name ++ " := " ++ l.type.spell ++ "\x7b" ++
    String.join (l.values.map fun v ↦ "\n" ++ v ++ ",") ++ closeEntries l.values

def render (l : SliceLiteral) : Build String := finish builder l.source

end SliceLiteral

structure StructLiteral where
  type : GoType
  fields : List (String × String) := []

namespace StructLiteral

def builder : String := "StructLiteral"

def addField (l : StructLiteral) (name value : String) : Build StructLiteral := do
  if name.isEmpty then throw (.missingField builder "field name")
  Build.inBuilder builder (checkIdentifier name)
  checkOperand builder "field value" value
  return { l with fields := l.fields ++ [(name, value)] }

def imports (l : StructLiteral) : ImportSet := l.type.imports

def source (l : StructLiteral) : String :=
  l.type.spell ++ "\x7b" ++
    String.join (l.fields.map fun (name, value) ↦ "\n" ++ name ++ ": " ++ value ++ ",") ++
    (if l.fields.isEmpty then "\x7d" else "\n\x7d")

def render (l : StructLiteral) : Build String := finish builder l.source

end StructLiteral

end RpcStubs
