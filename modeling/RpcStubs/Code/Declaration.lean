import RpcStubs.Code.Function
import RpcStubs.Text.Hex
import RpcStubs.Text.Split

namespace RpcStubs

structure Const where
  name : Identifier
  type : GoType
  value : String
  comment : Comment := {}

namespace Const

def builder : String := "Const"

def new (name : String) (type : GoType) (value : String) : Build Const := do
  let name ← Build.inBuilder builder (Identifier.ofString name)
  if (Text.trim value.toList).isEmpty then throw (.missingField builder "value")
  return { name, type, value }

def withComment (c : Const) (comment : Comment) : Const := { c with comment }

def imports (c : Const) : ImportSet := c.type.imports

def source (c : Const) : String :=
  c.comment.above ++ "const " ++ c.name.name ++ " " ++ c.type.spell ++ " = " ++ c.value

def render (c : Const) : Build String := finish builder c.source

end Const

structure Var where
  name : Identifier
  type : Option GoType
  value : String
  comment : Comment := {}

namespace Var

def builder : String := "Var"

def new (name : String) (type : Option GoType) (value : String) : Build Var := do
  let name ← Build.inBuilder builder (Identifier.ofString name)
  if (Text.trim value.toList).isEmpty then throw (.missingField builder "value")
  return { name, type, value }

def bytesPerLine : Nat := 16

def byteToken (b : UInt8) : String :=
  String.ofList ('0' :: 'x' :: Text.hexByte b ++ [','])

def byteRow (row : List UInt8) : String := "\n" ++ " ".intercalate (row.map byteToken)

def byteLiteral (data : List UInt8) : String :=
  "[]byte\x7b" ++ String.join ((Text.chunks bytesPerLine data).map byteRow) ++
    (if data.isEmpty then "\x7d" else "\n\x7d")

def bytes (name : String) (data : List UInt8) : Build Var := new name none (byteLiteral data)

def withComment (v : Var) (comment : Comment) : Var := { v with comment }

def imports (v : Var) : ImportSet :=
  match v.type with
  | some type => type.imports
  | none => ∅

def source (v : Var) : String :=
  v.comment.above ++ "var " ++ v.name.name ++
    (match v.type with
      | some type => " " ++ type.spell
      | none => "") ++ " = " ++ v.value

def render (v : Var) : Build String := finish builder v.source

end Var

structure InterfaceMethod where
  name : Identifier
  params : List Parameter
  results : List GoType
  comment : Comment

def InterfaceMethod.source (m : InterfaceMethod) : String :=
  m.comment.above ++ m.name.name ++ signature m.params m.results ++ "\n"

/-- `type Name interface {…}`. Its name and its methods' names are exported. -/
structure Interface where
  name : Identifier
  comment : Comment := {}
  methods : List InterfaceMethod := []

namespace Interface

def builder : String := "Interface"

def new (name : String) : Build Interface := do
  return { name := ← Build.inBuilder builder (Identifier.exported name) }

def withComment (i : Interface) (comment : Comment) : Interface := { i with comment }

def addMethod (i : Interface) (name : String) (params : List Parameter) (results : List GoType)
    (comment : String) : Build Interface :=
  Build.inBuilder builder do
    Parameter.checkAll params
    let name ← Identifier.exported name
    return { i with methods := i.methods ++ [⟨name, params, results, .wrapped comment⟩] }

def imports (i : Interface) : ImportSet :=
  .ofList (i.methods.flatMap fun m ↦ (signatureImports m.params m.results).items)

def source (i : Interface) : String :=
  i.comment.above ++ "type " ++ i.name.name ++ " interface \x7b\n" ++
    String.join (i.methods.map InterfaceMethod.source) ++ "\x7d"

def render (i : Interface) : Build String := finish builder i.source

end Interface

structure Prototype where
  name : Identifier
  comment : Comment := {}
  params : List Parameter
  results : List GoType

namespace Prototype

def builder : String := "Prototype"

def new (name : String) (params : List Parameter) (results : List GoType) : Build Prototype :=
  Build.inBuilder builder do
    Parameter.checkAll params
    return { name := ← Identifier.exported name, params, results }

def withComment (p : Prototype) (text : String) : Prototype := { p with comment := .wrapped text }

def imports (p : Prototype) : ImportSet := signatureImports p.params p.results

def source (p : Prototype) : String :=
  p.comment.above ++ "type " ++ p.name.name ++ " func" ++ signature p.params p.results

def render (p : Prototype) : Build String := finish builder p.source

end Prototype

/-- A struct field; an embedded type has no name. -/
structure Field where
  name : Option Identifier
  type : GoType
  tag : Option String := none
  comment : Comment := {}

def Field.source (f : Field) : String :=
  f.comment.above ++
    (match f.name with
      | some name => name.name ++ " " ++ f.type.spell
      | none => f.type.spell) ++
    (match f.tag with
      | some tag => " \x60" ++ tag ++ "\x60"
      | none => "")

/-- `type Name struct {…}` with its methods. -/
structure Structure where
  name : Identifier
  comment : Comment := {}
  fields : List Field := []
  methods : List Method := []

namespace Structure

def builder : String := "Structure"

def new (name : String) : Build Structure := do
  return { name := ← Build.inBuilder builder (Identifier.ofString name) }

def withComment (s : Structure) (text : String) : Structure := { s with comment := .wrapped text }

def type (s : Structure) : Build GoType := GoType.declared s.name.name

def pushField (s : Structure) (name : String) (type : GoType) (tag : Option String)
    (comment : String) : Build Structure := do
  let name ← Build.inBuilder builder (Identifier.ofString name)
  return { s with fields := s.fields ++ [⟨some name, type, tag, .wrapped comment⟩] }

def addField (s : Structure) (name : String) (type : GoType) : Build Structure :=
  s.pushField name type none ""

def addCommentedField (s : Structure) (name : String) (type : GoType) (comment : String) :
    Build Structure :=
  s.pushField name type none comment

def addTaggedField (s : Structure) (name : String) (type : GoType) (tag : String) :
    Build Structure :=
  s.pushField name type (some tag) ""

def addEmbedded (s : Structure) (type : GoType) : Structure :=
  { s with fields := s.fields ++ [{ name := none, type }] }

def addMethod (s : Structure) (method : Method) : Structure :=
  { s with methods := s.methods ++ [method] }

def imports (s : Structure) : ImportSet :=
  .ofList (s.fields.flatMap (·.type.origins) ++ s.methods.flatMap (·.imports.items))

def bodySource (s : Structure) : String :=
  s.name.name ++ " struct \x7b\n" ++ String.join (s.fields.map (·.source ++ "\n")) ++ "\x7d"

def groupSource (s : Structure) : String := s.comment.above ++ s.bodySource

def source (s : Structure) : String := s.comment.above ++ "type " ++ s.bodySource

def render (s : Structure) : Build String := finish builder s.source

def renderMethods (s : Structure) : Build (List String) :=
  s.methods.mapM fun m ↦ Build.inBuilder builder m.render

end Structure

inductive Declaration where
  | const (d : Const)
  | var (d : Var)
  | interface (d : Interface)
  | prototype (d : Prototype)
  | structure (d : Structure)
  | function (d : Function)
  | closure (d : Closure)

namespace Declaration

def imports : Declaration → ImportSet
  | .const d => d.imports
  | .var d => d.imports
  | .interface d => d.imports
  | .prototype d => d.imports
  | .structure d => d.imports
  | .function d => d.imports
  | .closure d => d.imports

/-- The laid out text; a structure is followed by its methods. -/
def render : Declaration → Build String
  | .const d => d.render
  | .var d => d.render
  | .interface d => d.render
  | .prototype d => d.render
  | .structure d => return "\n\n".intercalate ((← d.render) :: (← d.renderMethods))
  | .function d => d.render
  | .closure d => d.render

end Declaration

end RpcStubs
