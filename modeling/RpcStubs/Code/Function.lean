import RpcStubs.Code.Block
import RpcStubs.Code.Comment

namespace RpcStubs

structure Function where
  name : Identifier
  comment : Comment := {}
  params : List Parameter
  results : List GoType
  body : Block := {}

namespace Function

def builder : String := "Function"

def build (name : String) (params : List Parameter) (results : List GoType) : Build Function := do
  Parameter.checkAll params
  return { name := ← Identifier.ofString name, params, results }

def new (name : String) (params : List Parameter) (results : List GoType) : Build Function :=
  Build.inBuilder builder (build name params results)

def withComment (f : Function) (text : String) : Function := { f with comment := .wrapped text }

def withBody (f : Function) (body : Block) : Function := { f with body }

def prototype (f : Function) : String := f.name.name ++ signature f.params f.results

def imports (f : Function) : ImportSet := signatureImports f.params f.results ∪ f.body.imports

def source (f : Function) : String :=
  f.comment.above ++ braced ("func " ++ f.prototype) f.body.source

def render (f : Function) : Build String := finish builder f.source

end Function

structure Method where
  receiver : Identifier
  receiverType : GoType
  function : Function

namespace Method

def builder : String := "Method"

def new (receiver : String) (receiverType : GoType) (name : String) (params : List Parameter)
    (results : List GoType) : Build Method := do
  if receiver.isEmpty then throw (.missingField builder "receiver")
  Build.inBuilder builder do
    return ⟨← Identifier.ofString receiver, receiverType, ← Function.build name params results⟩

def withComment (m : Method) (text : String) : Method :=
  { m with function := m.function.withComment text }

def withBody (m : Method) (body : Block) : Method :=
  { m with function := m.function.withBody body }

def name (m : Method) : String := m.function.name.name

def imports (m : Method) : ImportSet := m.function.imports ∪ m.receiverType.imports

def head (m : Method) : String :=
  "func (" ++ m.receiver.name ++ " " ++ m.receiverType.spell ++ ") " ++ m.function.prototype

def source (m : Method) : String :=
  m.function.comment.above ++ braced m.head m.function.body.source

def render (m : Method) : Build String := finish builder m.source

end Method

/-- A function that builds a function: `outer` runs once, `inner` on every call of the result. -/
structure Closure where
  name : Identifier
  comment : Comment := {}
  params : List Parameter
  innerParams : List Parameter
  innerResults : List GoType
  outer : Block := {}
  inner : Block := {}

namespace Closure

def builder : String := "Closure"

def new (name : String) (params innerParams : List Parameter) (innerResults : List GoType) :
    Build Closure :=
  Build.inBuilder builder do
    Parameter.checkAll params
    Parameter.checkAll innerParams
    return { name := ← Identifier.ofString name, params, innerParams, innerResults }

def withComment (c : Closure) (text : String) : Closure := { c with comment := .wrapped text }

def imports (c : Closure) : ImportSet :=
  signatureImports c.params [] ∪ signatureImports c.innerParams c.innerResults ∪
    c.outer.imports ∪ c.inner.imports

def innerType (c : Closure) : String := "func" ++ signature c.innerParams c.innerResults

def body (c : Closure) : String :=
  let outer := c.outer.source
  (if outer.isEmpty then "" else outer ++ "\n") ++
    braced ("return " ++ c.innerType) c.inner.source

def source (c : Closure) : String :=
  c.comment.above ++
    braced ("func " ++ c.name.name ++ "(" ++ Parameter.list c.params ++ ") " ++ c.innerType) c.body

def render (c : Closure) : Build String := finish builder c.source

end Closure

end RpcStubs
