import RpcStubs.Code.Block

namespace RpcStubs

structure FuncLiteral where
  name : Identifier
  params : List Parameter
  results : List GoType
  body : Block := {}

namespace FuncLiteral

def builder : String := "AnonymousFunc"

def new (name : String) (params : List Parameter) (results : List GoType) : Build FuncLiteral :=
  Build.inBuilder builder do
    Parameter.checkAll params
    return { name := ← Identifier.ofString name, params, results }

def withBody (f : FuncLiteral) (body : Block) : FuncLiteral := { f with body }

def imports (f : FuncLiteral) : ImportSet := signatureImports f.params f.results ∪ f.body.imports

def source (f : FuncLiteral) : String :=
  braced (f.name.name ++ " := func" ++ signature f.params f.results) f.body.source

def render (f : FuncLiteral) : Build String := finish builder f.source

end FuncLiteral

end RpcStubs
