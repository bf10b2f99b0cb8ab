import RpcStubs.Code.Declaration
import RpcStubs.Schema.Context
import RpcStubs.Stub.Framework
import RpcStubs.Wire.Route

namespace RpcStubs.Stub

open Schema (Context)

/-- The lines of a comment; one that is missing or blank is none. -/
def commentLines (lookup : Build String) : Build (Option (List String)) :=
  match lookup >>= Schema.prepareComment with
  | .ok lines => .ok (some lines)
  | .error .emptyComment => .ok none
  | .error failure => .error failure

structure Endpoint where
  name : String
  input : GoType
  output : GoType
  comment : Option (List String)

namespace Endpoint

def dispatcher (e : Endpoint) : String := "serve" ++ e.name

def contentHandler (e : Endpoint) : String := "serve" ++ e.name ++ "Content"

end Endpoint

structure Service where
  name : String
  /-- Empty when the file declares no package. -/
  schemaPackage : String
  index : Nat
  root : String
  comment : Option (List String)
  endpoints : List Endpoint

namespace Service

def fullName (s : Service) : String := Wire.fullServiceName s.schemaPackage s.name

def pathPrefix (s : Service) : String := Wire.pathPrefix s.root s.fullName

def route (s : Service) (e : Endpoint) : String := Wire.methodPath s.root s.fullName e.name

def pathPrefixConst (s : Service) : String := s.name ++ "PathPrefix"

def serverName (s : Service) : String := Name.unexported s.name ++ "Server"

def clientName (s : Service) (ct : Wire.ContentType) : String :=
  Name.unexported s.name ++ ct.clientSuffix ++ "Client"

def endpoint (ctx : Context) (file service : Nat) (m : Schema.Method) (index : Nat) :
    Build Endpoint := do
  let input ← ctx.type m.input
  let output ← ctx.type m.output
  let comment ← commentLines (ctx.registry.methodComment file service index)
  return ⟨Name.camelCase m.name, input, output, comment⟩

def resolve (ctx : Context) (file index : Nat) (root : String) : Build Service := do
  let f ← ctx.file file
  match f.services[index]? with
  | none =>
    throw (.invariantViolation
      ("file " ++ f.name ++ " has no service at index " ++ Nat.repr index))
  | some s =>
    let endpoints ← s.methods.zipIdx.mapM fun (m, i) ↦ endpoint ctx file index m i
    let comment ← commentLines (ctx.registry.serviceComment file index)
    return ⟨Name.camelCase s.name, f.package, index, root, comment, endpoints⟩

end Service

def quoteChar (c : Char) : List Char :=
  if c = '"' then ['\\', '"']
  else if c = '\\' then ['\\', '\\']
  else if c = '\n' then ['\\', 'n']
  else if c = '\t' then ['\\', 't']
  else [c]

def goQuoted (s : String) : String :=
  String.ofList ('"' :: s.toList.flatMap quoteChar ++ ['"'])

namespace Service

def addEndpoint (i : Interface) (e : Endpoint) : Build Interface := do
  let params := [⟨"ctx", ← contextType⟩, ⟨"req", .pointer e.input⟩]
  i.addMethod e.name params [.pointer e.output, .error]
    (" ".intercalate (e.comment.getD []))

def interface (s : Service) : Build Interface := do
  let start := (← Interface.new s.name).withComment (.ofLines (s.comment.getD []))
  s.endpoints.foldlM addEndpoint start

end Service

end RpcStubs.Stub
