import RpcStubs.Code.Step
import RpcStubs.Stub.Service

namespace RpcStubs.Stub

structure ClientStub where
  type : Structure
  constructor : Function

namespace ClientStub

def url (e : Endpoint) : String := "prefix + " ++ goQuoted e.name

def urlLiteral (s : Service) : Build SliceLiteral := do
  (s.endpoints.map url).foldlM SliceLiteral.push (← SliceLiteral.new "urls" .string true)

def literal (structName value : String) : Build StructLiteral := do
  let start : StructLiteral := { type := ← GoType.declared structName }
  (← start.addField "client" value).addField "urls" "urls"

/-- Go refuses unused variables, so a service without endpoints needs no URL base. -/
def urlBase (s : Service) : List Step :=
  if s.endpoints.isEmpty then []
  else [
    .defineCall ["URLBase"] "transport.UrlBase" ["addr"],
    .defineOperation "prefix" "URLBase" .add s.pathPrefixConst]

def newClient (s : Service) (structName suffix : String) (httpClient : GoType) :
    Build Function := do
  let name := "New" ++ s.name ++ suffix ++ "Client"
  let urls ← urlLiteral s
  let redirectless ← literal structName "httpClient"
  let plain ← literal structName "client"
  let body ← Block.ofSteps (urlBase s ++ [
    .sliceLiteral urls,
    .typeAssert ["httpClient", "ok"] "client" (← httpClientPointer),
    .ifBegin "ok" .equal "true",
    .assignCall ["httpClient"] "transport.WithoutRedirects" ["httpClient"],
    .structLiteral "return" redirectless true,
    .close,
    .structLiteral "return" plain true])
  let params : List Parameter := [⟨"addr", .string⟩, ⟨"client", httpClient⟩]
  let f ← Function.new name params [← GoType.declared s.name]
  let comment := " constructs a new client, which wraps the http.client and implements "
  return (f.withComment (name ++ comment ++ s.name)).withBody body

def method (s : Service) (ct : Wire.ContentType) (receiver : GoType) (e : Endpoint) (i : Nat) :
    Build Method := do
  let body ← Block.ofSteps [
    .assignCall ["ctx"] "xcontext.WithPackageName" ["ctx", goQuoted s.schemaPackage],
    .assignCall ["ctx"] "xcontext.WithServiceName" ["ctx", goQuoted s.name],
    .assignCall ["ctx"] "xcontext.WithMethodName" ["ctx", goQuoted e.name],
    .newInstance "out" e.output,
    .defineCall ["err"] (binding ct).request
      ["ctx", "c.client", "c.urls[" ++ Nat.repr i ++ "]", "in", "out"],
    .returnValues ["out", "err"]]
  let params := [⟨"ctx", ← contextType⟩, ⟨"in", .pointer e.input⟩]
  let m ← Method.new "c" receiver e.name params [.pointer e.output, .error]
  return (m.withComment (e.name ++ " sends an " ++ e.input.spell ++ " " ++ ct.clientSuffix ++
    " object to the server")).withBody body

def event (s : Service) (structName : String) : Event :=
  ⟨.debug, "xservice_generator::client", "emitted client",
    [("service", s.name), ("client", structName), ("methods", Nat.repr s.endpoints.length)]⟩

def buildQuietly (s : Service) (f : Framework) (ct : Wire.ContentType) : Build ClientStub := do
  let structName := s.clientName ct
  let httpClient ← f.type .transport "HTTPClient"
  let start := (← Structure.new structName).withComment
    (structName ++ " wraps an http.client and sends " ++ ct.clientSuffix ++ " objects")
  let fields ← (← start.addField "client" httpClient).addField "urls"
    (.array s.endpoints.length .string)
  let constructor ← newClient s structName ct.clientSuffix httpClient
  let receiver := .pointer (← GoType.declared structName)
  let methods ← s.endpoints.zipIdx.mapM fun (e, i) ↦ method s ct receiver e i
  return ⟨methods.foldl Structure.addMethod fields, constructor⟩

def build (s : Service) (f : Framework) (ct : Wire.ContentType) : Traced ClientStub := do
  let client ← buildQuietly s f ct
  Traced.emit (event s (s.clientName ct))
  return client

end ClientStub

end RpcStubs.Stub
