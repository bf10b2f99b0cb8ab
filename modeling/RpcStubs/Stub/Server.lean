import RpcStubs.Code.Step
import RpcStubs.Stub.Service

namespace RpcStubs.Stub

structure ServerStub where
  pathPrefix : Const
  type : Structure
  constructor : Function

structure ServerMetadata where
  descriptorVar : String
  version : String

namespace ServerStub

def handlerParams : Build (List Parameter) :=
  return [⟨"ctx", ← contextType⟩, ⟨"resp", ← responseWriter⟩, ⟨"req", ← requestPointer⟩]

def writeError (err : String) : List Step := [.call "s.writeError" ["ctx", "resp", err]]

def writeErrorAndReturn (err : String) : List Step := writeError err ++ [.ret]

def badRoute (format value : String) : List Step := [
  .defineCall ["msg"] "fmt.Sprintf" [goQuoted format, value],
  .defineCall ["terr"] "errors.BadRouteError" ["msg", "req.Method", "req.URL.Path"]] ++
  writeError "terr"

def failOnError : List Step :=
  [.ifBegin "err" .notEqual "nil"] ++ writeErrorAndReturn "err" ++ [.close]

def pathPrefixConst (s : Service) : Build Const := do
  let name := s.pathPrefixConst
  let comment := Comment.ofLines [
    name ++ " is used for all URL paths on a " ++ s.name ++ " server.",
    "Requests are always: POST " ++ name ++ " /method",
    "It can be used in an HTTP mux to route requests"]
  return (← Const.new name .string (goQuoted s.pathPrefix)).withComment comment

def newServer (s : Service) (f : Framework) (structName : String) (hooks logError : GoType) :
    Build Function := do
  let name := "New" ++ s.name ++ "Server"
  let start : StructLiteral := { type := ← GoType.declared structName }
  let literal ← (← start.addField s.name "svc").addField "hooks" "hooks"
  let body ← Block.ofSteps [
    .structLiteral "server :=" literal true,
    .ifBegin "len(errorFunc)" .equal "1",
    .assignField "server" "logErrorFunc" "errorFunc[0]",
    .elseBegin,
    .assignField "server" "logErrorFunc" "log.Printf",
    .close,
    .returnValues ["server"]]
  let params : List Parameter :=
    [⟨"svc", ← GoType.declared s.name⟩, ⟨"hooks", hooks⟩, ⟨"errorFunc", .variadic logError⟩]
  let f ← Function.new name params [← f.type .server "Server"]
  let comment := name ++ " constructs a new server, and implements " ++ s.name
  return (f.withComment comment).withBody body

def method (receiver : GoType) (name : String) (params : List Parameter) (results : List GoType) :
    Build Method :=
  Method.new "s" receiver name params results

def errorWriter (receiver : GoType) : Build Method := do
  let body ← Block.ofSteps [
    .call "transport.WriteErrorAndTriggerHooks" ["ctx", "resp", "err", "s.hooks"]]
  let params := [⟨"ctx", ← contextType⟩, ⟨"resp", ← responseWriter⟩, ⟨"err", .error⟩]
  return (← method receiver "writeError" params []).withBody body

def addRoute (s : Service) (routes : Switch) (e : Endpoint) : Build Switch := do
  let body ← Block.ofSteps [.call ("s." ++ e.dispatcher) ["ctx", "resp", "req"], .ret]
  routes.addCase [goQuoted (s.route e)] body

def routes (s : Service) : Build Switch := do
  let cases ← s.endpoints.foldlM (addRoute s) (← Switch.onValue "req.URL.Path")
  let fallback ← Block.ofSteps (badRoute Wire.noHandlerFormat "req.URL.Path" ++ [.ret])
  return cases.withFallback fallback

def handler (s : Service) (receiver : GoType) : Build Method := do
  let body ← Block.ofSteps ([
    .defineCall ["ctx"] "req.Context" [],
    .assignCall ["ctx"] "xcontext.WithPackageName" ["ctx", goQuoted s.schemaPackage],
    .assignCall ["ctx"] "xcontext.WithServiceName" ["ctx", goQuoted s.name],
    .assignCall ["ctx"] "xcontext.WithResponseWriter" ["ctx", "resp"],
    .declareVar "err" .error,
    .assignCall ["ctx", "err"] "transport.CallRequestReceived" ["ctx", "s.hooks"]] ++
    failOnError ++ [.ifBegin "req.Method" .notEqual "http.MethodPost"] ++
    badRoute Wire.unsupportedMethodFormat "req.Method" ++ [.ret, .close, .switch (← routes s)])
  let params := [⟨"resp", ← responseWriter⟩, ⟨"req", ← requestPointer⟩]
  return ((← method receiver "ServeHTTP" params []).withComment
    "ServeHTTP implements http.Handler.").withBody body

/-- The branch for an encoding; the first opens the chain. -/
def encodingBranch (handlerName : String) (ct : Wire.ContentType) (n : Nat) : List Step :=
  let media := goQuoted ct.mediaType
  [if n = 0 then .ifBegin "modifiedHeader" .equal media else .elseIf "modifiedHeader" .equal media,
    .call handlerName ["ctx", "resp", "req", (binding ct).decoder, (binding ct).encoder],
    .ret]

/-- Picks the encoding by the media type: what stands before the first semicolon of the header, in
lower case and without blanks around it. -/
def dispatcher (receiver : GoType) (cts : List Wire.ContentType) (e : Endpoint) :
    Build Method := do
  let body ← Block.ofSteps ([
    .defineCall ["header"] "req.Header.Get" ["xhttp.ContentTypeHeader"],
    .defineCall ["i"] "strings.Index" ["header", "\";\""],
    .ifBegin "i" .equal "-1",
    .assignCall ["i"] "len" ["header"],
    .close,
    .defineCall ["modifiedHeader"] "strings.ToLower" ["header[:i]"],
    .assignCall ["modifiedHeader"] "strings.TrimSpace" ["modifiedHeader"]] ++
    cts.zipIdx.flatMap (fun (ct, n) ↦ encodingBranch ("s." ++ e.contentHandler) ct n) ++
    [.elseBegin] ++ badRoute Wire.unexpectedContentTypeFormat "header" ++ [.close])
  let comment := e.dispatcher ++ " is used to set a decoder and encoder for a given content type"
  let m ← method receiver e.dispatcher (← handlerParams) []
  return (m.withComment comment).withBody body

/-- The call of the implementation; a panic becomes an internal error. -/
def endpointCall (e : Endpoint) : Build FuncLiteral := do
  let onPanic ← Block.ofSteps ([
    .defineCall ["terr"] "errors.InternalError" ["\"Internal service panic\""]] ++
    writeError "terr")
  let f ← FuncLiteral.new "endpointWrapper" [] [.pointer e.output, .error]
  return f.withBody (← Block.ofSteps [
    .recoverGuard "deferWrapper" onPanic,
    .returnCall ("s." ++ e.name) ["ctx", "reqContent"]])

def nilResponse (e : Endpoint) : String :=
  "received a nil " ++ (GoType.pointer e.output).spell ++ ", and nil error while calling " ++
    e.name ++ ". nil responses are not supported"

def logAndFail (err : String) : List Step :=
  [.call "s.logErrorFunc" ["\"%v\"", err]] ++ writeErrorAndReturn err ++ [.close]

def contentHandler (receiver : GoType) (f : Framework) (e : Endpoint) : Build Method := do
  let decode ← Step.callExpr ["err"] "decodeRequest" ["ctx", "req", "reqContent"]
  let call ← endpointCall e
  let encode ← Step.callExpr ["err"] "encodeResponse" ["ctx", "resp", "respContent"]
  let body ← Block.ofSteps ([
    .declareVar "err" .error,
    .assignCall ["ctx"] "xcontext.WithMethodName" ["ctx", goQuoted e.name],
    .assignCall ["ctx", "err"] "transport.CallRequestRouted" ["ctx", "s.hooks"]] ++
    failOnError ++ [
    .deferCall "transport.Closebody" ["req.Body", "s.logErrorFunc"],
    .newInstance "reqContent" e.input,
    .ifScoped decode "err" .notEqual "nil"] ++ logAndFail "err" ++ [
    .nestedFunc call,
    .defineCall ["respContent", "err"] "endpointWrapper" []] ++ failOnError ++ [
    .ifBegin "respContent" .equal "nil",
    .defineCall ["terr"] "errors.InternalError" [goQuoted (nilResponse e)]] ++
    logAndFail "terr" ++ [
    .assignCall ["ctx"] "transport.CallResponsePrepared" ["ctx", "s.hooks"],
    .ifScoped encode "err" .notEqual "nil"] ++ logAndFail "err" ++ [
    .call "transport.CallResponseSent" ["ctx", "s.hooks"]])
  let params := (← handlerParams) ++ [
    ⟨"decodeRequest", ← f.type .transport "DecodeRequestFunc"⟩,
    ⟨"encodeResponse", ← f.type .transport "EncodeResponseFunc"⟩]
  return ((← method receiver e.contentHandler params []).withComment
    (e.contentHandler ++ " sends object to requester")).withBody body

def descriptorAccessor (s : Service) (receiver : GoType) (data : ServerMetadata) :
    Build Method := do
  let body ← Block.ofSteps [.returnValues [data.descriptorVar, Nat.repr s.index]]
  return ((← method receiver "ServiceDescriptor" []
    [.slice (.primitive .byte), .primitive .int]).withComment
    "ServiceDescriptor describes a service.").withBody body

def versionAccessor (receiver : GoType) (data : ServerMetadata) : Build Method := do
  let body ← Block.ofSteps [.returnValues [goQuoted data.version]]
  let comment :=
    "ProtocGenXServiceVersion returns which xservice version was used to generate that service"
  let m ← method receiver "ProtocGenXServiceVersion" [] [.string]
  return (m.withComment comment).withBody body

def endpointMethods (receiver : GoType) (f : Framework) (cts : List Wire.ContentType)
    (e : Endpoint) : Build (List Method) :=
  return [← dispatcher receiver cts e, ← contentHandler receiver f e]

def methods (s : Service) (receiver : GoType) (f : Framework) (cts : List Wire.ContentType)
    (data : ServerMetadata) : Build (List Method) := do
  let fixed := [← errorWriter receiver, ← handler s receiver]
  let served ← s.endpoints.mapM (endpointMethods receiver f cts)
  let accessors := [← descriptorAccessor s receiver data, ← versionAccessor receiver data]
  return fixed ++ served.flatten ++ accessors

def event (s : Service) : Event :=
  ⟨.debug, "xservice_generator::server", "emitted server",
    [("service", s.name), ("server", s.serverName), ("routes", Nat.repr s.endpoints.length)]⟩

def declarations (s : Service) (f : Framework) (cts : List Wire.ContentType)
    (data : ServerMetadata) : Build (Structure × Function) := do
  let structName := s.serverName
  let receiver := .pointer (← GoType.declared structName)
  let hooks := .pointer (← f.type .hooks "ServerHooks")
  let logError ← f.type .transport "LogErrorFunc"
  let start := (← Structure.new structName).withComment
    (structName ++ " wraps an endpoint and implements http.Handler.")
  let embedded := start.addEmbedded (← GoType.declared s.name)
  let fields ← (← embedded.addField "hooks" hooks).addField "logErrorFunc" logError
  let constructor ← newServer s f structName hooks logError
  let methods ← methods s receiver f cts data
  return (methods.foldl Structure.addMethod fields, constructor)

def build (s : Service) (f : Framework) (cts : List Wire.ContentType) (data : ServerMetadata) :
    Traced ServerStub := do
  let (struct, constructor) ← declarations s f cts data
  Traced.emit (event s)
  return ⟨← pathPrefixConst s, struct, constructor⟩

end ServerStub

end RpcStubs.Stub
