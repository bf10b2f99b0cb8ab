import RpcStubs.Code.File
import RpcStubs.Stub.Client
import RpcStubs.Stub.Config
import RpcStubs.Stub.Descriptor
import RpcStubs.Stub.Header
import RpcStubs.Stub.Server

namespace RpcStubs.Stub

open Schema (Context File)

structure Request where
  files : List File
  filesToGenerate : List String
  parameter : Option String := none

structure GeneratedFile where
  name : String
  content : String
  deriving DecidableEq, Repr

namespace Config

def runtime (c : Config) : Framework := ⟨c.framework⟩

def lastSegment (path : String) : String :=
  String.ofList (Text.afterLast '/' path.toList)

def outputName (c : Config) (f : File) (beside : String) : String :=
  match c.paths, f.importPath? with
  | .importPath, some path => path ++ "/" ++ Name.goFile (lastSegment f.name)
  | _, _ => beside

def addClient (c : Config) (s : Service) (g : GoFile) (ct : Wire.ContentType) : Traced GoFile := do
  let client ← ClientStub.build s c.runtime ct
  return (g.addFunc client.constructor).addTypeWithMethods client.type

def addClients (c : Config) (s : Service) (g : GoFile) : Traced GoFile :=
  if c.mode.emitsClients then c.orderedContentTypes.foldlM (addClient c s) g else return g

def addServer (c : Config) (s : Service) (data : ServerMetadata) (g : GoFile) : Traced GoFile := do
  let server ← ServerStub.build s c.runtime c.orderedContentTypes data
  return ((g.addConst server.pathPrefix).addFunc server.constructor).addTypeWithMethods server.type

def serviceEvent (s : Service) : Event :=
  ⟨.debug, "xservice_generator::generator", "generating service",
    [("service", s.name), ("methods", Nat.repr s.endpoints.length)]⟩

def addService (c : Config) (ctx : Context) (file : Nat) (data : ServerMetadata) (g : GoFile)
    (index : Nat) : Traced GoFile := do
  let s ← Service.resolve ctx file index c.pathPrefix
  Traced.emit (serviceEvent s)
  let withInterface := g.addInterface (← s.interface)
  addServer c s data (← addClients c s withInterface)

variable [Compressor]

def generateFile (c : Config) (ctx : Context) (file position : Nat) : Traced GeneratedFile := do
  let f ← ctx.file file
  let start ← GoFile.new ctx.package f.name
  let header ← fileHeader ctx file (position = 0)
  let framed := c.runtime.imports.foldl GoFile.addImport (start.withHeader header)
  let data := ⟨descriptorName position, version⟩
  let served ← (List.range f.services.length).foldlM (c.addService ctx file data) framed
  let content ← (served.addVar (← descriptorVar f position)).finish
  return ⟨c.outputName f served.fileName, content⟩

def emptyEvent (f : File) : Event :=
  ⟨.warn, "xservice_generator::generator", "file defines no services, nothing generated",
    [("file", f.name)]⟩

def generatedEvent (g : GeneratedFile) : Event :=
  ⟨.info, "xservice_generator::generator", "generated file",
    [("file", g.name), ("bytes", Nat.repr g.content.utf8ByteSize)]⟩

/-- Adds the output for the schema file at a position; without services there is none. -/
def addFile (c : Config) (ctx : Context) (made : List GeneratedFile) (file : Nat) :
    Traced (List GeneratedFile) := do
  let f ← ctx.file file
  if f.services.isEmpty then
    Traced.emit (emptyEvent f)
    return made
  else
    let g ← c.generateFile ctx file made.length
    Traced.emit (generatedEvent g)
    return made ++ [g]

def generate (c : Config) (r : Request) : Traced (List GeneratedFile) := do
  c.validate
  let ctx ← Context.resolve r.files r.filesToGenerate
  ctx.toGenerate.foldlM (c.addFile ctx) []

end Config

namespace Request

def config (load : String → Build Config) (r : Request) : Build Config :=
  match r.parameter with
  | some parameter => Config.ofParameter load parameter
  | none => .ok {}

def generate [Compressor] (load : String → Build Config) (r : Request) :
    Traced (List GeneratedFile) := do
  (← r.config load).generate r

end Request

end RpcStubs.Stub
