import RpcStubs.Code.GoType
import RpcStubs.Wire.ContentType

namespace RpcStubs.Stub

inductive Package where
  | transport
  | xcontext
  | errors
  | hooks
  | server
  | xhttp
  deriving DecidableEq, Repr

namespace Package

def all : List Package := [.transport, .xcontext, .errors, .hooks, .server, .xhttp]

def name : Package → String
  | .transport => "transport"
  | .xcontext => "xcontext"
  | .errors => "errors"
  | .hooks => "hooks"
  | .server => "server"
  | .xhttp => "xhttp"

end Package

structure Binding where
  decoder : String
  encoder : String
  request : String

def binding : Wire.ContentType → Binding
  | .json =>
    ⟨"transport.DecodeJSONRequest", "transport.EncodeJSONResponse", "transport.DoJSONRequest"⟩
  | .protobuf =>
    ⟨"transport.DecodePROTORequest", "transport.EncodePROTOResponse",
      "transport.DoProtobufferRequest"⟩

structure Framework where
  root : String
  deriving DecidableEq, Repr

namespace Framework

def importOf (f : Framework) (p : Package) : Import := .plain (f.root ++ "/" ++ p.name)

def imports (f : Framework) : List Import := Package.all.map f.importOf

def type (f : Framework) (p : Package) (name : String) : Build GoType :=
  GoType.imported (f.importOf p) name

end Framework

def contextType : Build GoType := GoType.imported (.plain "context") "Context"

def responseWriter : Build GoType := GoType.imported (.plain "net/http") "ResponseWriter"

def requestPointer : Build GoType :=
  return .pointer (← GoType.imported (.plain "net/http") "Request")

def httpClientPointer : Build GoType :=
  return .pointer (← GoType.imported (.plain "net/http") "Client")

end RpcStubs.Stub
