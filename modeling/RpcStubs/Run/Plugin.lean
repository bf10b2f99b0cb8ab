import RpcStubs.Log.Logger
import RpcStubs.Run.Failure
import RpcStubs.Stub.Generate

namespace RpcStubs

open Stub Proto

def Stub.Request.generateLogged [Compressor] (load : String → Build Config) (l : Logger)
    (r : Request) :
    Logger × Build (List GeneratedFile) :=
  match r.config load with
  | .error failure => (l, .error failure)
  | .ok c =>
    let run := c.generate r
    ((l.applyLevel c.level).emitAll run.events, run.result)

namespace Plugin

structure Response where
  error : Option String := none
  files : List GeneratedFile := []
  deriving DecidableEq, Repr

/-- Optional fields of schemas are understood. -/
def supportedFeatures : Nat := 1

def fileFields (g : GeneratedFile) : Fields := [(1, .text g.name), (15, .text g.content)]

def Response.encode (r : Response) : List UInt8 :=
  encodeFields ((r.error.toList.map fun text ↦ (1, .text text)) ++
    [(2, .int supportedFeatures)] ++ r.files.map fun g ↦ (15, .message (fileFields g)))

def optionText {α : Type} (show' : α → String) : Option α → String
  | some a => "Some(" ++ show' a ++ ")"
  | none => "None"

def numberText (n : Nat) : String := Int.repr (signed n)

def versionText (v : Fields) : String :=
  "Version \x7b major: " ++ optionText numberText (v.int? 1) ++
    ", minor: " ++ optionText numberText (v.int? 2) ++
    ", patch: " ++ optionText numberText (v.int? 3) ++
    ", suffix: " ++ optionText Text.quote (v.text? 4) ++ " \x7d"

def requestEvent (request : Fields) : Event :=
  ⟨.debug, "protoc_gen_xservice::plugin", "received plugin request",
    [("files", Nat.repr (request.texts 1).length),
      ("compiler", optionText versionText (request.message? 3))]⟩

def failureEvent (f : Failure) : Event :=
  ⟨.error, "protoc_gen_xservice::plugin", "generation failed",
    [("code", Nat.repr f.code), ("error", f.message)]⟩

def requestOf (request : Fields) : Request where
  files := (request.messages 15).map Schema.File.ofDescriptor
  filesToGenerate := request.texts 1
  parameter := request.text? 2

def decode? (bytes : List UInt8) : Option Fields := Proto.decode? Schema.shape .pluginRequest bytes

def parameter? (bytes : List UInt8) : Option String := (decode? bytes).bind (·.text? 2)

def respond [Compressor] (load : String → Build Config) (l : Logger) (request : Fields) :
    Logger × Response :=
  match (requestOf request).generateLogged load (l.emit (requestEvent request)) with
  | (l, .ok files) => (l, { files })
  | (l, .error f) => (l.emit (failureEvent f), { error := some f.message })

def run [Compressor] (load : String → Build Config) (l : Logger) (bytes : List UInt8) :
    Logger × Except RunFailure Response :=
  match decode? bytes with
  | none => (l, .error .undecodableRequest)
  | some request =>
    if (request.texts 1).isEmpty then (l, .error .nothingToGenerate)
    else
      let (l, response) := respond load l request
      (l, .ok response)

end Plugin

end RpcStubs
