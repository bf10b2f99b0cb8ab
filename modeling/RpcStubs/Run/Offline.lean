import RpcStubs.Run.Plugin
import RpcStubs.Run.Storage

namespace RpcStubs.Offline

open Stub

structure Job where
  descriptorSet : String
  out : String
  /-- Schema files to generate for; none means all. -/
  files : List String := []
  parameter : Option String := none
  deriving DecidableEq, Repr

def filesOf? (bytes : List UInt8) : Option (List Schema.File) :=
  (Proto.decode? Schema.shape .fileSet bytes).map fun set ↦
    (set.messages 1).map Schema.File.ofDescriptor

def Job.request (j : Job) (files : List Schema.File) : Request where
  files := files
  filesToGenerate := if j.files.isEmpty then files.map (·.name) else j.files
  parameter := j.parameter

def outputPath (out name : String) : Except RunFailure String :=
  if FilePath.escapes name then .error (.escapingName name) else .ok (FilePath.join out name)

variable {m : Type → Type} [Monad m]

def writeFile (st : Storage m) (out : String) (g : GeneratedFile) :
    m (Except RunFailure String) := do
  match outputPath out g.name with
  | .error failure => return .error failure
  | .ok path =>
    let dir := FilePath.parent path
    if !(dir.isEmpty || (← st.createDirectories dir)) then return .error (.uncreatedDirectory dir)
    else if ← st.write path (Text.utf8Bytes g.content) then return .ok path
    else return .error (.unwrittenFile path)

structure Written where
  paths : List String := []
  failure : Option RunFailure := none

def writeAll (st : Storage m) (out : String) : List GeneratedFile → m Written
  | [] => return {}
  | g :: rest => do
    match ← writeFile st out g with
    | .error failure => return { failure := some failure }
    | .ok path =>
      let more ← writeAll st out rest
      return { more with paths := path :: more.paths }

def writtenEvent (path : String) : Event :=
  ⟨.info, "protoc_gen_xservice::offline", "wrote generated file", [("path", path)]⟩

def generate [Compressor] (load : String → Build Config) (l : Logger) (j : Job)
    (data : Except String (List UInt8)) : Logger × Except RunFailure (List GeneratedFile) :=
  match data with
  | .error _ => (l, .error (.unreadableSet j.descriptorSet))
  | .ok bytes =>
    match filesOf? bytes with
    | none => (l, .error (.undecodableSet j.descriptorSet))
    | some files =>
      let (l, made) := (j.request files).generateLogged load l
      (l, made.mapError .generation)

def run [Compressor] (st : Storage m) (l : Logger) (j : Job) :
    m (Logger × Except RunFailure (List String)) := do
  let load ← st.loader j.parameter
  match generate load l j (← st.read j.descriptorSet) with
  | (l, .error failure) => return (l, .error failure)
  | (l, .ok files) =>
    let written ← writeAll st j.out files
    let l := l.emitAll (written.paths.map writtenEvent)
    match written.failure with
    | some failure => return (l, .error failure)
    | none => return (l, .ok written.paths)

end RpcStubs.Offline
