import RpcStubs.Run.Disk
import RpcStubs.Stub.Config

namespace RpcStubs

structure Storage (m : Type → Type) where
  read : String → m (Except String (List UInt8))
  createDirectories : String → m Bool
  write : String → List UInt8 → m Bool

namespace Disk

def storedAs (change : Disk → Except Fault Disk) : StateM Disk Bool := fun d ↦
  match change d with
  | .ok d' => (true, d')
  | .error _ => (false, d)

def storage : Storage (StateM Disk) where
  read path := fun d ↦ ((d.read path).mapError Fault.message, d)
  createDirectories path := storedAs (·.createDirectories path)
  write path data := storedAs (·.write path data)

end Disk

namespace Stub.Config

def ofFile (path : String) (data : Except String (List UInt8)) : Build Config :=
  let unreadable (cause : String) : Build Config :=
    .error (.config ("cannot read " ++ path ++ ": " ++ cause))
  match data with
  | .error cause => unreadable cause
  | .ok bytes =>
    match Text.utf8? bytes with
    | some text => ofToml text
    | none => unreadable "stream did not contain valid UTF-8"

def fileOf? (parameter : String) : Option String :=
  match entries parameter with
  | .ok entries => entries.lookup "config"
  | .error _ => none

def ofDisk (d : Disk) (path : String) : Build Config :=
  ofFile path ((d.read path).mapError Disk.Fault.message)

end Stub.Config

def Storage.loader {m : Type → Type} [Monad m] (st : Storage m) (parameter : Option String) :
    m (String → Build Stub.Config) := do
  match parameter.bind Stub.Config.fileOf? with
  | some path =>
    let data ← st.read path
    return fun path ↦ Stub.Config.ofFile path data
  | none => return fun _ ↦ .ok {}

end RpcStubs
