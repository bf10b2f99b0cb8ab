import RpcStubs.Code.Declaration
import RpcStubs.Schema.File

namespace RpcStubs.Stub

open Schema (File)

def descriptorName (position : Nat) : String := "xserviceFileDescriptor" ++ Nat.repr position

/-- Compression of descriptors. Whoever runs the program brings a compressor along, and the stubs do
not depend on what it makes of its input. -/
class Compressor where
  compress : List UInt8 → List UInt8

variable [Compressor]

def compressedDescriptor (f : File) : List UInt8 :=
  Compressor.compress (Proto.encodeFields f.descriptor)

def descriptorVar (f : File) (position : Nat) : Build Var := do
  let data := compressedDescriptor f
  let comment := Nat.repr data.length ++ " bytes of a gzipped FileDescriptorProto"
  return (← Var.bytes (descriptorName position) data).withComment (.ofLines [comment])

end RpcStubs.Stub
