import RpcStubs.Code.GoType
import RpcStubs.Code.Layout

namespace RpcStubs

structure Block where
  lines : List String := []
  imports : ImportSet := ∅

namespace Block

instance : Inhabited Block := ⟨{}⟩

def append (a b : Block) : Block := ⟨a.lines ++ b.lines, a.imports ∪ b.imports⟩

instance : Append Block := ⟨append⟩

def isEmpty (b : Block) : Bool := b.lines.isEmpty

def source (b : Block) : String := "\n".intercalate b.lines

end Block

def braced (head body : String) : String :=
  if body.isEmpty then head ++ " \x7b\n\x7d" else head ++ " \x7b\n" ++ body ++ "\n\x7d"

def finish (builder source : String) : Build String :=
  Build.inBuilder builder (Layout.formatFragment source)

end RpcStubs
