import RpcStubs.Text.Blank
import RpcStubs.Text.Split

namespace RpcStubs

open Text

def wordsPerLine : Nat := 15

/-- Free text as lines of at most fifteen words; its own line breaks do not count. -/
def wrapWords (text : String) : List String :=
  (chunks wordsPerLine (words text.toList)).map fun group ↦
    " ".intercalate (group.map String.ofList)

structure Comment where
  lines : List String := []
  deriving DecidableEq, Repr, Inhabited

namespace Comment

def ofLines (lines : List String) : Comment :=
  ⟨lines.map fun line ↦ String.ofList (trimEnd line.toList)⟩

/-- One comment line per line of text, each without one leading space. -/
def ofText (text : String) : Comment :=
  ofLines ((Text.lines text.toList).map fun line ↦ String.ofList (dropLeadingSpace line))

def wrapped (text : String) : Comment := ⟨wrapWords text⟩

def isEmpty (c : Comment) : Bool := c.lines.isEmpty

def renderLine (line : String) : String := if line.isEmpty then "//" else "// " ++ line

def render (c : Comment) : String := "\n".intercalate (c.lines.map renderLine)

def above (c : Comment) : String := if c.isEmpty then "" else c.render ++ "\n"

end Comment

end RpcStubs
