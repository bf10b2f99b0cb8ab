import RpcStubs.Code.Identifier
import RpcStubs.Code.Import
import RpcStubs.Code.Layout.Region
import RpcStubs.Log.Event

namespace RpcStubs

open Text

def standardPaths : List String := [
  "bytes", "context", "encoding/json", "errors", "fmt", "io", "log", "net/http", "strconv",
  "strings", "sync", "time"]

def standardImport? (qualifier : String) : Option Import :=
  (standardPaths.map Import.plain).find? (·.qualifier == qualifier)

structure Before where
  last : Option Char := none
  lastButOne : Option Char := none

def Before.push (b : Before) (c : Char) : Before := ⟨some c, b.last⟩

/-- A word right after a single dot is a member, not a qualifier; dots of a variadic are no
selection. -/
def Before.selects (b : Before) : Bool := b.last == some '.' && b.lastButOne != some '.'

/-- Finds words followed by a dot and a further word. `word` is the word being read, last character
first, and `member` tells that it is itself selected from something. -/
def qualifiersFrom (before : Before) (word : List Char) (member : Bool) (found : List String) :
    List Char → List String
  | [] => found.reverse
  | c :: rest =>
    if word.isEmpty then
      if startsWord c then qualifiersFrom (before.push c) [c] before.selects found rest
      else qualifiersFrom (before.push c) [] false found rest
    else if Name.isWordChar c then qualifiersFrom (before.push c) (c :: word) member found rest
    else if c = '.' && rest.head?.any startsWord && !member then
      qualifiersFrom (before.push c) [] false (String.ofList word.reverse :: found) rest
    else qualifiersFrom (before.push c) [] false found rest

def codeOnly (glyphs : List Layout.Glyph) : List Char :=
  glyphs.map fun (c, region) ↦ if region = .code then c else ' '

/-- The words used as qualifiers outside comments and literals. Text that cannot be read uses
none. -/
def usedQualifiers (source : String) : OrderedSet String :=
  match Layout.mark source.toList with
  | .ok glyphs => .ofList (qualifiersFrom {} [] false [] (codeOnly glyphs))
  | .error _ => .empty

def usedImports (used : OrderedSet String) (declared : ImportSet) : ImportSet :=
  declared.filter fun i ↦ used.items.contains i.qualifier

def addedImports (used : OrderedSet String) (kept : ImportSet) : List Import :=
  used.items.filterMap fun q ↦
    if kept.items.any (·.qualifier == q) then none else standardImport? q

def resolveImports (body : String) (declared : ImportSet) : ImportSet :=
  let used := usedQualifiers body
  let kept := usedImports used declared
  kept.insertAll (addedImports used kept)

def importEvents (body : String) (declared : ImportSet) : List Event :=
  let used := usedQualifiers body
  (addedImports used (usedImports used declared)).map fun i ↦
    ⟨.trace, "xservice_codegen::imports", "adding undeclared standard import",
      [("package", quote i.path)]⟩

def importLines (imports : List Import) : String := String.join (imports.map (·.render ++ "\n"))

/-- The import block: standard packages, a blank line, then the others, each by path. -/
def importBlock (imports : ImportSet) : String :=
  if imports.isEmpty then ""
  else
    let (standard, others) := imports.items.partition Import.isStandard
    let gap := if standard.isEmpty || others.isEmpty then "" else "\n"
    "import (\n" ++ importLines standard ++ gap ++ importLines others ++ ")"

end RpcStubs
