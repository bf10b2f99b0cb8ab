import RpcStubs.Log.Event
import RpcStubs.OrderedSet
import RpcStubs.Schema.File
import RpcStubs.Text.Split

namespace RpcStubs.Schema

structure Definition where
  fileIndex : Nat
  name : String
  lineage : List String
  path : Path
  deriving DecidableEq, Repr

def Definition.goName (d : Definition) : String := "_".intercalate (d.lineage ++ [d.name])

mutual

/-- A message's definition comes after those of the messages nested in it. -/
def register (fileIndex : Nat) (scope : String) (lineage : List String) (path : Path) :
    Message → List (String × Definition)
  | ⟨name, nested⟩ =>
    registerAll fileIndex (scope ++ "." ++ name) (lineage ++ [name]) (path ++ [3]) 0 nested ++
      [(scope ++ "." ++ name, ⟨fileIndex, name, lineage, path⟩)]

def registerAll (fileIndex : Nat) (scope : String) (lineage : List String) (path : Path)
    (position : Nat) : List Message → List (String × Definition)
  | [] => []
  | m :: rest =>
    register fileIndex scope lineage (path ++ [(position : Int)]) m ++
      registerAll fileIndex scope lineage path (position + 1) rest

end

def File.scope (f : File) : String := if f.package.isEmpty then "" else "." ++ f.package

structure Registry where
  definitions : List (String × Definition)
  comments : List (List (Path × String))

namespace Registry

def ofFiles (files : List File) : Registry where
  definitions := files.zipIdx.flatMap fun (f, i) ↦ registerAll i f.scope [] [4] 0 f.messages
  comments := files.map (·.comments)

/-- Of two definitions under one name the later counts. -/
def message (r : Registry) (name : String) : Build Definition :=
  match r.definitions.reverse.lookup name with
  | some d => .ok d
  | none => .error (.unknownMessage name)

def messageCount (r : Registry) : Nat :=
  (OrderedSet.ofList (r.definitions.map Prod.fst)).size

def isBlankText (text : String) : Bool := text.toList.all Text.isBlank

def comment (r : Registry) (fileIndex : Nat) (path : Path) : Build String :=
  match (r.comments.getD fileIndex []).reverse.lookup path with
  | some text => if isBlankText text then .error .emptyComment else .ok text
  | none => .error .emptyComment

def fileComment (r : Registry) (fileIndex : Nat) : Build String := r.comment fileIndex [2]

def definitionComment (r : Registry) (d : Definition) : Build String := r.comment d.fileIndex d.path

def serviceComment (r : Registry) (fileIndex service : Nat) : Build String :=
  r.comment fileIndex [6, service]

def methodComment (r : Registry) (fileIndex service method : Nat) : Build String :=
  r.comment fileIndex [6, service, 2, method]

def event (r : Registry) : Event :=
  ⟨.debug, "xservice_descriptor::registry", "built message registry",
    [("files", Nat.repr r.comments.length), ("messages", Nat.repr r.messageCount)]⟩

end Registry

def dropFinalNewline (text : List Char) : List Char :=
  if text.getLast? = some '\n' then text.dropLast else text

/-- A comment as lines, each without one leading space. One final newline does not count. -/
def prepareComment (text : String) : Build (List String) :=
  let body := dropFinalNewline text.toList
  if body.all Text.isBlank then .error .emptyComment
  else .ok ((Text.pieces '\n' body).map fun line ↦ String.ofList (Text.dropLeadingSpace line))

end RpcStubs.Schema
