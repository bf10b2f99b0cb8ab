import RpcStubs.Code.Declaration
import RpcStubs.Code.Qualifier

namespace RpcStubs

structure GoFile where
  package : Identifier
  fileName : String
  header : Comment := {}
  imports : ImportSet := ∅
  consts : List Const := []
  vars : List Var := []
  interfaces : List Interface := []
  prototypes : List Prototype := []
  groupedTypes : List Structure := []
  types : List Structure := []
  typesWithMethods : List Structure := []
  funcs : List Declaration := []

namespace GoFile

def builder : String := "File"

def isUsableFileName (name : String) : Bool :=
  !(Text.trim name.toList).isEmpty && name.toList.getLast? != some '/' &&
    name.toList.head? != some '/' && !name.toList.contains '\x00'

def new (package schemaFile : String) : Build GoFile := do
  if package.isEmpty then throw .missingPackage
  let package ← Build.inBuilder builder (Identifier.ofString package)
  if !isUsableFileName schemaFile then throw (.invalidFileName schemaFile)
  return { package, fileName := Name.goFile schemaFile }

def withHeader (f : GoFile) (header : Comment) : GoFile := { f with header }

def addImport (f : GoFile) (i : Import) : GoFile := { f with imports := f.imports.insert i }

def addConst (f : GoFile) (d : Const) : GoFile := { f with consts := f.consts ++ [d] }

def addVar (f : GoFile) (d : Var) : GoFile := { f with vars := f.vars ++ [d] }

def addInterface (f : GoFile) (d : Interface) : GoFile :=
  { f with interfaces := f.interfaces ++ [d] }

def addPrototype (f : GoFile) (d : Prototype) : GoFile :=
  { f with prototypes := f.prototypes ++ [d] }

def addGroupedType (f : GoFile) (d : Structure) : GoFile :=
  { f with groupedTypes := f.groupedTypes ++ [d] }

def addType (f : GoFile) (d : Structure) : GoFile := { f with types := f.types ++ [d] }

def addTypeWithMethods (f : GoFile) (d : Structure) : GoFile :=
  { f with typesWithMethods := f.typesWithMethods ++ [d] }

def addFunc (f : GoFile) (d : Function) : GoFile := { f with funcs := f.funcs ++ [.function d] }

def addClosure (f : GoFile) (d : Closure) : GoFile := { f with funcs := f.funcs ++ [.closure d] }

def add (f : GoFile) : Declaration → GoFile
  | .const d => f.addConst d
  | .var d => f.addVar d
  | .interface d => f.addInterface d
  | .prototype d => f.addPrototype d
  | .structure d => if d.methods.isEmpty then f.addType d else f.addTypeWithMethods d
  | .function d => f.addFunc d
  | .closure d => f.addClosure d

def structures (f : GoFile) : List Structure := f.groupedTypes ++ f.types ++ f.typesWithMethods

def declaredImports (f : GoFile) : ImportSet :=
  f.imports.insertAll <|
    f.consts.flatMap (·.imports.items) ++ f.vars.flatMap (·.imports.items) ++
    f.interfaces.flatMap (·.imports.items) ++ f.prototypes.flatMap (·.imports.items) ++
    f.structures.flatMap (·.imports.items) ++ f.funcs.flatMap (·.imports.items)

/-- The group of types is laid out with the whole file only. -/
def groupSection (f : GoFile) : List String :=
  if f.groupedTypes.isEmpty then []
  else ["type (\n" ++ "\n\n".intercalate (f.groupedTypes.map Structure.groupSource) ++ "\n)"]

def renderWithMethods (s : Structure) : Build (List String) := do
  return (← s.render) :: (← s.renderMethods)

def sections (f : GoFile) : Build (List String) := do
  let consts ← f.consts.mapM Const.render
  let vars ← f.vars.mapM Var.render
  let interfaces ← f.interfaces.mapM Interface.render
  let prototypes ← f.prototypes.mapM Prototype.render
  let types ← f.types.mapM Structure.render
  let typesWithMethods ← f.typesWithMethods.mapM renderWithMethods
  let funcs ← f.funcs.mapM Declaration.render
  return consts ++ vars ++ interfaces ++ prototypes ++ f.groupSection ++ types ++
    typesWithMethods.flatten ++ funcs

def body (f : GoFile) : Build String := do
  return "\n\n".intercalate (← Build.inBuilder builder f.sections)

def assemble (f : GoFile) (imports : ImportSet) (body : String) : String :=
  let block := importBlock imports
  "\n\n".intercalate
    ((if f.header.isEmpty then [] else [f.header.render]) ++ ["package " ++ f.package.name] ++
      (if block.isEmpty then [] else [block]) ++ (if body.isEmpty then [] else [body])) ++ "\n"

def render (f : GoFile) : Build String := do
  return f.assemble f.declaredImports (← f.body)

/-- The file around its body: imports that serve it, all of it laid out. -/
def layOut (f : GoFile) (body : String) : Build String :=
  Build.inBuilder builder
    (Layout.format (f.assemble (resolveImports body f.declaredImports) body))

def finishedEvent (f : GoFile) (imports : ImportSet) (text : String) : Event :=
  ⟨.debug, "xservice_codegen::file", "assembled go file",
    [("file", f.fileName), ("imports", Nat.repr imports.size),
      ("bytes", Nat.repr text.utf8ByteSize)]⟩

def finish (f : GoFile) : Traced String :=
  match f.body with
  | .error failure => ⟨[], .error failure⟩
  | .ok body =>
    let added := importEvents body f.declaredImports
    match f.layOut body with
    | .error failure => ⟨added, .error failure⟩
    | .ok text =>
      ⟨added ++ [f.finishedEvent (resolveImports body f.declaredImports) text], .ok text⟩

end GoFile

end RpcStubs
