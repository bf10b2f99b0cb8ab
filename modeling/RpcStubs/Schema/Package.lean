import RpcStubs.Failure
import RpcStubs.Code.Name
import RpcStubs.Schema.File

namespace RpcStubs.Schema

structure GoPackage where
  importPath : Option String
  name : String
  deriving DecidableEq, Repr

/-- An option without a slash is a bare name. Otherwise it is an import path whose last element
names the package, unless a name follows after a semicolon. -/
def GoPackage.ofOption (option : String) : GoPackage :=
  match Text.cutLast '/' option.toList with
  | none => ⟨none, option⟩
  | some (_, last) =>
    match Text.cutFirst ';' option.toList with
    | some (path, name) => ⟨some (String.ofList path), String.ofList name⟩
    | none => ⟨some option, String.ofList last⟩

namespace File

def goPackage? (f : File) : Option GoPackage :=
  if f.goPackage.isEmpty then none else some (.ofOption f.goPackage)

def importPath? (f : File) : Option String := f.goPackage?.bind (·.importPath)

def implicitName (f : File) : String := if f.package.isEmpty then f.name else f.package

def packageName (f : File) : String × Bool :=
  match f.goPackage? with
  | some option => (option.name, true)
  | none => (f.implicitName, false)

def dependencyName (f : File) : String :=
  match f.goPackage? with
  | some option => Name.sanitize option.name
  | none =>
    Name.sanitize (if f.package.isEmpty then Name.baseName f.name else f.package)

end File

def packageIdent (name : String) : String := Name.sanitize (Name.baseName name)

def explicitNames (files : List File) : List String :=
  files.filterMap fun f ↦ f.goPackage?.map fun option ↦ packageIdent option.name

def agreed (setting : String) : List String → Build (Option String)
  | [] => .ok none
  | first :: rest =>
    match rest.find? (· ≠ first) with
    | some second => .error (.conflictingPackageName setting first second)
    | none => .ok (some first)

def explicitSetting : String := "go_package settings, must be the same"

def implicitSetting : String := "package names, must be the same or overridden with go_package"

/-- The package that all files to generate share. Options win over everything else. -/
def deducePackage (files : List File) : Build String := do
  match ← agreed explicitSetting (explicitNames files) with
  | some name => return name
  | none =>
    match ← agreed implicitSetting (files.map fun f ↦ packageIdent f.implicitName) with
    | some name => return name
    | none => throw (.invariantViolation "no files to deduce a package from")

end RpcStubs.Schema
