import RpcStubs.Code.GoType
import RpcStubs.Schema.Package
import RpcStubs.Schema.Registry

namespace RpcStubs.Schema

structure Context where
  files : List File
  toGenerate : List Nat
  package : String
  registry : Registry

namespace Context

def positions (files : List File) : List String → Build (List Nat)
  | [] => .ok []
  | name :: rest =>
    match files.findIdx? (·.name == name) with
    | some i => return i :: (← positions files rest)
    | none => .error (.unknownFile name)

def resolveQuietly (files : List File) (names : List String) : Build Context := do
  let toGenerate ← positions files names
  let package ← deducePackage (toGenerate.filterMap (files[·]?))
  return { files, toGenerate, package, registry := .ofFiles files }

def event (ctx : Context) : Event :=
  ⟨.debug, "xservice_descriptor::resolve", "resolved descriptor set",
    [("package", ctx.package), ("files", Nat.repr ctx.files.length),
      ("generating", Nat.repr ctx.toGenerate.length)]⟩

def resolve (files : List File) (names : List String) : Traced Context := do
  let ctx ← resolveQuietly files names
  Traced.emit ctx.registry.event
  Traced.emit ctx.event
  return ctx

def file (ctx : Context) (i : Nat) : Build File :=
  match ctx.files[i]? with
  | some f => .ok f
  | none => .error (.invariantViolation ("no input file at index " ++ Nat.repr i))

/-- Generated files share one package; every other file has its own. -/
def packageOf? (ctx : Context) (i : Nat) : Option String :=
  ctx.files[i]?.map fun f ↦ if ctx.toGenerate.contains i then ctx.package else f.dependencyName

def importOf? (f : File) (package : String) : Option Import :=
  f.importPath?.map fun path ↦
    if Import.lastElement path = package then .plain path else .aliased path package

def type (ctx : Context) (name : String) : Build GoType := do
  let d ← ctx.registry.message name
  match ctx.files[d.fileIndex]?, ctx.packageOf? d.fileIndex with
  | some f, some package =>
    if package = ctx.package then GoType.declared d.goName
    else GoType.qualified package d.goName (importOf? f package)
  | _, _ => throw (.invariantViolation ("message " ++ name ++ " belongs to an unknown file"))

end Context

end RpcStubs.Schema
