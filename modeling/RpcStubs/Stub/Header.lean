import RpcStubs.Code.Comment
import RpcStubs.Stub.Service

namespace RpcStubs.Stub

open Schema (Context)

def version : String := "v0.1.0"

/-- Keeps the end of a block comment apart. -/
def breakCommentEnd : List Char → List Char
  | '*' :: '/' :: rest => '*' :: ' ' :: '/' :: breakCommentEnd rest
  | c :: rest => c :: breakCommentEnd rest
  | [] => []

namespace Header

def banner (name : String) : List String :=
  ["Code generated by protoc-gen-xservice " ++ version ++ ", DO NOT EDIT.", "source: " ++ name]

def packageIntroduction (package : String) : List String := [
  "",
  "Package " ++ package ++ " is a generated stub package.",
  "This code was generated with github.com/donutloop/xservice " ++ version]

def packageComment : Option (List String) → List String
  | some lines => "" :: lines.map fun line ↦ String.ofList (breakCommentEnd line.toList)
  | none => []

def sourceList (names : List String) : List String :=
  ["", "It is generated from these files:"] ++ names.map ("\t" ++ ·)

def packageLines (ctx : Context) (file : Nat) : Build (List String) := do
  let comment ← commentLines (ctx.registry.fileComment file)
  let sources ← ctx.toGenerate.mapM ctx.file
  return packageIntroduction ctx.package ++ packageComment comment ++
    sourceList (sources.map (·.name))

end Header

def fileHeader (ctx : Context) (file : Nat) (first : Bool) : Build Comment := do
  let f ← ctx.file file
  let documentation ← if first then Header.packageLines ctx file else pure []
  return .ofLines (Header.banner f.name ++ documentation)

end RpcStubs.Stub
