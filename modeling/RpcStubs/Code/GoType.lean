import RpcStubs.Code.Identifier
import RpcStubs.Code.Import

namespace RpcStubs

inductive Primitive where
  | bool | string
  | int | int8 | int16 | int32 | int64
  | uint | uint8 | uint16 | uint32 | uint64
  | byte | rune | float32 | float64
  | error | any
  deriving DecidableEq, Repr

namespace Primitive

def all : List Primitive := [
  .bool, .string, .int, .int8, .int16, .int32, .int64, .uint, .uint8, .uint16, .uint32, .uint64,
  .byte, .rune, .float32, .float64, .error, .any]

def name : Primitive → String
  | .bool => "bool"
  | .string => "string"
  | .int => "int"
  | .int8 => "int8"
  | .int16 => "int16"
  | .int32 => "int32"
  | .int64 => "int64"
  | .uint => "uint"
  | .uint8 => "uint8"
  | .uint16 => "uint16"
  | .uint32 => "uint32"
  | .uint64 => "uint64"
  | .byte => "byte"
  | .rune => "rune"
  | .float32 => "float32"
  | .float64 => "float64"
  | .error => "error"
  | .any => "any"

def ofName? (s : String) : Option Primitive := all.find? (·.name == s)

end Primitive

inductive GoType where
  | primitive (p : Primitive)
  | named (name : String) (package : Option String) (origin : Option Import)
  | pointer (element : GoType)
  | slice (element : GoType)
  | array (length : Nat) (element : GoType)
  | map (key value : GoType)
  | func (params results : List GoType)
  | variadic (element : GoType)
  deriving Repr, BEq, Inhabited

namespace GoType

/-- Where a type name must be a word it may still be a keyword. -/
def checkTypeName (s : String) : Build Unit :=
  if isWord s.toList then .ok ()
  else .error (.invariantViolation ("cannot build a type reference from " ++ Text.quote s))

def ofPrimitiveName (s : String) : Build GoType :=
  match Primitive.ofName? s with
  | some p => .ok (.primitive p)
  | none => .error (.invariantViolation ("unknown primitive type " ++ Text.quote s))

def declared (name : String) : Build GoType := do
  checkTypeName name
  return .named name none none

def qualified (package name : String) (origin : Option Import) : Build GoType := do
  checkTypeName package
  checkTypeName name
  return .named name (some package) origin

def imported (origin : Import) (name : String) : Build GoType :=
  qualified origin.qualifier name (some origin)

def string : GoType := .primitive .string

def error : GoType := .primitive .error

inductive Kind where
  | primitive | pointer | slice | array | map | named | func | variadic
  deriving DecidableEq, Repr

def kind : GoType → Kind
  | .primitive _ => .primitive
  | .named .. => .named
  | .pointer _ => .pointer
  | .slice _ => .slice
  | .array .. => .array
  | .map .. => .map
  | .func .. => .func
  | .variadic _ => .variadic

/-- Results are left out when there are none and bare when there is one; several, or a function
type, stand in parentheses. -/
def joinResults (results : List GoType) (names : List String) : String :=
  match results with
  | [] => ""
  | [single] =>
    if single.kind = .func then "(" ++ Name.valueList names ++ ")" else Name.valueList names
  | _ => "(" ++ Name.valueList names ++ ")"

def withResults (head results : String) : String :=
  if results.isEmpty then head else head ++ " " ++ results

mutual

def spell : GoType → String
  | .primitive p => p.name
  | .named name none _ => name
  | .named name (some package) _ => package ++ "." ++ name
  | .pointer element => "*" ++ spell element
  | .slice element => "[]" ++ spell element
  | .array length element => "[" ++ Nat.repr length ++ "]" ++ spell element
  | .map key value => "map[" ++ spell key ++ "]" ++ spell value
  | .func params results =>
    withResults ("func(" ++ Name.valueList (spellAll params) ++ ")")
      (joinResults results (spellAll results))
  | .variadic element => "..." ++ spell element

def spellAll : List GoType → List String
  | [] => []
  | t :: rest => spell t :: spellAll rest

end

def resultList (results : List GoType) : String := joinResults results (spellAll results)

mutual

def origins : GoType → List Import
  | .primitive _ => []
  | .named _ _ origin => origin.toList
  | .pointer element | .slice element | .array _ element | .variadic element => origins element
  | .map key value => origins key ++ origins value
  | .func params results => originsAll params ++ originsAll results

def originsAll : List GoType → List Import
  | [] => []
  | t :: rest => origins t ++ originsAll rest

end

def imports (t : GoType) : ImportSet := .ofList t.origins

mutual

/-- The type as seen from inside `home`: types declared there lose qualifier and import. -/
def localize (home : String) : GoType → GoType
  | .primitive p => .primitive p
  | .named name package origin =>
    if package = some home then .named name none none else .named name package origin
  | .pointer element => .pointer (localize home element)
  | .slice element => .slice (localize home element)
  | .array length element => .array length (localize home element)
  | .map key value => .map (localize home key) (localize home value)
  | .func params results => .func (localizeAll home params) (localizeAll home results)
  | .variadic element => .variadic (localize home element)

def localizeAll (home : String) : List GoType → List GoType
  | [] => []
  | t :: rest => localize home t :: localizeAll home rest

end

end GoType

structure Parameter where
  name : String
  type : GoType
  deriving Repr, Inhabited

namespace Parameter

def check (p : Parameter) : Build Unit :=
  if p.name.isEmpty then .error (.missingField "Parameter" "name of parameter")
  else if p.type.spell.isEmpty then .error (.missingField "Parameter" "value of parameter")
  else checkIdentifier p.name

def checkAll : List Parameter → Build Unit
  | [] => .ok ()
  | p :: rest => do
    p.check
    checkAll rest

def render (p : Parameter) : String := p.name ++ " " ++ p.type.spell

def list (params : List Parameter) : String := Name.valueList (params.map render)

end Parameter

def signature (params : List Parameter) (results : List GoType) : String :=
  GoType.withResults ("(" ++ Parameter.list params ++ ")") (GoType.resultList results)

def signatureImports (params : List Parameter) (results : List GoType) : ImportSet :=
  .ofList (GoType.originsAll (params.map (·.type)) ++ GoType.originsAll results)

end RpcStubs
