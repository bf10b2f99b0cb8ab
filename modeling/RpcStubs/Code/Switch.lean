import RpcStubs.Code.Block

namespace RpcStubs

structure Case where
  values : List String
  body : Block

structure Switch where
  head : String
  cases : List Case := []
  fallback : Option Block := none

namespace Switch

def builder : String := "Switch"

def onValue (subject : String) : Build Switch := do
  checkOperand builder "subject" subject
  return { head := "switch " ++ subject ++ " \x7b" }

def onType (binding subject : String) : Build Switch := do
  Build.inBuilder builder (checkIdentifier binding)
  checkOperand builder "subject" subject
  return { head := "switch " ++ binding ++ " := " ++ subject ++ ".(type) \x7b" }

def checkValues : List String → Build Unit
  | [] => .ok ()
  | v :: rest => do
    checkOperand builder "case value" v
    checkValues rest

def addCase (s : Switch) (values : List String) (body : Block) : Build Switch := do
  if values.isEmpty then throw (.missingField builder "case value")
  checkValues values
  return { s with cases := s.cases ++ [⟨values, body⟩] }

/-- A later default branch replaces an earlier one. -/
def withFallback (s : Switch) (body : Block) : Switch := { s with fallback := some body }

def bodies (s : Switch) : List Block := s.cases.map (·.body) ++ s.fallback.toList

def imports (s : Switch) : ImportSet := .ofList (s.bodies.flatMap (·.imports.items))

def branch (label : String) (body : Block) : List String :=
  if body.isEmpty then [label] else [label, body.source]

def lines (s : Switch) : List String :=
  [s.head] ++
    s.cases.flatMap (fun c ↦ branch ("case " ++ Name.valueList c.values ++ ":") c.body) ++
    s.fallback.toList.flatMap (branch "default:") ++ ["\x7d"]

def source (s : Switch) : String := "\n".intercalate s.lines

def render (s : Switch) : Build String := finish builder s.source

end Switch

end RpcStubs
