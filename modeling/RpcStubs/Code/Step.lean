import RpcStubs.Code.FuncLiteral
import RpcStubs.Code.Literal
import RpcStubs.Code.Operator
import RpcStubs.Code.Switch

namespace RpcStubs

/-- A step checks its operands and then contributes lines and imports, which do not depend on the
steps before it. -/
inductive Step where
  | uses (package : Import)
  | call (callee : String) (args : List String)
  | defineCall (targets : List String) (callee : String) (args : List String)
  | assignCall (targets : List String) (callee : String) (args : List String)
  | declareVar (name : String) (type : GoType)
  | newInstance (name : String) (type : GoType)
  | defineOperation (name left : String) (op : Operator) (right : String)
  | typeAssert (targets : List String) (value : String) (type : GoType)
  | assignField (target field value : String)
  | ifBegin (left : String) (op : Operator) (right : String)
  | ifScoped (init left : String) (op : Operator) (right : String)
  | elseIf (left : String) (op : Operator) (right : String)
  | elseBegin
  | close
  | rangeBegin (key value list : String)
  | deferCall (callee : String) (args : List String)
  | ret
  | returnValues (values : List String)
  | returnCall (callee : String) (args : List String)
  | nestedFunc (func : FuncLiteral)
  /-- A deferred function `wrapper` that runs `handler` on a panic and panics again. -/
  | recoverGuard (wrapper : String) (handler : Block)
  | switch (s : Switch)
  | sliceLiteral (literal : SliceLiteral)
  | structLiteral (head : String) (literal : StructLiteral) (byReference : Bool)
  | extend (block : Block)

namespace Step

def builder : String := "Block"

/-- Names the block as the builder, except where a missing field already does. -/
def inBlock {α : Type} (x : Build α) : Build α :=
  x.mapError fun
    | .missingField b f => .missingField b f
    | other => .within builder other

def checkCallee (callee : String) : Build Unit := inBlock (checkSelector builder "function" callee)

def checkOperandOf (field operand : String) : Build Unit :=
  inBlock (checkOperand builder field operand)

def checkArgs : List String → Build Unit
  | [] => .ok ()
  | arg :: rest => do
    checkOperandOf "argument" arg
    checkArgs rest

def checkTargets (targets : List String) : Build Unit :=
  if targets.isEmpty then .error (.missingField builder "variable")
  else inBlock (checkIdentifiers targets)

def line (text : String) : Block := ⟨[text], ∅⟩

def typedLine (text : String) (type : GoType) : Block := ⟨[text], type.imports⟩

def callText (callee : String) (args : List String) : String :=
  callee ++ "(" ++ Name.valueList args ++ ")"

def checkCall (callee : String) (args : List String) : Build Unit := do
  checkCallee callee
  checkArgs args

def checkedCall (callee : String) (args : List String) : Build String := do
  checkCall callee args
  return callText callee args

def callExpr (targets : List String) (callee : String) (args : List String) : Build String := do
  checkTargets targets
  checkCall callee args
  return Name.valueList targets ++ " := " ++ callText callee args

def condition (left : String) (op : Operator) (right : String) : Build String := do
  checkOperandOf "left operand" left
  checkOperandOf "right operand" right
  inBlock op.checkCondition
  return left ++ " " ++ op.symbol ++ " " ++ right

def ifScopedLine (init left : String) (op : Operator) (right : String) : Build String := do
  checkOperandOf "initializer" init
  return "if " ++ init ++ "; " ++ (← condition left op right) ++ " \x7b"

def emit : Step → Build Block
  | .uses package => .ok ⟨[], OrderedSet.empty.insert package⟩
  | .call callee args => return line (← checkedCall callee args)
  | .defineCall targets callee args => return line (← callExpr targets callee args)
  | .assignCall targets callee args => do
    checkTargets targets
    return line (Name.valueList targets ++ " = " ++ (← checkedCall callee args))
  | .declareVar name type => do
    checkTargets [name]
    return typedLine ("var " ++ name ++ " " ++ type.spell) type
  | .newInstance name type => do
    checkTargets [name]
    return typedLine (name ++ " := new(" ++ type.spell ++ ")") type
  | .defineOperation name left op right => do
    checkTargets [name]
    checkOperandOf "left operand" left
    checkOperandOf "right operand" right
    inBlock op.checkBinary
    return line (name ++ " := " ++ left ++ " " ++ op.symbol ++ " " ++ right)
  | .typeAssert targets value type => do
    checkTargets targets
    checkOperandOf "value" value
    return typedLine (Name.valueList targets ++ " := " ++ value ++ ".(" ++ type.spell ++ ")") type
  | .assignField target field value => do
    inBlock (checkSelector builder "struct" target)
    checkTargets [field]
    checkOperandOf "value" value
    return line (target ++ "." ++ field ++ " = " ++ value)
  | .ifBegin left op right => return line ("if " ++ (← condition left op right) ++ " \x7b")
  | .ifScoped init left op right => return line (← ifScopedLine init left op right)
  | .elseIf left op right =>
    return line ("\x7d else if " ++ (← condition left op right) ++ " \x7b")
  | .elseBegin => .ok (line "\x7d else \x7b")
  | .close => .ok (line "\x7d")
  | .rangeBegin key value list => do
    checkTargets [key, value]
    checkOperandOf "range expression" list
    return line ("for " ++ key ++ ", " ++ value ++ " := range " ++ list ++ " \x7b")
  | .deferCall callee args => return line ("defer " ++ (← checkedCall callee args))
  | .ret => .ok (line "return")
  | .returnValues values => do
    if values.isEmpty then throw (.missingField builder "return values")
    checkArgs values
    return line ("return " ++ Name.valueList values)
  | .returnCall callee args => return line ("return " ++ (← checkedCall callee args))
  | .nestedFunc func => .ok ⟨[func.source], func.imports⟩
  | .recoverGuard wrapper handler => do
    checkTargets [wrapper]
    let guard ← ifScopedLine "r := recover()" "r" .notEqual "nil"
    let again ← checkedCall "panic" ["r"]
    let body := line guard ++ handler ++ line again ++ line "\x7d"
    let func := (← FuncLiteral.new wrapper [] []).withBody body
    return ⟨[func.source], func.imports⟩ ++ line ("defer " ++ (← checkedCall wrapper []))
  | .switch s => .ok ⟨[s.source], s.imports⟩
  | .sliceLiteral literal => .ok ⟨[literal.source], literal.imports⟩
  | .structLiteral head literal byReference => do
    if (Text.trim head.toList).isEmpty then throw (.missingField builder "statement")
    let reference := if byReference then "&" else ""
    return ⟨[head ++ " " ++ reference ++ literal.source], literal.imports⟩
  | .extend block => .ok block

end Step

namespace Block

def add (b : Block) (step : Step) : Build Block := return b ++ (← step.emit)

def ofSteps : List Step → Build Block
  | [] => .ok {}
  | step :: rest => do
    let first ← step.emit
    return first ++ (← ofSteps rest)

end Block

end RpcStubs
