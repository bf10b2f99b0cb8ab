import RpcStubs.Code.Declaration
import RpcStubs.Code.Step

namespace RpcStubs

/-- A call on a builder. A failure does not undo what the call has changed. -/
abbrev Edit (σ : Type) := ExceptT Failure (StateM σ)

namespace Edit

variable {σ α : Type}

def check (x : Build α) : Edit σ α := ExceptT.mk (pure x)

def outcome (x : Edit σ Unit) (s : σ) : Build Unit × σ := x.run.run s

def build (x : Edit σ Unit) (start : σ) : Build σ :=
  match x.outcome start with
  | (.ok (), s) => .ok s
  | (.error failure, _) => .error failure

end Edit

namespace Block

def push (line : String) : Edit Block Unit := modify fun b ↦ { b with lines := b.lines ++ [line] }

def record (packages : ImportSet) : Edit Block Unit :=
  modify fun b ↦ { b with imports := b.imports ∪ packages }

def pushTyped (line : String) (type : GoType) : Edit Block Unit := do
  record type.imports
  push line

def pushCall (head callee : String) (args : List String) : Edit Block Unit := do
  Edit.check (Step.checkCallee callee)
  Edit.check (Step.checkArgs args)
  push (head ++ Step.callText callee args)

def pushIfScoped (init left : String) (op : Operator) (right : String) : Edit Block Unit := do
  Edit.check (Step.checkOperandOf "initializer" init)
  let condition ← Edit.check (Step.condition left op right)
  push ("if " ++ init ++ "; " ++ condition ++ " \x7b")

def pushAll (other : Block) : Edit Block Unit := do
  modify fun b ↦ { b with lines := b.lines ++ other.lines }
  record other.imports

def pushFunc (func : FuncLiteral) : Edit Block Unit := do
  record func.imports
  push func.source

def guardBody (handler : Block) : Build Block :=
  Edit.build (do
    pushIfScoped "r := recover()" "r" .notEqual "nil"
    pushAll handler
    pushCall "" "panic" ["r"]
    push "\x7d") {}

def pushGuard (wrapper : String) (handler : Block) : Edit Block Unit := do
  Edit.check (Step.checkTargets [wrapper])
  let body ← Edit.check (guardBody handler)
  let func ← Edit.check (FuncLiteral.new wrapper [] [])
  pushFunc (func.withBody body)
  pushCall "defer " wrapper []

end Block

namespace Step

open Block Edit

def perform : Step → Edit Block Unit
  | .uses package => modify fun b ↦ { b with imports := b.imports.insert package }
  | .call callee args => pushCall "" callee args
  | .defineCall targets callee args => do push (← check (callExpr targets callee args))
  | .assignCall targets callee args => do
    check (checkTargets targets)
    pushCall (Name.valueList targets ++ " = ") callee args
  | .declareVar name type => do
    check (checkTargets [name])
    pushTyped ("var " ++ name ++ " " ++ type.spell) type
  | .newInstance name type => do
    check (checkTargets [name])
    pushTyped (name ++ " := new(" ++ type.spell ++ ")") type
  | .defineOperation name left op right => do
    check (checkTargets [name])
    check (checkOperandOf "left operand" left)
    check (checkOperandOf "right operand" right)
    check (inBlock op.checkBinary)
    push (name ++ " := " ++ left ++ " " ++ op.symbol ++ " " ++ right)
  | .typeAssert targets value type => do
    check (checkTargets targets)
    check (checkOperandOf "value" value)
    pushTyped (Name.valueList targets ++ " := " ++ value ++ ".(" ++ type.spell ++ ")") type
  | .assignField target field value => do
    check (inBlock (checkSelector builder "struct" target))
    check (checkTargets [field])
    check (checkOperandOf "value" value)
    push (target ++ "." ++ field ++ " = " ++ value)
  | .ifBegin left op right => do
    let condition ← check (condition left op right)
    push ("if " ++ condition ++ " \x7b")
  | .ifScoped init left op right => pushIfScoped init left op right
  | .elseIf left op right => do
    let condition ← check (condition left op right)
    push ("\x7d else if " ++ condition ++ " \x7b")
  | .elseBegin => push "\x7d else \x7b"
  | .close => push "\x7d"
  | .rangeBegin key value list => do
    check (checkTargets [key, value])
    check (checkOperandOf "range expression" list)
    push ("for " ++ key ++ ", " ++ value ++ " := range " ++ list ++ " \x7b")
  | .deferCall callee args => pushCall "defer " callee args
  | .ret => push "return"
  | .returnValues values => do
    if values.isEmpty then throw (.missingField builder "return values")
    check (checkArgs values)
    push ("return " ++ Name.valueList values)
  | .returnCall callee args => pushCall "return " callee args
  | .nestedFunc func => pushFunc func
  | .recoverGuard wrapper handler => pushGuard wrapper handler
  | .switch s => do
    record s.imports
    push s.source
  | .sliceLiteral literal => do
    record literal.imports
    push literal.source
  | .structLiteral head literal byReference => do
    if (Text.trim head.toList).isEmpty then throw (.missingField builder "statement")
    record literal.imports
    push (head ++ " " ++ (if byReference then "&" else "") ++ literal.source)
  | .extend block => pushAll block

end Step

/-- The calls that can fail on a builder in the making. -/
inductive Mutation : Type → Type where
  | statement (step : Step) : Mutation Block
  | element (value : String) : Mutation SliceLiteral
  | fieldValue (name value : String) : Mutation StructLiteral
  | case (values : List String) (body : Block) : Mutation Switch
  | method (name : String) (params : List Parameter) (results : List GoType) (comment : String) :
    Mutation Interface
  | field (name : String) (type : GoType) : Mutation Structure
  | commentedField (name : String) (type : GoType) (comment : String) : Mutation Structure
  | taggedField (name : String) (type : GoType) (tag : String) : Mutation Structure

namespace Mutation

open Edit

def pushField (name : String) (type : GoType) (tag : Option String) (comment : String) :
    Edit Structure Unit := do
  let name ← check (Build.inBuilder Structure.builder (Identifier.ofString name))
  modify fun s ↦ { s with fields := s.fields ++ [⟨some name, type, tag, .wrapped comment⟩] }

def perform {σ : Type} : Mutation σ → Edit σ Unit
  | .statement step => step.perform
  | .element value => do
    check (checkOperand SliceLiteral.builder "value" value)
    modify fun l ↦ { l with values := l.values ++ [value] }
  | .fieldValue name value => do
    if name.isEmpty then throw (.missingField StructLiteral.builder "field name")
    check (Build.inBuilder StructLiteral.builder (checkIdentifier name))
    check (checkOperand StructLiteral.builder "field value" value)
    modify fun l ↦ { l with fields := l.fields ++ [(name, value)] }
  | .case values body => do
    if values.isEmpty then throw (.missingField Switch.builder "case value")
    check (Switch.checkValues values)
    modify fun s ↦ { s with cases := s.cases ++ [⟨values, body⟩] }
  | .method name params results comment => do
    check (Build.inBuilder Interface.builder (Parameter.checkAll params))
    let name ← check (Build.inBuilder Interface.builder (Identifier.exported name))
    modify fun i ↦ { i with methods := i.methods ++ [⟨name, params, results, .wrapped comment⟩] }
  | .field name type => pushField name type none ""
  | .commentedField name type comment => pushField name type none comment
  | .taggedField name type tag => pushField name type (some tag) ""

end Mutation

end RpcStubs
