import RpcStubs.Failure

namespace RpcStubs

inductive Operator where
  | logicalOr | logicalAnd
  | equal | notEqual | less | lessEqual | greater | greaterEqual
  | add | sub | or | xor
  | mul | quo | rem | shl | shr | and | andNot
  | assign | define | not | arrow
  deriving DecidableEq, Repr

namespace Operator

def all : List Operator := [
  .logicalOr, .logicalAnd, .equal, .notEqual, .less, .lessEqual, .greater, .greaterEqual, .add,
  .sub, .or, .xor, .mul, .quo, .rem, .shl, .shr, .and, .andNot, .assign, .define, .not, .arrow]

def symbol : Operator → String
  | .logicalOr => "||"
  | .logicalAnd => "&&"
  | .equal => "=="
  | .notEqual => "!="
  | .less => "<"
  | .lessEqual => "<="
  | .greater => ">"
  | .greaterEqual => ">="
  | .add => "+"
  | .sub => "-"
  | .or => "|"
  | .xor => "^"
  | .mul => "*"
  | .quo => "/"
  | .rem => "%"
  | .shl => "<<"
  | .shr => ">>"
  | .and => "&"
  | .andNot => "&^"
  | .assign => "="
  | .define => ":="
  | .not => "!"
  | .arrow => "<-"

def ofSymbol? (s : String) : Option Operator := all.find? (·.symbol == s)

def precedence : Operator → Nat
  | .logicalOr => 1
  | .logicalAnd => 2
  | .equal | .notEqual | .less | .lessEqual | .greater | .greaterEqual => 3
  | .add | .sub | .or | .xor => 4
  | .mul | .quo | .rem | .shl | .shr | .and | .andNot => 5
  | .assign | .define | .not | .arrow => 0

def checkCondition (op : Operator) : Build Unit :=
  if 1 ≤ op.precedence ∧ op.precedence ≤ 3 then .ok () else .error (.invalidOperator op.symbol "if")

def checkBinary (op : Operator) : Build Unit :=
  if 0 < op.precedence then .ok () else .error (.invalidOperator op.symbol "operation")

end Operator

end RpcStubs
