namespace RpcStubs.Layout

inductive Fault where
  | newlineInLiteral (opened : Nat)
  | openComment (opened : Nat)
  | openLiteral (opened : Nat)
  | mismatched (bracket : Char) (opened : Nat) (found : Char) (line : Nat)
  | unexpected (found : Char) (line : Nat)
  | neverClosed (bracket : Char) (opened : Nat)
  | elseWithoutIf (line : Nat)
  | looseElse (line : Nat)
  | clauseOutsideSwitch (clause : String) (line : Nat)
  deriving DecidableEq, Repr

def showBracket (c : Char) : String := "'" ++ String.singleton c ++ "'"

def Fault.message : Fault → String
  | .newlineInLiteral opened => "newline in literal opened at line " ++ Nat.repr opened
  | .openComment opened => "comment opened at line " ++ Nat.repr opened ++ " is not terminated"
  | .openLiteral opened => "literal opened at line " ++ Nat.repr opened ++ " is not terminated"
  | .mismatched bracket opened found line =>
    "expected closing of " ++ showBracket bracket ++ " from line " ++ Nat.repr opened ++
      ", found " ++ showBracket found ++ " at line " ++ Nat.repr line
  | .unexpected found line => "unexpected " ++ showBracket found ++ " at line " ++ Nat.repr line
  | .neverClosed bracket opened =>
    showBracket bracket ++ " opened at line " ++ Nat.repr opened ++ " is never closed"
  | .elseWithoutIf line => "else without a preceding if at line " ++ Nat.repr line
  | .looseElse line => "else not attached to a closing brace at line " ++ Nat.repr line
  | .clauseOutsideSwitch clause line =>
    clause ++ " outside of a switch at line " ++ Nat.repr line

end RpcStubs.Layout
