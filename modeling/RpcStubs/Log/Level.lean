import RpcStubs.Text.Blank

namespace RpcStubs

inductive LogLevel where
  | trace
  | debug
  | info
  | warn
  | error
  | off
  deriving DecidableEq, Repr

namespace LogLevel

def rank : LogLevel → Nat
  | .trace => 0
  | .debug => 1
  | .info => 2
  | .warn => 3
  | .error => 4
  | .off => 5

def name : LogLevel → String
  | .trace => "TRACE"
  | .debug => "DEBUG"
  | .info => "INFO"
  | .warn => "WARN"
  | .error => "ERROR"
  | .off => "OFF"

/-- The level of a name in any case of ASCII letters, with blanks around it. -/
def ofName? (s : String) : Option LogLevel :=
  match String.ofList ((Text.trim s.toList).map Char.toLower) with
  | "trace" => some .trace
  | "debug" => some .debug
  | "info" => some .info
  | "warn" | "warning" => some .warn
  | "error" => some .error
  | "off" => some .off
  | _ => none

def admits (threshold level : LogLevel) : Bool :=
  threshold.rank ≤ level.rank && level ≠ .off

end LogLevel

end RpcStubs
