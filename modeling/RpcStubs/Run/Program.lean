import RpcStubs.Gzip
import RpcStubs.Run.CommandLine

namespace RpcStubs.Program

inductive Output where
  | text (s : String)
  | response (r : Plugin.Response)
  deriving DecidableEq, Repr

def Output.bytes : Output → List UInt8
  | .text s => Text.utf8Bytes s
  | .response r => r.encode

structure Outcome where
  exit : Nat := 0
  stdout : Output := .text ""
  stderr : String := ""
  deriving DecidableEq, Repr

def finished (l : Logger) : Except RunFailure Output → Outcome
  | .ok stdout => { stdout, stderr := l.text }
  | .error failure => { exit := 1, stderr := l.text ++ "Error: " ++ failure.message ++ "\n" }

def pathLines (paths : List String) : String :=
  String.join (paths.map fun path ↦ "Wrote " ++ path ++ "\n")

variable {m : Type → Type} [Monad m]

/-- Runs the program with the arguments and the log setting; the input is read only by a plugin. -/
def run (st : Storage m) (input : m (List UInt8)) (setting : Option String) (args : List String) :
    m Outcome := do
  let l := Logger.start .warn (FilterSetting.parse setting)
  match CommandLine.parse args with
  | .usageError => return { exit := 2, stderr := CommandLine.usageText }
  | .help => return { stdout := .text CommandLine.helpText }
  | .version => return { stdout := .text CommandLine.versionText }
  | .plugin =>
    let bytes ← input
    let load ← st.loader (Plugin.parameter? bytes)
    let (l, response) := Plugin.run load l bytes
    return finished l (response.map .response)
  | .offline job =>
    let (l, paths) ← Offline.run st l job
    return finished l (paths.map fun paths ↦ .text (pathLines paths))

end RpcStubs.Program
