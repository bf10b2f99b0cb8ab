import RpcStubs.Run.Offline

namespace RpcStubs

inductive Invocation where
  | plugin
  | offline (job : Offline.Job)
  | help
  | version
  | usageError
  deriving DecidableEq, Repr

namespace CommandLine

inductive Opt where
  | descriptorSet
  | out
  | file
  | parameter
  deriving DecidableEq, Repr

def Opt.ofName? : String → Option Opt
  | "--descriptor-set" => some .descriptorSet
  | "--out" => some .out
  | "--file" => some .file
  | "--parameter" => some .parameter
  | _ => none

structure Given where
  descriptorSet : Option String := none
  out : Option String := none
  files : List String := []
  parameter : Option String := none
  deriving DecidableEq, Repr

def once (old : Option String) (value : String) : Option (Option String) :=
  if old.isSome then none else some (some value)

def nonempty (value : String) : Option String := if value.isEmpty then none else some value

/-- Adds a value. Paths are not empty, and only files are repeated. -/
def Given.add (g : Given) (opt : Opt) (value : String) : Option Given :=
  match opt with
  | .descriptorSet => return { g with descriptorSet := ← once g.descriptorSet (← nonempty value) }
  | .out => return { g with out := ← once g.out (← nonempty value) }
  | .file => some { g with files := g.files ++ [value] }
  | .parameter => return { g with parameter := ← once g.parameter value }

/-- Every option needs the descriptor set and the output directory. -/
def Given.invocation (g : Given) : Invocation :=
  match g.descriptorSet, g.out with
  | some descriptorSet, some out => .offline ⟨descriptorSet, out, g.files, g.parameter⟩
  | none, none => if g.files.isEmpty ∧ g.parameter.isNone then .plugin else .usageError
  | _, _ => .usageError

def isValue (arg : String) : Bool := arg == "-" || arg.toList.head? != some '-'

def attached? (arg : String) : Option (Opt × String) := do
  let (name, value) ← Text.cutFirst '=' arg.toList
  return (← Opt.ofName? (String.ofList name), String.ofList value)

def flag? (arg : String) : Option Invocation :=
  if arg == "--help" ∨ ['-', 'h'].isPrefixOf arg.toList then some .help
  else if arg == "--version" ∨ ['-', 'V'].isPrefixOf arg.toList then some .version
  else none

/-- Reads arguments in turn. Flags act when they are reached. -/
def parseFrom (g : Given) : List String → Invocation
  | [] => g.invocation
  | arg :: rest =>
    if arg == "--" then if rest.isEmpty then g.invocation else .usageError
    else if let some answer := flag? arg then answer
    else if let some opt := Opt.ofName? arg then
      match rest with
      | value :: rest =>
        if isValue value then
          match g.add opt value with
          | some g => parseFrom g rest
          | none => .usageError
        else .usageError
      | [] => .usageError
    else
      match (attached? arg).bind fun (opt, value) ↦ g.add opt value with
      | some g => parseFrom g rest
      | none => .usageError

def parse (args : List String) : Invocation := parseFrom {} args

def programName : String := "protoc-gen-xservice"

def versionText : String := programName ++ " 0.1.0\n"

def optionHelp : List (String × String) := [
  ("    --descriptor-set <FILE>",
    "Serialized FileDescriptorSet to generate from instead of a plugin request"),
  ("    --out <DIR>", "Output directory for generated files"),
  ("    --file <NAME>", "Schema file to generate, repeatable (default: every file of the set)"),
  ("    --parameter <PARAMETER>",
    "Generator options in \x60--xservice_opt\x60 form, e.g. mode=server,log_level=debug"),
  ("-h, --help", "Print help"),
  ("-V, --version", "Print version")]

def columns (rows : List (String × String)) : List String :=
  let width := (rows.map (·.1.length)).foldl max 0
  rows.map fun (left, right) ↦
    "  " ++ left ++ String.ofList (List.replicate (width + 2 - left.length) ' ') ++ right

def helpText : String := "\n".intercalate ([
  "protoc plugin generating Twirp-style Go RPC stubs",
  "",
  "Usage: " ++ programName ++ " [OPTIONS]",
  "",
  "Options:"] ++ columns optionHelp ++ [""])

def usageText : String :=
  "error: invalid arguments\n\nUsage: " ++ programName ++
    " [OPTIONS]\n\nFor more information, try '--help'.\n"

end CommandLine

end RpcStubs
