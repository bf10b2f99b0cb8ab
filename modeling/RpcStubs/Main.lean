import RpcStubs.Run.Program

namespace RpcStubs.Program

def cause : IO.Error → String
  | .noFileOrDirectory .. => Disk.Fault.missing.message
  | .inappropriateType _ code _ =>
    if code = 20 then Disk.Fault.notDirectory.message else Disk.Fault.isDirectory.message
  | e => toString e

def attempt {α : Type} (action : IO α) : IO (Except String α) := do
  try return .ok (← action) catch e => return .error (cause e)

def succeeds {α : Type} (action : IO α) : IO Bool := return (← attempt action).isOk

def realStorage : Storage IO where
  read path := attempt (do return (← IO.FS.readBinFile path).toList)
  createDirectories path := succeeds (IO.FS.createDirAll path)
  write path data := succeeds (IO.FS.writeBinFile path ⟨data.toArray⟩)

def readInput : IO (List UInt8) := do
  return (← (← IO.getStdin).readBinToEnd).toList

end RpcStubs.Program

open RpcStubs Program

def main (args : List String) : IO UInt32 := do
  let setting ← IO.getEnv Logger.settingName
  let outcome ← Program.run realStorage readInput setting args
  let stdout ← IO.getStdout
  stdout.write ⟨outcome.stdout.bytes.toArray⟩
  stdout.flush
  IO.eprint outcome.stderr
  return outcome.exit.toUInt32
