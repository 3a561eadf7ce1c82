/-
This file is the command line: it reads a script, runs it and writes what it prints.
-/

import Lox.Command

namespace Lox.Main

/-- The bytes of a file, or the reason why it cannot be read. -/
def readScript (name : String) : IO (Except String ByteArray) := do
  try
    return .ok (← IO.FS.readBinFile name)
  catch error =>
    match error with
    | .noFileOrDirectory .. => return .error Command.missingFile
    | error => return .error (toString error)

/-- The clock of a run stands still at the time when the run starts. -/
def runScript (name : String) (plain : Bool) : IO UInt32 := do
  let contents ← readScript name
  let seconds := Float.ofNat (← IO.monoNanosNow) / 1000000000.0
  let outcome := Command.run Command.ampleFuel (fun _ => seconds) plain name contents
  let stdout ← IO.getStdout
  stdout.write outcome.output
  stdout.flush
  let stderr ← IO.getStderr
  stderr.write outcome.errors
  return outcome.exit.code.toUInt32

end Lox.Main

def main (arguments : List String) : IO UInt32 := do
  match arguments with
  | ["run", name] => Lox.Main.runScript name false
  | ["run", name, "--plain"] | ["run", "--plain", name] => Lox.Main.runScript name true
  | _ =>
      IO.eprintln "usage: lox run SCRIPT [--plain]"
      return 2
