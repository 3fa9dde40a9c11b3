/-
# The command

Reads the command line and does what it asks for in the process that it runs
in. Log records go to standard error.
-/
import Offside.Command.Run

namespace Offside

/-- The host that works on the files and standard streams of the process. -/
def Host.process : Host IO where
  read place := do
    try
      match place with
      | some path => return some (← IO.FS.readBinFile (String.ofList path))
      | none => return some (← (← IO.getStdin).readBinToEnd)
    catch _ => return none
  write place t := do
    try
      match place with
      | some path => IO.FS.writeBinFile (String.ofList path) t.bytes
      | none =>
        let out ← IO.getStdout
        out.write t.bytes
        out.flush
      return true
    catch _ => return false
  log rs :=
    for r in rs do
      IO.eprintln s!"[{String.ofList r.level.name}] {String.ofList r.message}"

/-- Does what the options ask for, and tells of a failure. -/
def perform (o : Options) : IO UInt32 := do
  let ending ← o.execute Host.process Registry.standard
  if let some f := ending.failure then IO.eprintln s!"Error: {String.ofList f.message}"
  return ending.status.toUInt32

end Offside

open Offside in
/-- The command. -/
def main (arguments : List String) : IO UInt32 := do
  match Invocation.ofArguments (arguments.map String.toList) with
  | .version => IO.print (String.ofList versionText); return 0
  | .help => IO.print (String.ofList helpText); return 0
  | .misuse => IO.eprintln "error: see --help for the arguments"; return misuseStatus.toUInt32
  | .proceed o => perform o
