import Reckoner.CommandLine.Outcome

/-!
# The program

Reads the file that a command line names, if it names one, and writes out what comes of it.
-/

namespace Reckoner.CommandLine

/-- The number that the system gives for an error; it may come with its sign turned. -/
def systemCode : IO.Error → Nat
  | .noFileOrDirectory _ code _ | .permissionDenied _ code _ | .inappropriateType _ code _
  | .invalidArgument _ code _ | .resourceExhausted _ code _ => code.toInt32.toInt.natAbs
  | .hardwareFault code _ | .otherError code _ => code.toInt32.toInt.natAbs
  | _ => 0

/-- The file with the given name. -/
def readFile (name : String) : IO File := do
  try return .bytes (← IO.FS.readBinFile name)
  catch e => return .unreadable (systemCode e)

/-- The file that a command line names. -/
def namedFile (args : List String) : IO File :=
  match Request.ofArgs args with
  | .ok (.job ⟨.file name, _, _⟩) => readFile name
  | _ => return .unreadable 0

end Reckoner.CommandLine

open Reckoner.CommandLine in
/-- Takes one command line. -/
def main (args : List String) : IO UInt32 := do
  let file ← namedFile args
  let o := outcome (fun _ => file) (← IO.getEnv "TALLY_LOG") args
  (← IO.getStdout).putStr o.stdout
  (← IO.getStderr).putStr o.stderr
  return o.code.toUInt32
