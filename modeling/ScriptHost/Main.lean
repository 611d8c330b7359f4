import ScriptHost.CommandLine.Run
import ScriptHost.CommandLine.Snapshot

/-!
# The program

Runs a command on the snapshot of a disk that standard input holds.
-/

namespace ScriptHost.Main

/-- All that is left of a stream. -/
partial def readAll (stream : IO.FS.Stream) (done : String) : IO String := do
  let line ← stream.getLine
  if line.isEmpty then return done
  readAll stream (done ++ line)

end ScriptHost.Main

open ScriptHost ScriptHost.CommandLine in
def main (arguments : List String) : IO UInt32 := do
  let output ← IO.getStdout
  let errors ← IO.getStderr
  match Snapshot.parse? (← ScriptHost.Main.readAll (← IO.getStdin) "") with
  | none =>
    errors.putStrLn "Error: standard input holds no snapshot"
    return 1
  | some snapshot =>
    let outcome := run snapshot.directory snapshot.disk arguments
    output.putStr outcome.output
    match outcome.failure with
    | some failure => errors.putStrLn ("Error: " ++ failure.message)
    | none => if outcome.exitCode ≠ 0 then errors.putStr usage
    return UInt32.ofNat outcome.exitCode
