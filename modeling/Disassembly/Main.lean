import Disassembly.CommandLine.Run
import Disassembly.Sample.Engine

/-!
# The executable

Runs the program over the sample engine, which the loader finds under the names
a library goes by. Lines go to the standard output and log records to the standard error,
in the order in which they come.
-/

namespace Disassembly.CommandLine

/-- The libraries the executable can load: the sample engine. -/
def sampleLoader : Loader := fun path =>
  if libraryNames.contains path then .opened fun _ => none else .unopened "no such library"

/-- Write what an event shows at a verbosity. -/
def showEvent (verbosity : Nat) : Event → IO Unit
  | .line text => IO.println text
  | .log level message =>
    if level.rank ≤ verbosity then IO.eprintln (logText level message) else return ()
  | _ => return ()

/-- Show how an execution went, and give the exit status. -/
def showExecution : Execution → IO UInt32
  | .refused e => do
    IO.eprintln ("error: " ++ e.message)
    return 2
  | .version => do
    IO.println versionLine
    return 0
  | .help => do
    IO.println "Disassemble machine code"
    return 0
  | .ran verbosity result events => do
    for e in events do
      showEvent verbosity e
    match result with
    | .ok () => return 0
    | .error f => do
      IO.eprint f.report
      return 1

end Disassembly.CommandLine

open Disassembly in
def main (args : List String) : IO UInt32 := do
  let surroundings : Surroundings := {
    loader := CommandLine.sampleLoader
    libraryPath := ← IO.getEnv libraryVariable
    executableDir := none }
  let fresh : Sample := {}
  CommandLine.showExecution
    (CommandLine.execute (B := Sample.backend) surroundings ⟨false⟩ args fresh)
