import StackCompiler.CommandLine.Run

/-!
# The command

Connects the compiler to the files and streams of the system.
-/

namespace StackCompiler.CommandLine

/-- The reason for which an operation of the system failed. -/
def reasonOf : IO.Error → String
  | .noFileOrDirectory _ code details => s!"{details} (os error {code})"
  | .inappropriateType _ code details => s!"{details} (os error {code})"
  | .permissionDenied _ code details => s!"{details} (os error {code})"
  | other => toString other

/-- Does something that can fail, and tells the reason if it does. -/
def attempt {α : Type} (action : IO α) : IO (Except String α) := do
  match ← action.toBaseIO with
  | .ok result => return .ok result
  | .error error => return .error (reasonOf error)

/-- The files and streams of the system. -/
def systemHost : Host IO where
  readFile path := attempt do (← IO.FS.Handle.mk path .read).readBinToEnd
  readInput := attempt do (← IO.getStdin).readBinToEnd
  writeFile path content := attempt (IO.FS.writeBinFile path content.toUTF8)
  writeOutput text := do (← IO.getStdout).putStr text
  writeErrors text := do (← IO.getStderr).putStr text

end StackCompiler.CommandLine

/-- Does what the arguments ask for. -/
def main (arguments : List String) : IO UInt32 := do
  let status ← StackCompiler.CommandLine.execute
    StackCompiler.CommandLine.systemHost arguments
  return status.code.toUInt32
