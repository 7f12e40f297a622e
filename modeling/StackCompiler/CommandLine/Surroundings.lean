import StackCompiler.CommandLine.FileTree
import StackCompiler.CommandLine.Run

/-!
# Surroundings of a run

What a run can reach, as a value: a tree of files and the three standard
streams. The host `Surroundings.host` reads and changes such a value, so that
the effects of a run can be observed without performing them.
-/

namespace StackCompiler.CommandLine

/-- The files and the standard streams. -/
structure Surroundings where
  tree : FileTree
  /-- What can be read from standard input. -/
  input : ByteArray
  /-- What has been written to standard output. -/
  output : String
  /-- What has been written to standard error. -/
  errors : String

namespace Surroundings

/-- Reads and changes a value of surroundings. -/
def host : Host (StateM Surroundings) where
  readFile path := return ((← get).tree.read path).mapError PathFault.message
  readInput := return .ok (← get).input
  writeFile path content := do
    match (← get).tree.write path content.toUTF8 with
    | .error fault => return .error fault.message
    | .ok tree =>
      modify fun surroundings => { surroundings with tree }
      return .ok ⟨⟩
  writeOutput text := modify fun surroundings =>
    { surroundings with output := surroundings.output ++ text }
  writeErrors text := modify fun surroundings =>
    { surroundings with errors := surroundings.errors ++ text }

end Surroundings

end StackCompiler.CommandLine
