import StackCompiler.Code.Instruction

/-!
# Finished programs

The text of a program has an instruction in every line. Definitions of labels
stand out to the left, and the word `END` closes the last line.
-/

namespace StackCompiler

/-- Code that is finished. -/
structure Program where
  instructions : Code
  deriving DecidableEq, Repr

namespace Program

/-- The line of an instruction. -/
def line (instruction : Instruction) : String :=
  if instruction.isLabel then instruction.render else "    " ++ instruction.render

/-- The lines of code, the last of which holds the word `END` too. -/
def lines : Code → List String
  | [] => ["END"]
  | [last] => [line last ++ " END"]
  | instruction :: rest => line instruction :: lines rest

/-- The text of a program. -/
def render (program : Program) : String :=
  String.join ((lines program.instructions).map (· ++ "\n"))

end Program

end StackCompiler
