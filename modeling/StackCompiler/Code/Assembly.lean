import StackCompiler.Code.Canonical
import StackCompiler.CompilationUnit.Lowering

/-!
# Code under construction

An assembly collects the code of several programs and statements. All of them
take their labels from one supply, so their code can stand side by side.
-/

namespace StackCompiler

/-- Code under construction, and the supply of its labels. -/
structure Assembly where
  supply : LabelSupply
  code : Code
  deriving DecidableEq, Repr

namespace Assembly

/-- No code, and no labels taken. -/
def empty : Assembly := ⟨LabelSupply.fresh, []⟩

/-- Appends code that takes labels from the supply, and shows it. -/
def append (lowering : Lowering Code) (assembly : Assembly) : Code × Assembly :=
  let (code, supply) := lowering.run assembly.supply
  (code, ⟨supply, assembly.code ++ code⟩)

/-- Appends the code of a program. -/
def emitUnit (unit : CompilationUnit) : Assembly → Code × Assembly := append unit.lower

/-- Appends the code of a statement. -/
def emitStmt (stmt : Stmt) : Assembly → Code × Assembly := append stmt.lower

/-- Appends an instruction. -/
def push (instruction : Instruction) (assembly : Assembly) : Assembly :=
  { assembly with code := assembly.code ++ [instruction] }

/-- Replaces the label of the instruction at a position, and shows the label
that it had. Nothing happens where there is no instruction with a label. -/
def relabel (position : Nat) (label : Label) (assembly : Assembly) :
    Option Label × Assembly :=
  ((assembly.code[position]?).bind Instruction.label?,
    { assembly with code := assembly.code.modify position (·.relabel fun _ => label) })

/-- Removes the instruction at a position, and shows it. -/
def remove (position : Nat) (assembly : Assembly) : Option Instruction × Assembly :=
  (assembly.code[position]?, { assembly with code := assembly.code.eraseIdx position })

/-- Removes all code. The labels taken stay taken. -/
def clear (assembly : Assembly) : Assembly := { assembly with code := [] }

/-- Makes all labels available again. The code stays. -/
def restart (assembly : Assembly) : Assembly :=
  { assembly with supply := LabelSupply.fresh }

/-- Numbers the labels of the code anew. The supply of labels does not change. -/
def canonicalize (assembly : Assembly) : Traced Assembly := do
  return { assembly with code := ← Canonical.canonicalize assembly.code }

end Assembly

end StackCompiler
