import StackCompiler.Stmt.Lowering

/-!
# Code for programs

Declarations take no labels, so the labels of a program are those of its statements.
-/

namespace StackCompiler.CompilationUnit

/-- The code of a program: its declarations, then its statements. -/
def lower (unit : CompilationUnit) : Lowering Code := do
  return unit.declarations.map .declare ++ (← Stmt.lowerAll unit.body)

end StackCompiler.CompilationUnit
