import StackCompiler.Code.Canonical
import StackCompiler.Code.Program
import StackCompiler.CompilationUnit.Lowering
import StackCompiler.CompilationUnit.Parser
import StackCompiler.Token.Lexed

/-!
# Compiling

From the source of a program to its code: the source is split into tokens, the
tokens are read as a program, the program is lowered to code, and the labels of
the code are numbered in the order in which a reader meets them.
-/

namespace StackCompiler

/-- What a compilation yields. -/
structure Compiled where
  program : Program
  /-- The characters of the source that belong to no token. -/
  skipped : List SkippedChar
  deriving DecidableEq, Repr

/-- Reads a source as a program, and keeps the characters that belong to no token. -/
def readUnit (source : String) (strict : Bool) :
    Traced (CompilationUnit × List SkippedChar) := do
  let lexed ← Lexed.read source.toList strict
  let unit ← Traced.ofExcept (CompilationUnit.parse lexed.tokens source.toList)
  return (unit, lexed.skipped)

/-- Compiles a source. In strict mode it must not hold characters that belong to
no token, otherwise these are skipped. -/
def compile (source : String) (strict : Bool) : Traced Compiled := do
  let (unit, skipped) ← readUnit source strict
  Traced.note [.parsed unit.declarations.length unit.body.length]
  let (code, supply) := unit.lower.run LabelSupply.fresh
  Traced.note [.lowered code.length supply.allocated]
  return ⟨⟨← Canonical.canonicalize code⟩, skipped⟩

end StackCompiler
