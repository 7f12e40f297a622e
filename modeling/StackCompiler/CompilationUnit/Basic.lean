import StackCompiler.Stmt.Basic

/-!
# Programs

A program of the source language, called a compilation unit, declares variables
and then executes statements.
-/

namespace StackCompiler

/-- The type of a variable. -/
inductive TypeTag where
  | int
  | double
  deriving DecidableEq, Repr

namespace TypeTag

/-- The keyword that declares variables of a type. -/
def keyword : TypeTag → String
  | int => "int"
  | double => "double"

/-- The type of the variables that a keyword declares. -/
def ofKeyword? (keyword : String) : Option TypeTag :=
  [int, double].find? (·.keyword == keyword)

/-- The name of a type in the code of the stack machine. -/
def render : TypeTag → String
  | int => "INT"
  | double => "DOUBLE"

end TypeTag

/-- The declaration of a variable, or of an array if there are dimensions. -/
structure Declaration where
  type : TypeTag
  name : String
  dims : List Int
  deriving DecidableEq, Repr

/-- A program: its declarations, then its statements. -/
structure CompilationUnit where
  declarations : List Declaration
  body : List Stmt
  deriving DecidableEq, Repr

end StackCompiler
