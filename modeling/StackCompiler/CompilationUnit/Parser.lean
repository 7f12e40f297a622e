import StackCompiler.CompilationUnit.Basic
import StackCompiler.Stmt.Parser

/-!
# Reading programs

A program consists of lines of declarations, each for one type, and at
least one statement.
-/

namespace StackCompiler

open StackCompiler.Parser

namespace Declaration

/-- Reads a dimension, which has to be a number of 64 bits. -/
def readDim : Parser Int := do
  match (← peek?).bind Token.integer? with
  | none => throw (.unexpected .integer)
  | some text =>
    match Text.Decimal.readWord text.toList with
    | .error fault => throw (.badNumber fault)
    | .ok dim =>
      discard (takeIf? Token.integer?)
      return dim

/-- Reads a dimension in brackets, if there is one. -/
def dim? : Parser (Option Int) := do
  if ← acceptPunctuator "[" then
    let dim ← readDim
    punctuator "]"
    return some dim
  else
    return none

/-- Reads a name and any number of dimensions. -/
def readOne (type : TypeTag) : Parser Declaration := do
  let name ← take .identifier Token.identifier?
  return ⟨type, name, ← many dim?⟩

/-- Reads a comma and another declaration for the same type, if there is a comma. -/
def another? (type : TypeTag) : Parser (Option Declaration) := do
  if ← acceptPunctuator "," then
    return some (← readOne type)
  else
    return none

/-- The type that a token declares variables of. -/
def type? (token : Token) : Option TypeTag := token.keyword?.bind TypeTag.ofKeyword?

/-- Reads a line of declarations for one type, if there is one. -/
def line? : Parser (Option (List Declaration)) := do
  match ← takeIf? type? with
  | none => return none
  | some type =>
    let first ← readOne type
    let others ← many (another? type)
    punctuator ";"
    return some (first :: others)

/-- Reads all lines of declarations. -/
def readAll : Parser (List Declaration) := do
  return (← many line?).flatten

end Declaration

namespace Stmt

/-- Reads another statement, if any tokens are left. -/
def another? : Parser (Option Stmt) := do
  if ← atEnd then
    return none
  else
    return some (← read)

/-- Reads statements up to the end of the tokens, but at least one. -/
def readAll : Parser (List Stmt) := do
  let first ← read
  return first :: (← many another?)

end Stmt

namespace CompilationUnit

/-- Reads a program up to the end of the tokens. -/
def read : Parser CompilationUnit := do
  let declarations ← Declaration.readAll
  let body ← Stmt.readAll
  return ⟨declarations, body⟩

/-- The program that a sequence of tokens forms. -/
def ofTokens? (tokens : List Token) : Except Failure CompilationUnit :=
  match read ⟨tokens, Budget.unused⟩ with
  | .ok unit _ => .ok unit
  | .error problem cursor => .error ⟨problem, cursor.rest.head?⟩

/-- The program that a sequence of tokens forms, which come from the given source. -/
def parse (tokens : List Token) (source : List Char) :
    Except Diagnostic CompilationUnit :=
  (ofTokens? tokens).mapError (Failure.diagnose source)

end CompilationUnit

end StackCompiler
