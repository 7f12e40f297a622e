import StackCompiler.Expr.Parser
import StackCompiler.Stmt.Basic

/-!
# Reading statements

The first token tells the form of a statement. An `else` belongs to the nearest
conditional before it that has none. Statements nest, so as for operands the
number of nesting levels left is the measure of the recursion.
-/

namespace StackCompiler.Stmt

open StackCompiler.Parser

/-- The mark that opens a block. -/
def openBrace : String := "\x7b"

/-- The mark that closes a block. -/
def closeBrace : String := "\x7d"

/-- Reads the condition of a conditional or a loop. -/
def readCondition : Parser Expr := do
  punctuator "("
  let condition ← Expr.read
  punctuator ")"
  return condition

/-- Reads the next statement of a block, or the brace that closes it. -/
def inBlock? (statement : Parser Stmt) : Parser (Option Stmt) := do
  if ← acceptPunctuator closeBrace then
    return none
  else if ← atEnd then
    throw (.unexpected (.punctuator closeBrace))
  else
    return some (← statement)

/-- Reads a statement, given how to read the statements within it. -/
def readOver (statement : Parser Stmt) : Parser Stmt := do
  if ← acceptPunctuator openBrace then
    return block (← many (inBlock? statement))
  else if ← acceptKeyword "if" then
    let condition ← readCondition
    let consequence ← statement
    if ← acceptKeyword "else" then
      return ifElse condition consequence (← statement)
    else
      return ifThen condition consequence
  else if ← acceptKeyword "while" then
    let condition ← readCondition
    return loop condition (← statement)
  else if ← acceptKeyword "print" then
    let value ← Expr.read
    punctuator ";"
    return print value
  else
    match (← peek?).bind Token.identifier? with
    | some _ =>
      let target ← Expr.readDesignator
      punctuator "="
      let value ← Expr.read
      punctuator ";"
      return assign target value
    | none => throw (.unexpected .statement)

/-- Reads a statement of at most `levels` nesting levels. -/
def readWithin : Nat → Parser Stmt
  | 0 => throw .tooDeep
  | levels + 1 => nested (readOver (readWithin levels))

/-- Reads a statement. -/
def read : Parser Stmt := readWithin maxNesting

end StackCompiler.Stmt
