import StackCompiler.Expr.Basic
import StackCompiler.Parsing.Cursor

/-!
# Reading expressions

From loosest to tightest an expression has five levels of binary operators, and
below them the operands: an operand is a literal, a designator, an expression in
parentheses, or an operand behind `-` or `!`. The operators of one level are
grouped from the left, but a comparison has two operands only.

Operands are what nests, so the number of nesting levels that are left is the
measure of the recursion.
-/

namespace StackCompiler.Expr

open StackCompiler.Parser

/-- The operator of the given level that a token stands for. -/
def operator? (level : Level) (token : Token) : Option BinaryOp :=
  (token.punctuator?.bind BinaryOp.ofSymbol?).filter (·.level == level)

/-- Reads the content of a subscript: an integer with a minus sign or without,
or an identifier. -/
def subscript : Parser Subscript := do
  if ← acceptPunctuator "-" then
    return .literal ("-" ++ (← take .subscript Token.integer?))
  else
    match ← takeIf? Token.integer? with
    | some text => return .literal text
    | none => return .identifier (← take .subscript Token.identifier?)

/-- Reads a subscript in brackets, if there is one. -/
def subscript? : Parser (Option Subscript) := do
  if ← acceptPunctuator "[" then
    let content ← subscript
    punctuator "]"
    return some content
  else
    return none

/-- Reads an identifier and any number of subscripts. -/
def readDesignator : Parser Designator := do
  let name ← take .identifier Token.identifier?
  return ⟨name, ← many subscript?⟩

/-- Reads an operator of the given level and the operand to its right, if there
is such an operator. -/
def link? (level : Level) (operand : Parser Expr) :
    Parser (Option (BinaryOp × Expr)) := do
  match ← takeIf? (operator? level) with
  | none => return none
  | some operator =>
    link
    return some (operator, ← operand)

/-- Groups operands from the left. -/
def groupLeft (first : Expr) (links : List (BinaryOp × Expr)) : Expr :=
  links.foldl (fun left link => binary link.1 left link.2) first

/-- Reads operands with any number of operators of the given level between them.
The links between them are in use until the last operand has been read. -/
def chain (level : Level) (operand : Parser Expr) : Parser Expr := do
  let first ← operand
  let links ← many (link? level operand)
  unlink links.length
  return groupLeft first links

/-- Reads an operand, or two operands with a comparison between them. -/
def comparison (operand : Parser Expr) : Parser Expr := do
  let left ← operand
  match ← takeIf? (operator? .comparison) with
  | none => return left
  | some operator =>
    let right ← operand
    match (← peek?).bind (operator? .comparison) with
    | some next => throw (.chainedComparison next.symbol)
    | none => return binary operator left right

/-- Reads an expression, given how to read an operand. -/
def readOver (operand : Parser Expr) : Parser Expr :=
  chain .disjunction
    (chain .conjunction (comparison (chain .sum (chain .product operand))))

/-- Reads an operand that begins with no operator, given how to read an operand. -/
def primary (operand : Parser Expr) : Parser Expr := do
  if ← acceptPunctuator "(" then
    let content ← readOver operand
    punctuator ")"
    return content
  else
    match ← takeIf? Token.number? with
    | some text => return number text
    | none =>
      match (← peek?).bind Token.identifier? with
      | some _ => return designator (← readDesignator)
      | none => throw (.unexpected .expression)

/-- Reads an operand, given how to read the operands within it. A minus sign
directly before a number is the sign of that number. -/
def operandOver (operand : Parser Expr) : Parser Expr := do
  if ← acceptPunctuator "-" then
    match ← takeIf? Token.number? with
    | some text => return number ("-" ++ text)
    | none => return unary .negate (← operand)
  else if ← acceptPunctuator "!" then
    return unary .not (← operand)
  else
    primary operand

/-- Reads an operand of at most `levels` nesting levels. -/
def operandWithin : Nat → Parser Expr
  | 0 => throw .tooDeep
  | levels + 1 => nested (operandOver (operandWithin levels))

/-- Reads an operand. -/
def readOperand : Parser Expr := operandWithin maxNesting

/-- Reads an expression. -/
def read : Parser Expr := readOver readOperand

end StackCompiler.Expr
