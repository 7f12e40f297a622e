/-!
# Expressions

The expressions of the source language, and their fragments: the code of a
stack machine for an expression is written in postfix order, operands
first, on a single line.
-/

namespace StackCompiler

/-- Operators with one operand. -/
inductive UnaryOp where
  | negate
  | not
  deriving DecidableEq, Repr

/-- The written form of an operator. -/
def UnaryOp.symbol : UnaryOp → String
  | .negate => "-"
  | .not => "!"

/-- Operators with two operands. -/
inductive BinaryOp where
  | or
  | and
  | equal
  | less
  | lessEqual
  | greater
  | greaterEqual
  | add
  | subtract
  | multiply
  | divide
  deriving DecidableEq, Repr

/-- The binding levels of the binary operators, from the loosest to the tightest. -/
inductive Level where
  | disjunction
  | conjunction
  | comparison
  | sum
  | product
  deriving DecidableEq, Repr

namespace BinaryOp

/-- The written form of an operator. -/
def symbol : BinaryOp → String
  | or => "|"
  | and => "&"
  | equal => "=="
  | less => "<"
  | lessEqual => "<="
  | greater => ">"
  | greaterEqual => ">="
  | add => "+"
  | subtract => "-"
  | multiply => "*"
  | divide => "/"

/-- How tightly an operator binds. -/
def level : BinaryOp → Level
  | or => .disjunction
  | and => .conjunction
  | equal | less | lessEqual | greater | greaterEqual => .comparison
  | add | subtract => .sum
  | multiply | divide => .product

/-- All operators. -/
def all : List BinaryOp :=
  [or, and, equal, less, lessEqual, greater, greaterEqual, add, subtract,
    multiply, divide]

/-- The operator with the given written form. -/
def ofSymbol? (symbol : String) : Option BinaryOp := all.find? (·.symbol == symbol)

@[simp] theorem ofSymbol?_symbol (operator : BinaryOp) :
    ofSymbol? operator.symbol = some operator := by
  cases operator <;> decide

end BinaryOp

/-- A subscript of an array: an integer literal as written, with its sign,
or an identifier. -/
inductive Subscript where
  | literal (text : String)
  | identifier (name : String)
  deriving DecidableEq, Repr

/-- The written form of a subscript. -/
def Subscript.text : Subscript → String
  | .literal text => text
  | .identifier name => name

/-- What can be read and assigned to: a variable, or an element of an array. -/
structure Designator where
  name : String
  subscripts : List Subscript
  deriving DecidableEq, Repr

/-- The written form of a designator. -/
def Designator.render (designator : Designator) : String :=
  designator.name ++ String.join
      (designator.subscripts.map fun subscript => s!"[{subscript.text}]")

/-- An expression. A number is kept as written, with the sign that belongs to it. -/
inductive Expr where
  | number (text : String)
  | designator (target : Designator)
  | unary (operator : UnaryOp) (operand : Expr)
  | binary (operator : BinaryOp) (left right : Expr)
  deriving DecidableEq, Repr

namespace Expr

/-- The words of an expression in postfix order. -/
def words : Expr → List String
  | number text => [text]
  | designator target => [target.render]
  | unary operator operand => operand.words ++ [operator.symbol]
  | binary operator left right => left.words ++ right.words ++ [operator.symbol]

/-- The fragment that evaluates an expression: its words, with spaces between them. -/
def fragment (expr : Expr) : String := " ".intercalate expr.words

end Expr

end StackCompiler
