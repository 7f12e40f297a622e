import StackCompiler.Diagnostic
import StackCompiler.Parsing.Budget
import StackCompiler.Text.Decimal
import StackCompiler.Token.Basic

/-!
# Why tokens do not form a program

A `Problem` is what reading stumbled over. Together with the token at
which it did so it is a `Failure`, from which the message and its place in
the source follow.
-/

namespace StackCompiler

/-- What would have been acceptable in place of a token. -/
inductive Wanted where
  | punctuator (symbol : String)
  | statement
  | expression
  | subscript
  | integer
  | identifier
  deriving DecidableEq, Repr

/-- What a message calls the thing wanted. -/
def Wanted.render : Wanted → String
  | .punctuator symbol => "\"" ++ symbol ++ "\""
  | .statement => "a statement"
  | .expression => "an expression"
  | .subscript => "an integer or identifier subscript"
  | .integer => "an integer literal"
  | .identifier => "an identifier"

/-- What reading stumbled over. -/
inductive Problem where
  /-- Something else was wanted. -/
  | unexpected (wanted : Wanted)
  /-- A comparison cannot be an operand of another comparison without parentheses. -/
  | chainedComparison (symbol : String)
  /-- There is no room for one more nesting level. -/
  | tooDeep
  /-- There is no room for one more operator. -/
  | tooLong
  /-- The dimension of an array is not a number of 64 bits. -/
  | badNumber (fault : Text.Decimal.Fault)
  deriving DecidableEq, Repr

/-- A problem, and the token at which it was found, if there was one left. -/
structure Failure where
  problem : Problem
  found : Option Token
  deriving DecidableEq, Repr

namespace Failure

/-- What a message calls the token at which a problem was found. -/
def describeFound : Option Token → String
  | none => "end of input"
  | some token =>
    if token.isEnd then "end of input" else s!"{token.kind.category} \"{token.text}\""

/-- The wording of a failure. -/
def message (failure : Failure) : String :=
  match failure.problem with
  | .unexpected wanted =>
      s!"unexpected {describeFound failure.found}, expected {wanted.render}"
  | .chainedComparison symbol =>
    s!"relational operator \"{symbol}\" cannot be chained; add parentheses"
  | .tooDeep => s!"nesting too deep (more than {maxNesting} levels)"
  | .tooLong => s!"expression too long (more than {maxChain} chained operators)"
  | .badNumber fault => s!"invalid number: {fault.message}"

/-- The byte offset at which a failure is reported: that of the token found, or
the end of the source. -/
def loc (source : List Char) (failure : Failure) : Nat :=
  match failure.found with
  | none => Text.byteLength source
  | some token => token.loc

/-- A failure as it is reported for a source. -/
def diagnose (source : List Char) (failure : Failure) : Diagnostic :=
  .malformedAt source (failure.loc source) failure.message

end Failure

end StackCompiler
