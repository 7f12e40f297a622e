import StackCompiler.Proofs.Expr.Items
import StackCompiler.Proofs.Token.Lexemes

/-!
# The texts in expressions that are read

The numbers and names in an expression that was read are formed as lexemes are,
but for the minus signs that were folded into numbers.
-/

namespace StackCompiler

/-- Whether a text is a numeral, with a minus sign before it or without. -/
def SignedNumeral (IsNumeral : List Char → Prop) (text : String) : Prop :=
  ∃ numeral, IsNumeral numeral ∧ (text.toList = numeral ∨ text.toList = '-' :: numeral)

/-- Whether the texts in a subscript are formed as those of lexemes. -/
def Subscript.Formed : Subscript → Prop
  | literal text => SignedNumeral (Piece.Formed .integer) text
  | identifier name => Piece.Formed .identifier name.toList

/-- Whether the texts in a designator are formed as those of lexemes. -/
def Designator.Formed (designator : Designator) : Prop :=
  Piece.Formed .identifier designator.name.toList ∧
    ∀ subscript ∈ designator.subscripts, subscript.Formed

namespace Expr

/-- Whether the texts in an expression are formed as those of lexemes. -/
def Formed : Expr → Prop
  | number text =>
    SignedNumeral
      (fun numeral => Piece.Formed .integer numeral ∨ Piece.Formed .double numeral) text
  | designator target => target.Formed
  | unary _ operand => operand.Formed
  | binary _ left right => left.Formed ∧ right.Formed

end Expr

end StackCompiler
