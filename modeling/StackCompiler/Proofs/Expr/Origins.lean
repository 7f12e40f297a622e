import StackCompiler.Proofs.CompilationUnit.WellFormed

/-!
# Expressions that are read

An expression is read if it occurs in a program that some source is read as, be
it as a whole or as a part of another expression. The texts in such an
expression are formed as those of lexemes.
-/

namespace StackCompiler

/-- The parts of an expression, the whole among them. -/
def Expr.parts : Expr → List Expr
  | number text => [.number text]
  | designator target => [.designator target]
  | unary operator operand => .unary operator operand :: operand.parts
  | binary operator left right =>
      .binary operator left right :: (left.parts ++ right.parts)

theorem Expr.mem_parts_self (expr : Expr) : expr ∈ expr.parts := by
  cases expr <;> simp [parts]

namespace Stmt

mutual

/-- The expressions in a statement. -/
def expressions : Stmt → List Expr
  | block body => expressionsAll body
  | ifThen condition consequence => condition.parts ++ consequence.expressions
  | ifElse condition consequence alternative =>
    condition.parts ++ (consequence.expressions ++ alternative.expressions)
  | loop condition body => condition.parts ++ body.expressions
  | print value => value.parts
  | assign _ value => value.parts

/-- The expressions in some statements. -/
def expressionsAll : List Stmt → List Expr
  | [] => []
  | first :: rest => first.expressions ++ expressionsAll rest

end

end Stmt

/-- Whether an expression occurs in what some source is read as. -/
def Expr.IsRead (expr : Expr) : Prop :=
  ∃ source strict unit skipped, (readUnit source strict).outcome = .ok (unit, skipped) ∧
    expr ∈ Stmt.expressionsAll unit.body

/-! ### What fits is formed -/

theorem SignedNumeral.mono {IsNumeral IsOther : List Char → Prop} {text : String}
    (signed : SignedNumeral IsNumeral text)
    (isOther : ∀ numeral, IsNumeral numeral → IsOther numeral) :
    SignedNumeral IsOther text := by
  rcases signed with ⟨numeral, isNumeral, written⟩
  exact ⟨numeral, isOther numeral isNumeral, written⟩

theorem Subscript.Fits.formed {subscript : Subscript} (fits : subscript.Fits) :
    subscript.Formed := by
  cases subscript with
  | literal text => exact SignedNumeral.mono fits fun _ => Piece.Fits.formed
  | identifier name => exact Piece.Fits.formed fits

theorem Designator.Fits.formed {designator : Designator} (fits : designator.Fits) :
    designator.Formed :=
  ⟨Piece.Fits.formed fits.1, fun subscript found => (fits.2 subscript found).formed⟩

theorem Expr.Fits.formed {expr : Expr} (fits : expr.Fits) : expr.Formed := by
  induction expr with
  | number text =>
      exact SignedNumeral.mono fits fun _ => Or.imp Piece.Fits.formed Piece.Fits.formed
  | designator target => exact Designator.Fits.formed fits
  | unary operator operand ih => exact ih fits
  | binary operator left right ihLeft ihRight => exact ⟨ihLeft fits.1, ihRight fits.2⟩

/-! ### Expressions in what fits -/

theorem Expr.Fits.parts {expr : Expr} (fits : expr.Fits) :
    ∀ part ∈ expr.parts, part.Fits := by
  induction expr with
  | number text => exact List.forall_mem_singleton.2 fits
  | designator target => exact List.forall_mem_singleton.2 fits
  | unary operator operand ih => exact List.forall_mem_cons.2 ⟨fits, ih fits⟩
  | binary operator left right ihLeft ihRight =>
      exact List.forall_mem_cons.2
        ⟨fits, List.forall_mem_append.2 ⟨ihLeft fits.1, ihRight fits.2⟩⟩

namespace Stmt

mutual

theorem fits_of_mem_expressions :
    (stmt : Stmt) → stmt.Fits → ∀ expr ∈ stmt.expressions, expr.Fits
  | block body, fits => fits_of_mem_expressionsAll body fits
  | ifThen _ consequence, fits =>
      List.forall_mem_append.2
        ⟨fits.1.parts, fits_of_mem_expressions consequence fits.2⟩
  | ifElse _ consequence alternative, fits =>
      List.forall_mem_append.2 ⟨fits.1.parts,
          List.forall_mem_append.2 ⟨fits_of_mem_expressions consequence fits.2.1,
              fits_of_mem_expressions alternative fits.2.2⟩⟩
  | loop _ body, fits =>
      List.forall_mem_append.2 ⟨fits.1.parts, fits_of_mem_expressions body fits.2⟩
  | print _, fits => Expr.Fits.parts fits
  | assign _ _, fits => fits.2.parts

theorem fits_of_mem_expressionsAll : (body : List Stmt) → FitsAll body →
    ∀ expr ∈ expressionsAll body, expr.Fits
  | [], _ => List.forall_mem_nil _
  | first :: rest, fits =>
      List.forall_mem_append.2
        ⟨fits_of_mem_expressions first fits.1, fits_of_mem_expressionsAll rest fits.2⟩

end

end Stmt

/-- The texts in an expression that was read are formed as those of lexemes. -/
theorem Expr.IsRead.formed {expr : Expr} (isRead : expr.IsRead) : expr.Formed := by
  rcases isRead with ⟨source, strict, unit, skipped, reads, found⟩
  have wellFormed := CompilationUnit.wellFormed_of_readUnit reads
  exact (Stmt.fits_of_mem_expressionsAll unit.body wellFormed.body_fits expr
    found).formed

end StackCompiler
