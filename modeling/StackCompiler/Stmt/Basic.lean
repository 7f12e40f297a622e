import StackCompiler.Expr.Basic

/-!
# Statements

Statements are kept as they were written: a block remains a block, even if it
holds a single statement or none.
-/

namespace StackCompiler

/-- A statement. A conditional without an alternative differs from one with an
empty alternative. -/
inductive Stmt where
  | block (body : List Stmt)
  | ifThen (condition : Expr) (consequence : Stmt)
  | ifElse (condition : Expr) (consequence alternative : Stmt)
  | loop (condition : Expr) (body : Stmt)
  | print (value : Expr)
  | assign (target : Designator) (value : Expr)
  deriving Repr

namespace Stmt

mutual

/-- Whether two statements are the same. -/
def same : Stmt → Stmt → Bool
  | block body, block other => sameAll body other
  | ifThen condition consequence, ifThen other otherConsequence =>
    condition == other && consequence.same otherConsequence
  | ifElse condition consequence alternative,
      ifElse other otherConsequence otherAlternative =>
    condition == other && consequence.same otherConsequence &&
      alternative.same otherAlternative
  | loop condition body, loop other otherBody =>
      condition == other && body.same otherBody
  | print value, print other => value == other
  | assign target value, assign otherTarget otherValue =>
    target == otherTarget && value == otherValue
  | _, _ => false

/-- Whether two lists of statements are the same. -/
def sameAll : List Stmt → List Stmt → Bool
  | [], [] => true
  | first :: rest, other :: others => first.same other && sameAll rest others
  | _, _ => false

end

mutual

theorem same_iff : (stmt other : Stmt) → (stmt.same other ↔ stmt = other)
  | block body, other => by
      cases other with
      | block others => simp [same, sameAll_iff body others]
      | _ => simp [same]
  | ifThen condition consequence, other => by
      cases other with
      | ifThen _ other => simp [same, same_iff consequence other]
      | _ => simp [same]
  | ifElse condition consequence alternative, other => by
      cases other with
      | ifElse _ other another =>
          simp [same, same_iff consequence other,
            same_iff alternative another, and_assoc]
      | _ => simp [same]
  | loop condition body, other => by
      cases other with
      | loop _ other => simp [same, same_iff body other]
      | _ => simp [same]
  | print value, other => by cases other <;> simp [same]
  | assign target value, other => by cases other <;> simp [same]

theorem sameAll_iff :
    (stmts others : List Stmt) → (sameAll stmts others ↔ stmts = others)
  | [], others => by cases others <;> simp [sameAll]
  | first :: rest, others => by
      cases others with
      | nil => simp [sameAll]
      | cons other others =>
          simp [sameAll, same_iff first other, sameAll_iff rest others]

end

instance : DecidableEq Stmt :=
  fun stmt other => decidable_of_iff _ (same_iff stmt other)

end Stmt

end StackCompiler
