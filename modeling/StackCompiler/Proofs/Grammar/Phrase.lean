import StackCompiler.Expr.Basic
import StackCompiler.Proofs.Grammar.Spelling

/-!
# The grammar of expressions

A phrase is a derivation of an expression. Its rank says between which operators
it may stand: an operand may stand anywhere, and a phrase of a level of binary
operators holds operators of that level, or tighter ones, outside parentheses.
The operators of a level are grouped from the left, but a comparison has two
operands that are no comparisons themselves.

The tree of a phrase is the expression it derives. Parentheses leave no trace
there, so what they cost is counted on the phrase.
-/

namespace StackCompiler

/-- A subscript as it is written. -/
inductive Index where
  | literal (text : String)
  | negative (text : String)
  | identifier (name : String)
  deriving DecidableEq, Repr

namespace Index

/-- What stands between the brackets. -/
def content : Index → List Lexeme
  | literal text => [.integer text]
  | negative text => [.mark "-", .integer text]
  | identifier name => [.identifier name]

/-- The content of a subscript in brackets. -/
def lexemes (index : Index) : List Lexeme := .mark "[" :: (index.content ++ [.mark "]"])

/-- The subscript that is written. -/
def tree : Index → Subscript
  | literal text => .literal text
  | negative text => .literal ("-" ++ text)
  | identifier name => .identifier name

end Index

/-- A designator as it is written. -/
structure Target where
  name : String
  indices : List Index
  deriving DecidableEq, Repr

namespace Target

/-- The name, and behind it the subscripts. -/
def lexemes (target : Target) : List Lexeme :=
  .identifier target.name :: target.indices.flatMap Index.lexemes

/-- The designator that is written. -/
def tree (target : Target) : Designator := ⟨target.name, target.indices.map Index.tree⟩

end Target

/-- A literal that can be an operand. -/
inductive Literal where
  | integer (text : String)
  | double (text : String)
  deriving DecidableEq, Repr

namespace Literal

/-- The number as it is written. -/
def text : Literal → String
  | integer text => text
  | double text => text

/-- The only lexeme of a literal. -/
def lexeme : Literal → Lexeme
  | integer text => .integer text
  | double text => .double text

end Literal

/-- Between which operators a phrase may stand. -/
inductive Rank where
  /-- Between any operators. -/
  | operand
  /-- Between operators that are looser than those of the level. -/
  | level (level : Level)
  deriving DecidableEq, Repr

/-- The rank of what stands between the operators of a level. -/
def Level.tighter : Level → Rank
  | .disjunction => .level .conjunction
  | .conjunction => .level .comparison
  | .comparison => .level .sum
  | .sum => .level .product
  | .product => .operand

/-- The rank of whole expressions. -/
abbrev Rank.whole : Rank := .level .disjunction

/-- The derivations of expressions, by their rank. -/
inductive Phrase : Rank → Type where
  | number (literal : Literal) : Phrase .operand
  | designator (target : Target) : Phrase .operand
  | prefixed (operator : UnaryOp) (operand : Phrase .operand) : Phrase .operand
  | parens (content : Phrase .whole) : Phrase .operand
  | single {level : Level} (only : Phrase level.tighter) : Phrase (.level level)
  | link {level : Level} (grouped : level ≠ .comparison) (left : Phrase (.level level))
      (operator : BinaryOp) (ofLevel : operator.level = level)
      (right : Phrase level.tighter) : Phrase (.level level)
  | compare (left : Phrase (.level .sum)) (operator : BinaryOp)
      (ofLevel : operator.level = .comparison) (right : Phrase (.level .sum)) :
      Phrase (.level .comparison)

namespace Phrase

variable {rank : Rank}

/-- The lexemes of a phrase, from left to right. -/
def lexemes : {rank : Rank} → Phrase rank → List Lexeme
  | _, number literal => [literal.lexeme]
  | _, designator target => target.lexemes
  | _, prefixed operator operand => .mark operator.symbol :: operand.lexemes
  | _, parens content => .mark "(" :: (content.lexemes ++ [.mark ")"])
  | _, single only => only.lexemes
  | _, link _ left operator _ right =>
      left.lexemes ++ .mark operator.symbol :: right.lexemes
  | _, compare left operator _ right =>
      left.lexemes ++ .mark operator.symbol :: right.lexemes

/-- The literal that a phrase consists of, if it does. -/
def literal? : Phrase rank → Option Literal
  | number literal => some literal
  | _ => none

/-- The literal that a prefix operator is folded into: a minus sign directly
before a literal is the sign of the literal. -/
def folded? (operator : UnaryOp) (operand : Phrase .operand) : Option Literal :=
  match operator with
  | .negate => operand.literal?
  | .not => none

/-- The expression that a phrase derives. -/
def tree : {rank : Rank} → Phrase rank → Expr
  | _, number literal => .number literal.text
  | _, designator target => .designator target.tree
  | _, prefixed operator operand =>
    match folded? operator operand with
    | some literal => .number ("-" ++ literal.text)
    | none => .unary operator operand.tree
  | _, parens content => content.tree
  | _, single only => only.tree
  | _, link _ left operator _ right => .binary operator left.tree right.tree
  | _, compare left operator _ right => .binary operator left.tree right.tree

/-- How many operands are open within each other: behind prefix operators, and
in parentheses. -/
def nest : {rank : Rank} → Phrase rank → Nat
  | _, number _ => 1
  | _, designator _ => 1
  | _, prefixed operator operand =>
      if (folded? operator operand).isSome then 1 else 1 + operand.nest
  | _, parens content => 1 + content.nest
  | _, single only => only.nest
  | _, link _ left _ _ right => max left.nest right.nest
  | _, compare left _ _ right => max left.nest right.nest

/-- How many operators of its own level a phrase links its operands with.
Comparisons are not counted. -/
def links : {rank : Rank} → Phrase rank → Nat
  | _, link _ left _ _ _ => left.links + 1
  | _, _ => 0

/-- How many operators link operands at the same time, at most: an operator that
links the operands of its level does so until the last of them has been read,
parentheses within them included. -/
def peak : {rank : Rank} → Phrase rank → Nat
  | _, number _ => 0
  | _, designator _ => 0
  | _, prefixed _ operand => operand.peak
  | _, parens content => content.peak
  | _, single only => only.peak
  | _, link _ left _ _ right => max left.peak (left.links + 1 + right.peak)
  | _, compare left _ _ right => max left.peak right.peak

theorem tree_of_not_folded {operator : UnaryOp} {operand : Phrase .operand}
    (notFolded : folded? operator operand = none) :
    (prefixed operator operand).tree = .unary operator operand.tree := by
  rw [tree, notFolded]

end Phrase

/-! ### Where phrases end -/

theorem BinaryOp.ofSymbol?_eq_some_iff {symbol : String} {operator : BinaryOp} :
    ofSymbol? symbol = some operator ↔ symbol = operator.symbol := by
  constructor
  · intro found
    have same := List.find?_some found
    exact (eq_of_beq same).symm
  · intro equal
    subst equal
    exact ofSymbol?_symbol operator

theorem BinaryOp.symbol_injective {operator other : BinaryOp}
    (same : operator.symbol = other.symbol) : operator = other := by
  have both := congrArg ofSymbol? same
  simpa using both

/-- Whether `next` is an operator of a level. -/
def Level.Continues (level : Level) (next : Option Lexeme) : Prop :=
  ∃ operator : BinaryOp, operator.level = level ∧ next = some (.mark operator.symbol)

/-- Whether phrases of a rank may hold operators of a level outside parentheses. -/
def Rank.Covers : Rank → Level → Prop
  | .operand, _ => False
  | .level .product, inner => inner = .product
  | .level .sum, inner => inner = .product ∨ inner = .sum
  | .level .comparison, inner => inner = .product ∨ inner = .sum ∨ inner = .comparison
  | .level .conjunction, inner => inner ≠ .disjunction
  | .level .disjunction, _ => True

theorem Level.covers_self (level : Level) : (Rank.level level).Covers level := by
  cases level <;> simp [Rank.Covers]

theorem Level.covers_of_tighter {level inner : Level}
    (covers : level.tighter.Covers inner) : (Rank.level level).Covers inner := by
  cases level <;> cases inner <;> simp_all [Rank.Covers, Level.tighter]

theorem Level.not_tighter_covers (level : Level) : ¬ level.tighter.Covers level := by
  cases level <;> simp [Rank.Covers, Level.tighter]

/-- Where no operator of a level and no tighter one follows, in particular no
tighter one does. -/
theorem Level.ends_of_not_covers {level : Level} {next : Option Lexeme}
    (noOperator : ∀ inner : Level, inner.Continues next →
      ¬ (Rank.level level).Covers inner) :
    (∀ inner : Level, inner.Continues next → ¬ level.tighter.Covers inner) ∧
    ¬ level.Continues next := by
  constructor
  · intro inner continues covers
    exact noOperator inner continues (covers_of_tighter covers)
  · intro continues
    exact noOperator level continues level.covers_self

namespace Phrase

/-- Whether a phrase is at its end before `next`: neither a subscript nor an
operator is to be added. -/
def Closed : {rank : Rank} → Phrase rank → (next : Option Lexeme) → Prop
  | _, number _, _ => True
  | _, designator _, next => next ≠ some (.mark "[")
  | _, prefixed _ operand, next => operand.Closed next
  | _, parens _, _ => True
  | _, @single level only, next => only.Closed next ∧ ¬ level.Continues next
  | _, @link level _ _ _ _ right, next => right.Closed next ∧ ¬ level.Continues next
  | _, compare _ _ _ right, next =>
      right.Closed next ∧ ¬ Level.comparison.Continues next

/-- A phrase is at its end before whatever is neither a bracket nor an operator
that the phrase could hold. -/
theorem closed_of_not_covers {rank : Rank} (phrase : Phrase rank) {next : Option Lexeme}
    (noBracket : next ≠ some (.mark "["))
    (noOperator : ∀ level : Level, level.Continues next → ¬ rank.Covers level) :
    phrase.Closed next := by
  induction phrase with
  | number literal => trivial
  | designator target => exact noBracket
  | prefixed operator operand ih => exact ih noOperator
  | parens content ih => trivial
  | single only ih =>
      obtain ⟨inner, own⟩ := Level.ends_of_not_covers noOperator
      exact ⟨ih inner, own⟩
  | link grouped left operator ofLevel right _ ih =>
      obtain ⟨inner, own⟩ := Level.ends_of_not_covers noOperator
      exact ⟨ih inner, own⟩
  | compare left operator ofLevel right _ ih =>
      obtain ⟨inner, own⟩ := Level.ends_of_not_covers noOperator
      exact ⟨ih inner, own⟩

/-- What stands between the operators of a level ends where there is
such an operator. -/
theorem closed_of_operator {level : Level} (phrase : Phrase level.tighter)
    {operator : BinaryOp} (ofLevel : operator.level = level) :
    phrase.Closed (some (.mark operator.symbol)) := by
  apply phrase.closed_of_not_covers
  · cases operator <;> decide
  · intro inner holds
    rcases holds with ⟨other, rfl, same⟩
    simp only [Option.some.injEq, Lexeme.mk.injEq, true_and] at same
    obtain rfl := BinaryOp.symbol_injective same
    rw [ofLevel]
    exact level.not_tighter_covers

/-- Every phrase ends at a punctuation mark that is neither a bracket
nor an operator. -/
theorem closed_of_mark {rank : Rank} (phrase : Phrase rank) {symbol : String}
    (noBracket : symbol ≠ "[") (noOperator : BinaryOp.ofSymbol? symbol = none) :
    phrase.Closed (some (.mark symbol)) := by
  apply phrase.closed_of_not_covers
  · simpa using noBracket
  · intro level holds
    rcases holds with ⟨operator, _, same⟩
    simp only [Option.some.injEq, Lexeme.mk.injEq, true_and] at same
    rw [same, BinaryOp.ofSymbol?_symbol] at noOperator
    contradiction

/-! ### How phrases begin -/

theorem eq_number_of_literal? {phrase : Phrase .operand} {literal : Literal}
    (consists : phrase.literal? = some literal) : phrase = .number literal := by
  cases phrase with
  | number other =>
      obtain rfl := Option.some.inj consists
      rfl
  | designator target => contradiction
  | prefixed operator operand => contradiction
  | parens content => contradiction

/-- An operand that is no literal does not begin with a literal. -/
theorem head?_lexemes_ne_literal {phrase : Phrase .operand}
    (noLiteral : phrase.literal? = none) (literal : Literal) (after : List Lexeme) :
    (phrase.lexemes ++ after).head? ≠ some literal.lexeme := by
  cases phrase with
  | number other => contradiction
  | designator target =>
      cases literal <;> simp [lexemes, Target.lexemes, Literal.lexeme]
  | prefixed operator operand =>
      cases literal <;> simp [lexemes, Literal.lexeme]
  | parens content =>
      cases literal <;> simp [lexemes, Literal.lexeme]

theorem nest_pos {rank : Rank} (phrase : Phrase rank) : 0 < phrase.nest := by
  induction phrase with
  | number literal => exact Nat.zero_lt_one
  | designator target => exact Nat.zero_lt_one
  | prefixed operator operand ih =>
      rw [nest]
      split <;> omega
  | parens content ih =>
      rw [nest]
      omega
  | single only ih => exact ih
  | link grouped left operator ofLevel right ih _ =>
      exact Nat.lt_of_lt_of_le ih (Nat.le_max_left _ _)
  | compare left operator ofLevel right ih _ =>
      exact Nat.lt_of_lt_of_le ih (Nat.le_max_left _ _)

theorem links_le_peak {rank : Rank} (phrase : Phrase rank) :
    phrase.links ≤ phrase.peak := by
  cases phrase with
  | link grouped left operator ofLevel right =>
      rw [links, peak]
      omega
  | _ => exact Nat.zero_le _

end Phrase

end StackCompiler
