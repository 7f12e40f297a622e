import StackCompiler.Expr.Basic

/-!
# What a stack machine makes of a fragment

Each word of a fragment asks a stack machine to push an operand or to apply an
operator. If the machine knows of every word which of these it is, it recovers
the expression (`recover_items`).
-/

namespace StackCompiler

/-- A word of a fragment, with what it asks for. -/
inductive Item where
  | number (text : String)
  | designator (target : Designator)
  | unary (operator : UnaryOp)
  | binary (operator : BinaryOp)
  deriving DecidableEq, Repr

namespace Item

/-- The word that stands for an item. -/
def word : Item → String
  | number text => text
  | designator target => target.render
  | unary operator => operator.symbol
  | binary operator => operator.symbol

/-- What an item does to the expressions on the stack, the topmost of
which comes first. -/
def apply : Item → List Expr → Option (List Expr)
  | number text, stack => some (.number text :: stack)
  | designator target, stack => some (.designator target :: stack)
  | unary operator, operand :: stack => some (.unary operator operand :: stack)
  | binary operator, right :: left :: stack =>
      some (.binary operator left right :: stack)
  | _, _ => none

/-- What items do, one after the other. -/
def applyAll : List Item → List Expr → Option (List Expr)
  | [], stack => some stack
  | item :: rest, stack => (item.apply stack).bind (applyAll rest)

/-- The expression that items leave on the stack, if they leave a single one. -/
def recover (items : List Item) : Option Expr :=
  match applyAll items [] with
  | some [expr] => some expr
  | _ => none

end Item

namespace Expr

open Item

/-- The items of an expression, in the order of its words. -/
def items : Expr → List Item
  | number text => [.number text]
  | designator target => [.designator target]
  | unary operator operand => operand.items ++ [.unary operator]
  | binary operator left right => left.items ++ right.items ++ [.binary operator]

theorem words_eq_map_items (expr : Expr) : expr.words = expr.items.map Item.word := by
  induction expr with
  | number text => rfl
  | designator target => rfl
  | unary operator operand ih => rw [words, items, List.map_append, ih]; rfl
  | binary operator left right ihLeft ihRight =>
      rw [words, items, List.map_append, List.map_append, ihLeft, ihRight]
      rfl

/-- Whatever is on the stack, the items of an expression put the
expression on top of it. -/
theorem applyAll_items_append (expr : Expr) (rest : List Item) (stack : List Expr) :
    applyAll (expr.items ++ rest) stack = applyAll rest (expr :: stack) := by
  induction expr generalizing rest stack with
  | number text => rfl
  | designator target => rfl
  | unary operator operand ih =>
      rw [items, List.append_assoc, ih]
      rfl
  | binary operator left right ihLeft ihRight =>
      rw [items, List.append_assoc, List.append_assoc, ihLeft, ihRight]
      rfl

/-- A stack machine that knows the items recovers the expression. -/
theorem recover_items (expr : Expr) : recover expr.items = some expr := by
  have applied := expr.applyAll_items_append [] []
  rw [List.append_nil] at applied
  rw [recover, applied]
  rfl

theorem items_injective {expr other : Expr} (same : expr.items = other.items) :
    expr = other := by
  have recovered := congrArg recover same
  rw [recover_items, recover_items] at recovered
  exact Option.some.inj recovered

/-! ### Minus signs -/

/-- How many operators negate something. -/
def negations : Expr → Nat
  | number _ => 0
  | designator _ => 0
  | unary operator operand => operand.negations + if operator = .negate then 1 else 0
  | binary _ left right => left.negations + right.negations

/-- How many operators subtract something. -/
def subtractions : Expr → Nat
  | number _ => 0
  | designator _ => 0
  | unary _ operand => operand.subtractions
  | binary operator left right =>
    left.subtractions + right.subtractions + if operator = .subtract then 1 else 0

end Expr

namespace Item

/-- Whether an item that is written as a minus sign takes two operands, if
it is written so. -/
def minus? : Item → Option Bool
  | unary .negate => some false
  | binary .subtract => some true
  | _ => none

/-- Which of the items that are written as minus signs take two operands, in order. -/
def minuses (items : List Item) : List Bool := items.filterMap minus?

end Item

end StackCompiler
