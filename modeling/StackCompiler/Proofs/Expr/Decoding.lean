import StackCompiler.Proofs.Expr.Words

/-!
# Decoding a fragment

A stack machine that is told of each minus sign whether it takes two operands
finds out from a fragment which operators apply to which operands
(`Expr.decode_fragment`). It takes the operands as they are written.
-/

namespace StackCompiler

/-! ### Operands as they are written -/

/-- An item with an operand left as its word. -/
def Item.verbatim : Item → Item
  | designator target => number target.render
  | other => other

namespace Expr

/-- An expression with each operand left as its word. -/
def verbatim : Expr → Expr
  | number text => .number text
  | designator target => .number target.render
  | unary operator operand => .unary operator operand.verbatim
  | binary operator left right => .binary operator left.verbatim right.verbatim

theorem items_verbatim (expr : Expr) :
    expr.verbatim.items = expr.items.map Item.verbatim := by
  induction expr with
  | number text => rfl
  | designator target => rfl
  | unary operator operand ih =>
      rw [verbatim, items, items, ih, List.map_append]
      rfl
  | binary operator left right ihLeft ihRight =>
      rw [verbatim, items, items, ihLeft, ihRight, List.map_append, List.map_append]
      rfl

end Expr

/-! ### What words ask for -/

namespace Item

/-- What a minus sign asks for, depending on how many operands it takes. -/
def ofMinus (takesTwo : Bool) : Item :=
  if takesTwo then .binary .subtract else .unary .negate

/-- What a word that is no minus sign asks for. A word that is no
operator is an operand. -/
def ofWord (word : String) : Item :=
  if word = UnaryOp.not.symbol then .unary .not
  else
    match BinaryOp.ofSymbol? word with
    | some operator => .binary operator
    | none => .number word

/-- What words ask for, where it is known of each minus sign in turn whether it
takes two operands. -/
def ofWords : List Bool → List String → List Item
  | _, [] => []
  | signs, word :: rest =>
    if word = UnaryOp.negate.symbol then
      ofMinus (signs.headD false) :: ofWords signs.tail rest
    else ofWord word :: ofWords signs rest

variable {item : Item}

theorem ofMinus_of_minus? {takesTwo : Bool} (minus : item.minus? = some takesTwo) :
    item.word = UnaryOp.negate.symbol ∧ ofMinus takesTwo = item.verbatim := by
  unfold minus? at minus
  split at minus
  next =>
    obtain rfl := Option.some.inj minus
    exact ⟨rfl, rfl⟩
  next =>
    obtain rfl := Option.some.inj minus
    exact ⟨rfl, rfl⟩
  next => contradiction

/-- No operator is written as an operand. -/
theorem ofWord_of_operand (formed : item.Formed)
    (isOperand : item.shape ≠ (false, false)) :
    item.word ≠ UnaryOp.negate.symbol ∧ ofWord item.word = .number item.word := by
  have notUnary (operator : UnaryOp) : item.word ≠ operator.symbol :=
    word_ne_of_shape formed (show (Item.unary operator).Formed from trivial) isOperand
  have notBinary (operator : BinaryOp) : operator.symbol ≠ item.word :=
    (word_ne_of_shape formed
      (show (Item.binary operator).Formed from trivial) isOperand).symm
  have noSymbol : BinaryOp.ofSymbol? item.word = none :=
    List.find?_eq_none.2 fun operator _ => by simpa using notBinary operator
  rw [ofWord, if_neg (notUnary .not), noSymbol]
  exact ⟨notUnary .negate, rfl⟩

theorem ofWord_of_minus? (formed : item.Formed) (minus : item.minus? = none) :
    item.word ≠ UnaryOp.negate.symbol ∧ ofWord item.word = item.verbatim := by
  cases item with
  | number text => exact ofWord_of_operand formed (by simp [shape])
  | designator target => exact ofWord_of_operand formed (by simp [shape])
  | unary operator =>
      cases operator with
      | negate => contradiction
      | not => exact ⟨by decide, rfl⟩
  | binary operator =>
      cases operator with
      | subtract => contradiction
      | _ => exact ⟨by decide, by decide⟩

/-- The words of items ask for the items. -/
theorem ofWords_map_word {items : List Item} (formed : ∀ item ∈ items, item.Formed) :
    ofWords (minuses items) (items.map word) = items.map verbatim := by
  induction items with
  | nil => rfl
  | cons item rest ih =>
      rw [List.forall_mem_cons] at formed
      rw [List.map_cons, ofWords, minuses, List.filterMap_cons, List.map_cons]
      cases minus : item.minus? with
      | none =>
          have asks := ofWord_of_minus? formed.1 minus
          rw [if_neg asks.1, asks.2]
          exact congrArg (item.verbatim :: ·) (ih formed.2)
      | some takesTwo =>
          have asks := ofMinus_of_minus? minus
          rw [if_pos asks.1]
          exact List.cons_eq_cons.2 ⟨asks.2, ih formed.2⟩

end Item

namespace Expr

/-- What a stack machine makes of a fragment, if it is told of each minus sign
in turn whether it takes two operands. -/
def decode (signs : List Bool) (fragment : String) : Option Expr :=
  Item.recover (Item.ofWords signs (wordsOf fragment))

/-- The machine finds out which operators apply to which operands. -/
theorem decode_fragment {expr : Expr} (formed : expr.Formed) :
    decode (Item.minuses expr.items) expr.fragment = some expr.verbatim := by
  rw [decode, wordsOf_fragment formed, words_eq_map_items,
    Item.ofWords_map_word (formed_of_mem_items formed), ← items_verbatim, recover_items]

end Expr

end StackCompiler
