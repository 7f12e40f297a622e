import StackCompiler.Proofs.Grammar.Samples

/-!
# Programs as texts

Every program can be written such that it is derived from what is written
(`Expr.tree_written`, `Stmt.tree_written`): with parentheses around every
operand that is neither a number nor a designator, and around a number behind a
minus sign, which would take the sign in otherwise. Every declaration has a line
of its own. What is written needs no more operator links than nesting levels.
-/

namespace StackCompiler

/-! ### Numbers -/

/-- What stands behind the minus sign at the beginning of a text, if there is one. -/
def unsigned? (text : String) : Option String :=
  match text.toList with
  | '-' :: rest => some (String.ofList rest)
  | _ => none

theorem unsigned?_eq_some_iff {text rest : String} :
    unsigned? text = some rest ↔ text.toList = '-' :: rest.toList := by
  unfold unsigned?
  split
  next found written =>
    rw [written, Option.some.injEq, List.cons.injEq, ← String.toList_inj,
      String.toList_ofList]
    exact ⟨fun same => ⟨rfl, same⟩, And.right⟩
  next noSign =>
    constructor
    · intro found
      contradiction
    · intro written
      exact absurd written (noSign rest.toList)

theorem eq_of_unsigned? {text rest : String} (signed : unsigned? text = some rest) :
    "-" ++ rest = text := by
  rw [← String.toList_inj, unsigned?_eq_some_iff.1 signed, String.toList_append]
  rfl

/-- The literal with a text. -/
def Literal.ofText (text : String) : Literal :=
  if '.' ∈ text.toList then .double text else .integer text

@[simp] theorem Literal.text_ofText (text : String) : (ofText text).text = text := by
  unfold ofText
  split <;> rfl

/-! ### Phrases -/

namespace Phrase

/-- A number with its sign, if it has one. -/
def numeral (text : String) : Phrase .operand :=
  match unsigned? text with
  | some digits => prefixed .negate (number (.ofText digits))
  | none => number (.ofText text)

/-- An operator of a level between two operands. -/
def joined (operator : BinaryOp) (left right : Phrase .operand) {level : Level}
    (ofLevel : operator.level = level) : Phrase (.level level) :=
  if same : level = .comparison then
    same ▸ compare (left.ofOperand _) operator (ofLevel.trans same) (right.ofOperand _)
  else link same (left.ofOperand _) operator ofLevel (right.ofOperand _)

/-- A phrase of some level of operators as a whole expression. -/
def widened : {level : Level} → Phrase (.level level) → Phrase .whole
  | .disjunction, phrase => phrase
  | .conjunction, phrase => @single .disjunction phrase
  | .comparison, phrase => @single .disjunction (@single .conjunction phrase)
  | .sum, phrase =>
      @single .disjunction (@single .conjunction (@single .comparison phrase))
  | .product, phrase =>
    @single .disjunction
      (@single .conjunction (@single .comparison (@single .sum phrase)))

theorem tree_numeral (text : String) : (numeral text).tree = .number text := by
  unfold numeral
  split
  next digits signed =>
    rw [← eq_of_unsigned? signed]
    change Expr.number ("-" ++ (Literal.ofText digits).text) = _
    rw [Literal.text_ofText]
  next => exact congrArg Expr.number (Literal.text_ofText text)

theorem nest_numeral (text : String) : (numeral text).nest = 1 := by
  unfold numeral
  split <;> rfl

theorem peak_numeral (text : String) : (numeral text).peak = 0 := by
  unfold numeral
  split <;> rfl

theorem links_ofOperand (operand : Phrase .operand) (level : Level) :
    (operand.ofOperand (.level level)).links = 0 := by
  cases level <;> rfl

section

variable (operator : BinaryOp) (left right : Phrase .operand) {level : Level}
  (ofLevel : operator.level = level)

theorem lexemes_joined :
    (joined operator left right ofLevel).lexemes =
      left.lexemes ++ .mark operator.symbol :: right.lexemes := by
  unfold joined
  split
  next same =>
    subst same
    rw [lexemes, lexemes_ofOperand, lexemes_ofOperand]
  next => rw [lexemes, lexemes_ofOperand, lexemes_ofOperand]

theorem tree_joined :
    (joined operator left right ofLevel).tree =
      .binary operator left.tree right.tree := by
  unfold joined
  split
  next same =>
    subst same
    rw [tree, tree_ofOperand, tree_ofOperand]
  next => rw [tree, tree_ofOperand, tree_ofOperand]

theorem nest_joined :
    (joined operator left right ofLevel).nest = max left.nest right.nest := by
  unfold joined
  split
  next same =>
    subst same
    rw [nest, nest_ofOperand, nest_ofOperand]
  next => rw [nest, nest_ofOperand, nest_ofOperand]

theorem peak_joined_le :
    (joined operator left right ofLevel).peak ≤ max left.peak (right.peak + 1) := by
  unfold joined
  split
  next same =>
    subst same
    rw [peak, peak_ofOperand, peak_ofOperand]
    omega
  next =>
    rw [peak, peak_ofOperand, peak_ofOperand, links_ofOperand]
    omega

end

section

variable {level : Level} (phrase : Phrase (.level level))

theorem lexemes_widened : phrase.widened.lexemes = phrase.lexemes := by
  cases level <;> rfl

theorem tree_widened : phrase.widened.tree = phrase.tree := by cases level <;> rfl

theorem nest_widened : phrase.widened.nest = phrase.nest := by cases level <;> rfl

theorem peak_widened : phrase.widened.peak = phrase.peak := by cases level <;> rfl

end

end Phrase

/-! ### Expressions -/

/-- An integer with its sign, if it has one, as a subscript. -/
def Index.numeral (text : String) : Index :=
  match unsigned? text with
  | some digits => .negative digits
  | none => .literal text

theorem Index.tree_numeral (text : String) : (numeral text).tree = .literal text := by
  unfold numeral
  split
  next digits signed => exact congrArg Subscript.literal (eq_of_unsigned? signed)
  next => rfl

/-- A subscript as it is written. -/
def Subscript.written : Subscript → Index
  | literal text => .numeral text
  | identifier name => .identifier name

theorem Subscript.tree_written (subscript : Subscript) :
    subscript.written.tree = subscript := by
  cases subscript with
  | literal text => exact Index.tree_numeral text
  | identifier name => rfl

/-- A designator as it is written. -/
def Designator.written (designator : Designator) : Target :=
  ⟨designator.name, designator.subscripts.map Subscript.written⟩

theorem Designator.tree_written (designator : Designator) :
    designator.written.tree = designator := by
  rw [written, Target.tree, List.map_map]
  have same : Index.tree ∘ Subscript.written = id := funext Subscript.tree_written
  rw [same, List.map_id]

namespace Expr

/-- An expression as an operand, given how it is written otherwise: in
parentheses, unless it is a leaf. -/
def operand (otherwise : Phrase .whole) : Expr → Phrase .operand
  | number text => .numeral text
  | designator target => .designator target.written
  | unary _ _ | binary _ _ _ => .parens otherwise

/-- An expression behind a prefix operator, given how it is written otherwise:
as an operand, but a number behind a minus sign is in parentheses. -/
def argument (operator : UnaryOp) (otherwise : Phrase .whole) (expr : Expr) :
    Phrase .operand :=
  match operator, expr with
  | .negate, number _ => .parens otherwise
  | _, _ => expr.operand otherwise

/-- An expression as it is written. -/
def written : Expr → Phrase .whole
  | number text => (Phrase.numeral text).ofOperand .whole
  | designator target => (Phrase.designator target.written).ofOperand .whole
  | unary operator operand =>
    (Phrase.prefixed operator (operand.argument operator operand.written)).ofOperand
      .whole
  | binary operator left right =>
    (Phrase.joined operator (left.operand left.written)
      (right.operand right.written) rfl).widened

section

variable {expr : Expr} {otherwise : Phrase .whole}

theorem tree_operand (same : otherwise.tree = expr) :
    (expr.operand otherwise).tree = expr := by
  cases expr with
  | number text => exact Phrase.tree_numeral text
  | designator target => exact congrArg Expr.designator target.tree_written
  | unary operator operand => exact same
  | binary operator left right => exact same

theorem tree_argument (operator : UnaryOp) (same : otherwise.tree = expr) :
    (expr.argument operator otherwise).tree = expr := by
  unfold argument
  split
  next => exact same
  next => exact tree_operand same

/-- No minus sign is taken in by the number behind it. -/
theorem folded?_argument (operator : UnaryOp) :
    Phrase.folded? operator (expr.argument operator otherwise) = none := by
  cases operator with
  | not => rfl
  | negate => cases expr <;> rfl

theorem peak_operand_lt (few : otherwise.peak ≤ otherwise.nest) :
    (expr.operand otherwise).peak < (expr.operand otherwise).nest := by
  cases expr with
  | number text =>
      rw [operand, Phrase.peak_numeral, Phrase.nest_numeral]
      exact Nat.zero_lt_one
  | designator target => exact Nat.zero_lt_one
  | unary operator operand | binary operator left right =>
      rw [Expr.operand, Phrase.peak, Phrase.nest]
      omega

theorem peak_argument_lt (operator : UnaryOp) (few : otherwise.peak ≤ otherwise.nest) :
    (expr.argument operator otherwise).peak <
      (expr.argument operator otherwise).nest := by
  unfold argument
  split
  next =>
    rw [Phrase.peak, Phrase.nest]
    omega
  next => exact peak_operand_lt few

end

/-- What is written of an expression derives it. -/
theorem tree_written (expr : Expr) : expr.written.tree = expr := by
  induction expr with
  | number text => rw [written, Phrase.tree_ofOperand, Phrase.tree_numeral]
  | designator target =>
      rw [written, Phrase.tree_ofOperand, Phrase.tree, Designator.tree_written]
  | unary operator operand ih =>
      rw [written, Phrase.tree_ofOperand, Phrase.tree_of_not_folded
          (folded?_argument operator), tree_argument operator ih]
  | binary operator left right ihLeft ihRight =>
      rw [written, Phrase.tree_widened, Phrase.tree_joined, tree_operand ihLeft,
        tree_operand ihRight]

/-- With all the parentheses, no more operators link operands at the same time
than there are nesting levels. -/
theorem peak_written_le (expr : Expr) : expr.written.peak ≤ expr.written.nest := by
  induction expr with
  | number text =>
      rw [written, Phrase.peak_ofOperand, Phrase.peak_numeral]
      exact Nat.zero_le _
  | designator target =>
      rw [written, Phrase.peak_ofOperand]
      exact Nat.zero_le _
  | unary operator operand ih =>
      have fewer := @peak_argument_lt operand _ operator ih
      rw [written, Phrase.peak_ofOperand, Phrase.nest_ofOperand, Phrase.peak,
        Phrase.nest, folded?_argument]
      simp only [Option.isSome_none, Bool.false_eq_true, if_false]
      omega
  | binary operator left right ihLeft ihRight =>
      have fewerLeft := @peak_operand_lt left _ ihLeft
      have fewerRight := @peak_operand_lt right _ ihRight
      have links := Phrase.peak_joined_le operator (left.operand left.written)
        (right.operand right.written) rfl
      rw [written, Phrase.peak_widened, Phrase.nest_widened, Phrase.nest_joined]
      omega

end Expr

/-! ### Statements -/

namespace Stmt

mutual

/-- A statement as it is written. -/
def written : Stmt → Sentence
  | block body => .block (writtenAll body)
  | ifThen condition consequence => .ifThen condition.written consequence.written
  | ifElse condition consequence alternative =>
    .ifElse condition.written consequence.written alternative.written
  | loop condition body => .loop condition.written body.written
  | print value => .print value.written
  | assign target value => .assign target.written value.written

/-- Statements as they are written. -/
def writtenAll : List Stmt → List Sentence
  | [] => []
  | first :: rest => first.written :: writtenAll rest

end

mutual

/-- What is written of a statement derives it. -/
theorem tree_written : (stmt : Stmt) → stmt.written.tree = stmt
  | block body => by rw [written, Sentence.tree, tree_writtenAll body]
  | ifThen condition consequence => by
      rw [written, Sentence.tree, condition.tree_written, consequence.tree_written]
  | ifElse condition consequence alternative => by
      rw [written, Sentence.tree, condition.tree_written, consequence.tree_written,
        alternative.tree_written]
  | loop condition body => by
      rw [written, Sentence.tree, condition.tree_written, body.tree_written]
  | print value => by rw [written, Sentence.tree, value.tree_written]
  | assign target value => by
      rw [written, Sentence.tree, target.tree_written, value.tree_written]

theorem tree_writtenAll : (body : List Stmt) → Sentence.treeAll (writtenAll body) = body
  | [] => rfl
  | first :: rest => by
      rw [writtenAll, Sentence.treeAll, first.tree_written, tree_writtenAll rest]

end

theorem writtenAll_eq_map (body : List Stmt) : writtenAll body = body.map written := by
  induction body with
  | nil => rfl
  | cons first rest ih => rw [writtenAll, ih, List.map_cons]

mutual

theorem peak_written_le : (stmt : Stmt) → stmt.written.peak ≤ stmt.written.nest
  | block body => by
      have inner := peakAll_writtenAll_le body
      rw [written, Sentence.peak, Sentence.nest]
      omega
  | ifThen condition consequence => by
      have few := condition.peak_written_le
      have inner := consequence.peak_written_le
      rw [written, Sentence.peak, Sentence.nest]
      omega
  | ifElse condition consequence alternative => by
      have few := condition.peak_written_le
      have inner := consequence.peak_written_le
      have innerElse := alternative.peak_written_le
      rw [written, Sentence.peak, Sentence.nest]
      omega
  | loop condition body => by
      have few := condition.peak_written_le
      have inner := body.peak_written_le
      rw [written, Sentence.peak, Sentence.nest]
      omega
  | print value => by
      have few := value.peak_written_le
      rw [written, Sentence.peak, Sentence.nest]
      omega
  | assign target value => by
      have few := value.peak_written_le
      rw [written, Sentence.peak, Sentence.nest]
      omega

theorem peakAll_writtenAll_le : (body : List Stmt) →
    Sentence.peakAll (writtenAll body) ≤ Sentence.nestAll (writtenAll body)
  | [] => Nat.le_refl _
  | first :: rest => by
      have few := first.peak_written_le
      have inner := peakAll_writtenAll_le rest
      rw [writtenAll, Sentence.peakAll, Sentence.nestAll]
      omega

end

end Stmt

/-! ### Programs -/

/-- A declaration as it is written, on a line of its own. -/
def Declaration.written (declaration : Declaration) : List Lexeme :=
  .keyword declaration.type.keyword :: .identifier declaration.name ::
    (declaration.dims.flatMap
        (fun dim => [.mark "[", .integer (toString dim), .mark "]"]) ++ [.mark ";"])

namespace CompilationUnit

/-- The lexemes that a program is written with. -/
def written (unit : CompilationUnit) : List Lexeme :=
  unit.declarations.flatMap Declaration.written ++
    (Stmt.writtenAll unit.body).flatMap Sentence.lexemes

/-- The text of a program, with a space between any two lexemes. -/
def text (unit : CompilationUnit) : String := Lexeme.spaced unit.written

end CompilationUnit

end StackCompiler
