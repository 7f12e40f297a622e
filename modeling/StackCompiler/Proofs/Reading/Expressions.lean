import StackCompiler.Proofs.Reading.Chains
import StackCompiler.Proofs.Reading.Designators

/-!
# Expressions are read by the grammar

The parser of expressions reads exactly the phrases of the grammar that the
limits allow. A phrase that nests more deeply than the levels left is not read,
so reading has to start with all levels there are.
-/

namespace StackCompiler

/-- Whether a phrase does not begin with a prefix operator. -/
def Phrase.Bare : {rank : Rank} → Phrase rank → Prop
  | _, prefixed _ _ => False
  | _, _ => True

theorem Phrase.head?_lexemes_ne_sign {phrase : Phrase .operand} (bare : phrase.Bare)
    (operator : UnaryOp) (after : List Lexeme) :
    (phrase.lexemes ++ after).head? ≠ some (.mark operator.symbol) := by
  cases phrase with
  | number literal => cases literal <;> simp [lexemes, Literal.lexeme]
  | designator target => simp [lexemes, Target.lexemes]
  | prefixed operator operand => contradiction
  | parens content => cases operator <;> simp [lexemes, UnaryOp.symbol]

namespace Language

/-- The operands of which at most `levels` nesting levels lie inside. -/
def inside (levels : Nat) : Language Expr :=
  { phrase levels .operand with Fits budget phrase :=
    phrase.nest ≤ levels + 1 ∧ budget.Allows (phrase.nest - 1) phrase.peak }

/-- Those of them that do not begin with a prefix operator. -/
def bare (levels : Nat) : Language Expr :=
  { inside levels with
    Fits budget phrase := phrase.Bare ∧ (inside levels).Fits budget phrase }

theorem inside_number_fits (levels : Nat) (budget : Budget) (literal : Literal) :
    (inside levels).Fits budget (Phrase.number literal) :=
  ⟨Nat.le_add_left _ _, budget.allows_zero⟩

theorem inside_designator_fits (levels : Nat) (budget : Budget) (written : Target) :
    (inside levels).Fits budget (Phrase.designator written) :=
  ⟨Nat.le_add_left _ _, budget.allows_zero⟩

theorem inside_parens_fits_iff {levels : Nat} {budget : Budget}
    {content : Phrase .whole} :
    (inside levels).Fits budget (Phrase.parens content) ↔
    (phrase levels .whole).Fits budget content := by
  simp only [inside, phrase, Phrase.nest, Phrase.peak, Budget.Allows]
  omega

theorem inside_folded_fits {levels : Nat} {budget : Budget} {operator : UnaryOp}
    {operand : Phrase .operand} {literal : Literal}
    (folded : Phrase.folded? operator operand = some literal) :
    (inside levels).Fits budget (Phrase.prefixed operator operand) := by
  cases operator with
  | not => contradiction
  | negate =>
      obtain rfl := Phrase.eq_number_of_literal? folded
      exact ⟨Nat.le_add_left _ _, budget.allows_zero⟩

theorem inside_prefixed_fits_iff {levels : Nat} {budget : Budget} {operator : UnaryOp}
    {operand : Phrase .operand} (notFolded : Phrase.folded? operator operand = none) :
    (inside levels).Fits budget (Phrase.prefixed operator operand) ↔
      (phrase levels .operand).Fits budget operand := by
  simp only [inside, phrase, Phrase.nest, Phrase.peak, Budget.Allows, notFolded,
    Option.isSome_none, Bool.false_eq_true, if_false]
  omega

/-- The level that an operand takes by itself is the one that is opened for it. -/
theorem deepened_inside_fits_iff {levels : Nat} {budget : Budget}
    {operand : Phrase .operand} :
    (inside levels).deepened.Fits budget operand ↔
    (phrase (levels + 1) .operand).Fits budget operand := by
  have positive := operand.nest_pos
  have room :=
    @Budget.exists_deepen?_and_allows_iff budget (operand.nest - 1) operand.peak
  rw [Nat.sub_add_cancel positive] at room
  constructor
  · intro holds
    rcases holds with ⟨deeper, opened, enough, allows⟩
    exact ⟨enough, room.1 ⟨deeper, opened, allows⟩⟩
  · intro holds
    rcases holds with ⟨enough, allows⟩
    obtain ⟨deeper, opened, allowsInside⟩ := room.2 allows
    exact ⟨deeper, opened, enough, allowsInside⟩

end Language

namespace Expr

open StackCompiler.Parser

variable {level : Level} {levels : Nat} {operand : Parser Expr} {before after : Cursor}

/-! ### Levels -/

/-- Reads a phrase of a rank, given how to read an operand. -/
def rankOver (operand : Parser Expr) : Rank → Parser Expr
  | .operand => operand
  | .level .product => chain .product operand
  | .level .sum => chain .sum (chain .product operand)
  | .level .comparison => comparison (chain .sum (chain .product operand))
  | .level .conjunction =>
      chain .conjunction (comparison (chain .sum (chain .product operand)))
  | .level .disjunction => readOver operand

theorem rankOver_level (grouped : level ≠ .comparison) (operand : Parser Expr) :
    rankOver operand (.level level) = chain level (rankOver operand level.tighter) := by
  cases level with
  | comparison => contradiction
  | _ => rfl

/-- The phrases of one rank after the other are read, from the tightest on. -/
theorem rankOver_induction {motive : Rank → Parser Expr → Prop}
    (atOperand : motive .operand operand)
    (atChain : ∀ {level : Level} {tighter : Parser Expr}, level ≠ .comparison →
      motive level.tighter tighter →
      motive (.level level) (chain level tighter))
    (atComparison : ∀ {sum : Parser Expr}, motive (.level .sum) sum →
      motive (.level .comparison) (comparison sum))
    (rank : Rank) : motive rank (rankOver operand rank) := by
  have product := @atChain .product operand (by decide) atOperand
  have sum := @atChain .sum _ (by decide) product
  have conjunction := @atChain .conjunction _ (by decide) (atComparison sum)
  cases rank with
  | operand => exact atOperand
  | level level =>
      cases level with
      | product => exact product
      | sum => exact sum
      | comparison => exact atComparison sum
      | conjunction => exact conjunction
      | disjunction => exact @atChain .disjunction _ (by decide) conjunction

theorem reads_rankOver (reads : operand.Reads (.phrase levels .operand)) (rank : Rank) :
    (rankOver operand rank).Reads (.phrase levels rank) :=
  rankOver_induction
    (motive := fun rank parser => parser.Reads (.phrase levels rank)) reads reads_chain
    reads_comparison rank

/-- An expression is read level by level. -/
theorem reads_readOver (reads : operand.Reads (.phrase levels .operand)) :
    (readOver operand).Reads (.phrase levels .whole) := reads_rankOver reads .whole

/-! ### Literals and designators -/

theorem number?_eq_some_iff {token : Token} {text : String} :
    token.number? = some text ↔
    ∃ literal : Literal, literal.text = text ∧ token.lexeme = literal.lexeme := by
  obtain ⟨kind, written, loc, line⟩ := token
  constructor
  · intro found
    cases kind <;> simp only [Token.number?, reduceCtorEq, or_self, or_true, true_or,
        if_false, if_true,
      Option.some.injEq] at found
    · exact ⟨.integer written, found, rfl⟩
    · exact ⟨.double written, found, rfl⟩
  · intro accepted
    rcases accepted with ⟨literal, rfl, same⟩
    cases literal with
    | integer text =>
        simp only [Token.lexeme, Literal.lexeme, Lexeme.mk.injEq] at same
        simp [Token.number?, same, Literal.text]
    | double text =>
        simp only [Token.lexeme, Literal.lexeme, Lexeme.mk.injEq] at same
        simp [Token.number?, same, Literal.text]

theorem takeIf?_number?_eq_some_iff {text : String} :
    takeIf? Token.number? before = .ok (some text) after ↔
    after.budget = before.budget ∧
    ∃ literal : Literal, literal.text = text ∧
      Spells [literal.lexeme] before.rest after.rest := by
  simp only [takeIf?_eq_some_iff, number?_eq_some_iff, Spells.cons_iff, Spells.nil_iff]
  constructor
  · intro accepted
    rcases accepted with ⟨same, token, taken, literal, isText, written⟩
    exact ⟨same, literal, isText, token, _, taken, written, rfl⟩
  · intro derived
    rcases derived with ⟨same, literal, isText, token, _, taken, written, rfl⟩
    exact ⟨same, token, taken, literal, isText, written⟩

theorem takeIf?_number?_eq_none_iff :
    takeIf? Token.number? before = .ok none after ↔
      (∀ literal : Literal, before.next? ≠ some literal.lexeme) ∧ before = after := by
  rw [takeIf?_eq_none_iff, Cursor.next?]
  cases before.rest.head? with
  | none => simp
  | some token =>
      simp only [Option.bind_some, Option.eq_none_iff_forall_ne_some, ne_eq,
        number?_eq_some_iff, Option.map_some, Option.some.injEq, and_congr_left_iff]
      intro _
      constructor
      · intro noNumber literal written
        exact noNumber _ ⟨literal, rfl, written⟩
      · intro noNumber _ accepted
        rcases accepted with ⟨literal, _, written⟩
        exact noNumber literal written

/-! ### Operands -/

theorem reads_primary (reads : operand.Reads (.phrase levels .operand)) :
    (primary operand).Reads (.bare levels) := by
  intro before result after
  simp only [primary, bind_eq_ok_iff, Bool.exists_bool, Bool.false_eq_true, if_false,
    if_true, acceptPunctuator_eq_false_iff, acceptPunctuator_eq_true_iff,
    punctuator_eq_ok_iff, pure_eq_ok_iff, (reads_readOver reads).iff]
  constructor
  · intro accepted
    rcases accepted with ⟨_, ⟨_, rfl⟩, found, here, taken, rest⟩ | ⟨opened,
        ⟨sameOpen, spellsOpen⟩, _, closed, ⟨sameClosed, content, rfl, fits, spells, _⟩,
        _, _, ⟨same, spellsClose⟩, rfl, rfl⟩
    · cases found with
      | none =>
          obtain ⟨_, rfl⟩ := takeIf?_number?_eq_none_iff.1 taken
          obtain ⟨_, rest⟩ := peekIdentifier_eq_ok_iff.1 rest
          obtain ⟨target, _, readsTarget, returns⟩ := bind_eq_ok_iff.1 rest
          obtain ⟨rfl, rfl⟩ := pure_eq_ok_iff.1 returns
          obtain ⟨same, written, rfl, _, spells, closed⟩ :=
            reads_readDesignator.iff.1 readsTarget
          exact ⟨same, .designator written, rfl,
            ⟨trivial, Language.inside_designator_fits _ _ _⟩, spells, closed⟩
      | some text =>
          obtain ⟨same, literal, rfl, spells⟩ := takeIf?_number?_eq_some_iff.1 taken
          obtain ⟨rfl, rfl⟩ := pure_eq_ok_iff.1 rest
          exact ⟨same, .number literal, rfl,
            ⟨trivial, Language.inside_number_fits _ _ _⟩, spells, trivial⟩
    · rw [sameOpen] at fits
      refine ⟨same.trans (sameClosed.trans sameOpen), .parens content, rfl,
        ⟨trivial, Language.inside_parens_fits_iff.2 fits⟩, ?_, trivial⟩
      exact Spells.uncons_iff.2
        ⟨_, spellsOpen, Spells.append_iff.2 ⟨_, spells, spellsClose⟩⟩
  · intro derived
    rcases derived with ⟨same, phrase, rfl, ⟨bare, fits⟩, spells, closed⟩
    have next : before.next? = (phrase.lexemes ++ after.rest.map Token.lexeme).head? :=
      spells.map_lexeme_head?
    cases phrase with
    | number literal =>
        refine .inl ⟨before, ⟨?_, rfl⟩, some literal.text, after,
          takeIf?_number?_eq_some_iff.2 ⟨same, literal, rfl, spells⟩,
          pure_eq_ok_iff.2 ⟨rfl, rfl⟩⟩
        cases literal <;> simp [next, Phrase.lexemes, Literal.lexeme]
    | designator written =>
        have readsTarget : readDesignator before = .ok written.tree after :=
          reads_readDesignator.iff.2 ⟨same, written, rfl, trivial, spells, closed⟩
        refine .inl ⟨before, ⟨?_, rfl⟩, none, before,
          takeIf?_number?_eq_none_iff.2 ⟨?_, rfl⟩, peekIdentifier_eq_ok_iff.2
            ⟨next?_of_readDesignator readsTarget, bind_eq_ok_iff.2
                ⟨written.tree, after, readsTarget, pure_eq_ok_iff.2 ⟨rfl, rfl⟩⟩⟩⟩
        · simp [next, Phrase.lexemes, Target.lexemes]
        · intro literal
          cases literal <;> simp [next, Phrase.lexemes, Target.lexemes, Literal.lexeme]
    | prefixed operator operand => contradiction
    | parens content =>
        obtain ⟨opened, spellsOpen, spells⟩ := Spells.uncons_iff.1 spells
        obtain ⟨rest, spellsContent, spellsClose⟩ := Spells.append_iff.1 spells
        have closedContent : content.Closed (Cursor.next? ⟨rest, before.budget⟩) := by
          rw [Cursor.next?, spellsClose.map_lexeme_head?]
          exact content.closed_of_mark (by decide) (by decide)
        exact .inr ⟨⟨opened, before.budget⟩, ⟨rfl, spellsOpen⟩, content.tree,
          ⟨rest, before.budget⟩, ⟨rfl, content, rfl,
            Language.inside_parens_fits_iff.1 fits, spellsContent, closedContent⟩,
          ⟨⟩, after, ⟨same, spellsClose⟩, rfl, rfl⟩

/-- An operand is read with one level taken by itself. -/
theorem reads_operandOver (reads : operand.Reads (.phrase levels .operand)) :
    (operandOver operand).Reads (.inside levels) := by
  intro before result after
  simp only [operandOver, bind_eq_ok_iff, Bool.exists_bool, Bool.false_eq_true,
    if_false, if_true, acceptPunctuator_eq_false_iff, acceptPunctuator_eq_true_iff,
    Option.exists, pure_eq_ok_iff, takeIf?_number?_eq_some_iff,
    takeIf?_number?_eq_none_iff, reads.iff, (reads_primary reads).iff]
  constructor
  · intro accepted
    rcases accepted with
      ⟨_, ⟨_, rfl⟩,
        ⟨_, ⟨_, rfl⟩, same, phrase, rfl, ⟨_, fits⟩, spells, closed⟩ |
        ⟨between, ⟨sameSign, spellsSign⟩, _, _,
          ⟨same, phrase, rfl, fits, spells, closed⟩, rfl, rfl⟩⟩ |
      ⟨between, ⟨sameSign, spellsSign⟩, ⟨_, ⟨noLiteral, rfl⟩, _, _,
        ⟨same, phrase, rfl, fits, spells, closed⟩, rfl, rfl⟩ |
        ⟨_, _, ⟨same, literal, rfl, spells⟩, rfl, rfl⟩⟩
    · exact ⟨same, phrase, rfl, fits, spells, closed⟩
    · rw [sameSign] at fits
      exact ⟨same.trans sameSign, .prefixed .not phrase, rfl,
        (Language.inside_prefixed_fits_iff rfl).2 fits,
        Spells.uncons_iff.2 ⟨_, spellsSign, spells⟩, closed⟩
    · have notFolded : Phrase.folded? .negate phrase = none := by
        apply Option.eq_none_iff_forall_ne_some.2
        intro literal consists
        obtain rfl := Phrase.eq_number_of_literal? consists
        exact noLiteral literal spells.map_lexeme_head?
      rw [sameSign] at fits
      exact ⟨same.trans sameSign, .prefixed .negate phrase,
        Phrase.tree_of_not_folded notFolded,
        (Language.inside_prefixed_fits_iff notFolded).2 fits,
        Spells.uncons_iff.2 ⟨_, spellsSign, spells⟩, closed⟩
    · exact ⟨same.trans sameSign, .prefixed .negate (.number literal), rfl,
        Language.inside_folded_fits rfl,
        Spells.uncons_iff.2 ⟨_, spellsSign, spells⟩, trivial⟩
  · intro derived
    rcases derived with ⟨same, phrase, rfl, fits, spells, closed⟩
    have next : before.next? = (phrase.lexemes ++ after.rest.map Token.lexeme).head? :=
      spells.map_lexeme_head?
    by_cases bare : phrase.Bare
    next =>
      refine .inl ⟨before, ⟨?_, rfl⟩,
        .inl ⟨before, ⟨?_, rfl⟩, same, phrase, rfl, ⟨bare, fits⟩, spells, closed⟩⟩
      · rw [next]
        exact Phrase.head?_lexemes_ne_sign bare .negate _
      · rw [next]
        exact Phrase.head?_lexemes_ne_sign bare .not _
    next =>
      cases phrase with
      | prefixed operator operand =>
          obtain ⟨between, spellsSign, spellsOperand⟩ := Spells.uncons_iff.1 spells
          cases operator with
          | not =>
              have fits := (Language.inside_prefixed_fits_iff rfl).1 fits
              refine .inl ⟨before, ⟨?_, rfl⟩,
                .inr ⟨⟨between, before.budget⟩, ⟨rfl, spellsSign⟩, operand.tree, after,
                  ⟨same, operand, rfl, fits, spellsOperand, closed⟩, rfl, rfl⟩⟩
              simp [next, Phrase.lexemes, UnaryOp.symbol]
          | negate =>
              refine .inr ⟨⟨between, before.budget⟩, ⟨rfl, spellsSign⟩, ?_⟩
              cases folded : Phrase.folded? .negate operand with
              | none =>
                  have fits := (Language.inside_prefixed_fits_iff folded).1 fits
                  refine .inl ⟨_, ⟨?_, rfl⟩, operand.tree, after,
                    ⟨same, operand, rfl, fits, spellsOperand, closed⟩,
                    (Phrase.tree_of_not_folded folded).symm, rfl⟩
                  intro literal
                  rw [Cursor.next?, spellsOperand.map_lexeme_head?]
                  exact Phrase.head?_lexemes_ne_literal folded literal _
              | some literal =>
                  obtain rfl := Phrase.eq_number_of_literal? folded
                  exact .inr ⟨literal.text, after,
                    ⟨same, literal, rfl, spellsOperand⟩, rfl, rfl⟩
      | _ => exact absurd trivial bare

/-- At most as many operands are read within each other as there are levels. -/
theorem reads_operandWithin (levels : Nat) :
    (operandWithin levels).Reads (.phrase levels .operand) := by
  induction levels with
  | zero =>
      intro before result after
      rw [operandWithin, throw_eq_ok_iff]
      constructor
      · exact False.elim
      · intro accepted
        rcases accepted with ⟨_, phrase, _, ⟨tooDeep, _⟩, _⟩
        exact absurd phrase.nest_pos (by omega)
  | succ levels ih =>
      apply (reads_operandOver ih).nested.congr
      exact fun budget phrase => Language.deepened_inside_fits_iff

/-- Expressions are read by the grammar. -/
theorem reads_read : Expr.read.Reads (.phrase maxNesting .whole) :=
  reads_readOver (reads_operandWithin maxNesting)

end Expr

end StackCompiler
