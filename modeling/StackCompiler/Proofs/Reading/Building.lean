import StackCompiler.Proofs.Reading.Lookahead
import StackCompiler.Proofs.Reading.Programs

/-!
# How parsers are put together

All parsers are put together from the same primitives, in the same few ways. So
what holds of the primitives, and is kept when parsers are put together, holds
of the parser of programs (`CompilationUnit.holds_read`). In this way programs
are read with one token of lookahead (`CompilationUnit.local_read`).
-/

namespace StackCompiler

namespace Token

variable {α : Type}

/-- The token at no particular place. -/
def erase (token : Token) : Token := { token with loc := 0, line := 0 }

/-- What the token found spells. At the end nothing is spelled, whether there is
a token for the end or none. -/
def spelling? (found : Option Token) : Option Lexeme :=
  (found.filter fun token => !token.isEnd).map lexeme

theorem spelling?_some (token : Token) :
    spelling? (some token) = if token.isEnd then none else some token.lexeme := by
  cases ends : token.isEnd <;> simp [spelling?, ends]

theorem all_isEnd_eq (found : Option Token) :
    found.all isEnd = (spelling? found).isNone := by
  cases found with
  | none => rfl
  | some token => cases ends : token.isEnd <;> simp [spelling?_some, ends]

/-! ### What tokens are put to use for -/

/-- What a token is used for depends on what it spells, if its place does not
matter and the end is of no use. -/
theorem factorsThrough_bind {use? : Token → Option α}
    (placeless : ∀ token, use? token.erase = use? token)
    (useless : ∀ token, token.isEnd = true → use? token = none) :
    Function.FactorsThrough
      (fun found : Option Token => found.bind use?) spelling? := by
  have spelled : ∀ found : Option Token,
      found.bind use? =
        (spelling? found).bind fun lexeme => use? ⟨lexeme.kind, lexeme.text, 0, 0⟩ := by
    intro found
    cases found with
    | none => rfl
    | some token =>
        cases ends : token.isEnd with
        | true =>
            rw [Option.bind_some, useless token ends, spelling?_some, if_pos ends]
            rfl
        | false =>
            rw [spelling?_some, ends, if_neg Bool.false_ne_true]
            exact (placeless token).symm
  intro found other same
  simp only [spelled, same]

theorem textOf?_of_isEnd {kind : Kind} (inner : kind ≠ .endOfInput) {token : Token}
    (ends : token.isEnd = true) : token.textOf? kind = none := by
  rw [isEnd, beq_iff_eq] at ends
  rw [textOf?, ends, if_neg inner.symm]

theorem factorsThrough_textOf? {kind : Kind} (inner : kind ≠ .endOfInput) :
    Function.FactorsThrough
      (fun found : Option Token => found.bind (textOf? kind)) spelling? :=
  factorsThrough_bind (fun _ => rfl) fun _ => textOf?_of_isEnd inner

theorem factorsThrough_filter {kind : Kind} (inner : kind ≠ .endOfInput)
    (wanted : String → Bool) :
    Function.FactorsThrough
      (fun found : Option Token =>
        found.bind fun token => (token.textOf? kind).filter wanted) spelling? := by
  apply factorsThrough_bind (fun _ => rfl)
  intro token ends
  rw [textOf?_of_isEnd inner ends, Option.filter_none]

/-- A token that is put to use for what it spells is not the end. -/
theorem isEnd_of_use {α : Type} {use? : Token → Option α}
    (spelled : Function.FactorsThrough
      (fun found : Option Token => found.bind use?) spelling?) {token : Token}
    {result : α} (used : use? token = some result) : token.isEnd = false := by
  by_contra ends
  have silent : spelling? (some token) = spelling? none := by
    rw [spelling?_some, if_pos (Bool.not_eq_false _ ▸ ends)]
    rfl
  have useless : use? token = none := spelled silent
  rw [used] at useless
  contradiction

theorem factorsThrough_number? :
    Function.FactorsThrough
      (fun found : Option Token => found.bind number?) spelling? := by
  apply factorsThrough_bind (fun _ => rfl)
  intro token ends
  rw [isEnd, beq_iff_eq] at ends
  simp [number?, ends]

theorem factorsThrough_operator? (level : Level) :
    Function.FactorsThrough
      (fun found : Option Token => found.bind (Expr.operator? level)) spelling? := by
  apply factorsThrough_bind (fun _ => rfl)
  intro token ends
  rw [Expr.operator?, punctuator?, textOf?_of_isEnd (by decide) ends]
  rfl

theorem factorsThrough_type? :
    Function.FactorsThrough
      (fun found : Option Token => found.bind Declaration.type?) spelling? := by
  apply factorsThrough_bind (fun _ => rfl)
  intro token ends
  rw [Declaration.type?, keyword?, textOf?_of_isEnd (by decide) ends]
  rfl

end Token

namespace Parser

variable {α : Type}

/-- Whether a property of parsers holds of the primitives that leave the operator links
alone, and of what is put together. Tokens are of use for what they spell, and what is
repeated reads tokens. -/
structure Sequential (Holds : ∀ {α : Type}, Parser α → Prop) : Prop where
  pure : ∀ {α : Type} (value : α), Holds (Pure.pure value)
  throw : ∀ {α : Type} {problem : Problem}, problem ≠ .tooLong →
    Holds (MonadExcept.throw problem : Parser α)
  bind : ∀ {α β : Type} {parser : Parser α} {next : α → Parser β}, Holds parser →
    (∀ result, Holds (next result)) → Holds (parser >>= next)
  peek :
    ∀ {α : Type} {next : Option Token → Parser α}, next.FactorsThrough Token.spelling? →
    (∀ found, Holds (next found)) → Holds (peek? >>= next)
  takeIf? : ∀ {α : Type} {use? : Token → Option α},
    Function.FactorsThrough
      (fun found : Option Token => found.bind use?) Token.spelling? →
    Holds (Parser.takeIf? use?)
  nested : ∀ {α : Type} {body : Parser α}, Holds body → Holds (Parser.nested body)
  many : ∀ {α : Type} {step? : Parser (Option α)}, Holds step? →
    (∀ {start result after}, step? start = .ok (some result) after →
      after.rest.length < start.rest.length) →
    Holds (Parser.many step?)

/-- Whether a property of parsers holds of all primitives, and of what is put
together from parsers with the property. -/
structure Compositional (Holds : ∀ {α : Type}, Parser α → Prop) :
    Prop extends Sequential Holds where
  link : Holds Parser.link
  unlink : ∀ links, Holds (Parser.unlink links)

namespace Sequential

variable {Holds : ∀ {α : Type}, Parser α → Prop} (kept : Sequential Holds)

include kept

theorem cases {accepts : Parser Bool} {yes no : Parser α} (first : Holds accepts)
    (isTaken : Holds yes)
    (isOther : Holds no) : Holds (do if ← accepts then yes else no : Parser α) := by
  apply kept.bind first
  intro found
  cases found with
  | false => exact isOther
  | true => exact isTaken

theorem discard {parser : Parser α} (holds : Holds parser) :
    Holds (Functor.discard parser : Parser PUnit) := by
  have same :
      (Functor.discard parser : Parser PUnit) = parser >>= fun _ => Pure.pure ⟨⟩ := by
    funext start
    change EStateM.map (Function.const α PUnit.unit) parser start =
      EStateM.bind parser _ start
    simp only [EStateM.map, EStateM.bind]
    cases parser start <;> rfl
  rw [same]
  exact kept.bind holds fun _ => kept.pure _

theorem atEnd : Holds Parser.atEnd := by
  apply kept.peek
  · intro found other same
    simp only [Token.all_isEnd_eq, same]
  · exact fun _ => kept.pure _

theorem take (wanted : Wanted) {use? : Token → Option α}
    (spelled : Function.FactorsThrough
      (fun found : Option Token => found.bind use?) Token.spelling?) :
    Holds (Parser.take wanted use?) := by
  apply kept.bind (kept.takeIf? spelled)
  intro found
  cases found with
  | none => exact kept.throw nofun
  | some result => exact kept.pure result

theorem acceptPunctuator (symbol : String) : Holds (Parser.acceptPunctuator symbol) :=
  kept.bind (kept.takeIf? (Token.factorsThrough_filter (by decide) _))
    fun _ => kept.pure _

theorem acceptKeyword (word : String) : Holds (Parser.acceptKeyword word) :=
  kept.bind (kept.takeIf? (Token.factorsThrough_filter (by decide) _))
    fun _ => kept.pure _

theorem punctuator (symbol : String) : Holds (Parser.punctuator symbol) := by
  apply kept.bind (kept.acceptPunctuator symbol)
  intro found
  cases found with
  | false => exact kept.throw nofun
  | true => exact kept.pure _

end Sequential

end Parser

/-! ### Designators -/

namespace Expr

open StackCompiler.Parser

variable {Holds : ∀ {α : Type}, Parser α → Prop} (kept : Sequential Holds)

include kept

theorem holds_subscript : Holds subscript := by
  apply kept.cases (kept.acceptPunctuator "-")
  · exact kept.bind (kept.take _ (Token.factorsThrough_textOf? (by decide)))
      fun _ => kept.pure _
  · apply kept.bind (kept.takeIf? (Token.factorsThrough_textOf? (by decide)))
    intro found
    cases found with
    | none =>
        exact kept.bind (kept.take _ (Token.factorsThrough_textOf? (by decide)))
          fun _ => kept.pure _
    | some text => exact kept.pure _

theorem holds_subscript? : Holds subscript? := by
  apply kept.cases (kept.acceptPunctuator "[")
  · exact kept.bind (holds_subscript kept) fun _ =>
        kept.bind (kept.punctuator "]") fun _ => kept.pure _
  · exact kept.pure none

theorem holds_readDesignator : Holds readDesignator := by
  apply kept.bind (kept.take _ (Token.factorsThrough_textOf? (by decide)))
  intro name
  apply kept.bind (kept.many (holds_subscript? kept) _) fun _ => kept.pure _
  exact readsOn_subscript?.shorter fun _ => List.cons_ne_nil _ _

end Expr

/-! ### Expressions -/

namespace Expr

open StackCompiler.Parser

variable {Holds : ∀ {α : Type}, Parser α → Prop} (kept : Compositional Holds)
  {level : Level} {levels : Nat} {operand : Parser Expr}

include kept

theorem holds_link? (inside : Holds operand) : Holds (link? level operand) := by
  apply kept.bind (kept.takeIf? (Token.factorsThrough_operator? _))
  intro found
  cases found with
  | none => exact kept.pure none
  | some operator =>
      exact kept.bind kept.link fun _ => kept.bind inside fun _ => kept.pure _

theorem holds_chain (reads : operand.Reads (.phrase levels level.tighter))
    (inside : Holds operand) : Holds (chain level operand) := by
  apply kept.bind inside
  intro first
  apply kept.bind (kept.many (holds_link? kept inside) _) fun _ =>
      kept.bind (kept.unlink _) fun _ => kept.pure _
  exact link?_shorter reads

theorem holds_comparison (inside : Holds operand) : Holds (comparison operand) := by
  apply kept.bind inside
  intro left
  apply kept.bind (kept.takeIf? (Token.factorsThrough_operator? _))
  intro found
  cases found with
  | none => exact kept.pure left
  | some operator =>
      apply kept.bind inside
      intro right
      apply kept.peek
      · intro found other same
        have alike : found.bind (operator? .comparison) = other.bind _ :=
          Token.factorsThrough_operator? _ same
        simp only [alike]
      · intro found
        cases found.bind (operator? .comparison) with
        | none => exact kept.pure _
        | some other => exact kept.throw nofun

theorem holds_rankOver (reads : operand.Reads (.phrase levels .operand))
    (inside : Holds operand) (rank : Rank) : Holds (rankOver operand rank) := by
  have both := rankOver_induction
    (motive := fun rank parser => parser.Reads (.phrase levels rank) ∧ Holds parser)
    ⟨reads, inside⟩
    (fun grouped ⟨readsTighter, tighter⟩ =>
      ⟨reads_chain grouped readsTighter, holds_chain kept readsTighter tighter⟩)
    (fun ⟨readsSum, sum⟩ => ⟨reads_comparison readsSum, holds_comparison kept sum⟩)
  exact (both rank).2

theorem holds_readOver (reads : operand.Reads (.phrase levels .operand))
    (inside : Holds operand) : Holds (readOver operand) :=
  holds_rankOver kept reads inside .whole

theorem holds_primary (reads : operand.Reads (.phrase levels .operand))
    (inside : Holds operand) : Holds (primary operand) := by
  apply kept.cases (kept.acceptPunctuator "(")
  · exact kept.bind (holds_readOver kept reads inside) fun _ =>
        kept.bind (kept.punctuator ")") fun _ => kept.pure _
  · apply kept.bind (kept.takeIf? Token.factorsThrough_number?)
    intro found
    cases found with
    | some text => exact kept.pure _
    | none =>
        apply kept.peek
        · intro found other same
          have alike : found.bind Token.identifier? = other.bind Token.identifier? :=
            Token.factorsThrough_textOf? (by decide) same
          simp only [alike]
        · intro found
          cases found.bind Token.identifier? with
          | some name =>
              exact kept.bind (holds_readDesignator kept.toSequential)
                fun _ => kept.pure _
          | none => exact kept.throw nofun

theorem holds_operandOver (reads : operand.Reads (.phrase levels .operand))
    (inside : Holds operand) : Holds (operandOver operand) := by
  apply kept.cases (kept.acceptPunctuator "-")
  · apply kept.bind (kept.takeIf? Token.factorsThrough_number?)
    intro found
    cases found with
    | some text => exact kept.pure _
    | none => exact kept.bind inside fun _ => kept.pure _
  · apply kept.cases (kept.acceptPunctuator "!")
    · exact kept.bind inside fun _ => kept.pure _
    · exact holds_primary kept reads inside

theorem holds_operandWithin (levels : Nat) : Holds (operandWithin levels) := by
  induction levels with
  | zero => exact kept.throw nofun
  | succ levels ih =>
      exact kept.nested (holds_operandOver kept (reads_operandWithin levels) ih)

theorem holds_read : Holds Expr.read :=
  holds_readOver kept (reads_operandWithin maxNesting)
    (holds_operandWithin kept maxNesting)

end Expr

/-! ### Statements -/

section

open StackCompiler.Parser

variable {Holds : ∀ {α : Type}, Parser α → Prop} (kept : Sequential Holds)

include kept

namespace Stmt

variable (expressions : Holds Expr.read) {statement : Parser Stmt}

include expressions in
theorem holds_readCondition : Holds readCondition :=
  kept.bind (kept.punctuator "(") fun _ => kept.bind expressions fun _ =>
    kept.bind (kept.punctuator ")") fun _ => kept.pure _

theorem holds_inBlock? (inside : Holds statement) : Holds (inBlock? statement) := by
  apply kept.cases (kept.acceptPunctuator closeBrace)
  · exact kept.pure none
  · exact kept.cases kept.atEnd (kept.throw nofun)
      (kept.bind inside fun _ => kept.pure _)

include expressions in
theorem holds_readOver {levels : Nat} (reads : statement.Reads (.sentence levels))
    (inside : Holds statement) : Holds (readOver statement) := by
  apply kept.cases (kept.acceptPunctuator openBrace)
  · apply kept.bind (kept.many (holds_inBlock? kept inside) _) fun _ => kept.pure _
    exact (readsOn_inBlock? reads).shorter (lexemes_ne_nil levels)
  apply kept.cases (kept.acceptKeyword "if")
  · apply kept.bind (holds_readCondition kept expressions) fun _ =>
        kept.bind inside fun _ => ?_
    exact kept.cases (kept.acceptKeyword "else") (kept.bind inside fun _ => kept.pure _)
      (kept.pure _)
  apply kept.cases (kept.acceptKeyword "while")
  · exact kept.bind (holds_readCondition kept expressions) fun _ =>
        kept.bind inside fun _ => kept.pure _
  apply kept.cases (kept.acceptKeyword "print")
  · exact kept.bind expressions fun _ =>
        kept.bind (kept.punctuator ";") fun _ => kept.pure _
  apply kept.peek
  · intro found other same
    have alike : found.bind Token.identifier? = other.bind Token.identifier? :=
      Token.factorsThrough_textOf? (by decide) same
    simp only [alike]
  · intro found
    cases found.bind Token.identifier? with
    | some name =>
        exact kept.bind (Expr.holds_readDesignator kept) fun _ =>
            kept.bind (kept.punctuator "=") fun _ =>
          kept.bind expressions fun _ =>
              kept.bind (kept.punctuator ";") fun _ => kept.pure _
    | none => exact kept.throw nofun

include expressions in
theorem holds_readWithin (levels : Nat) : Holds (readWithin levels) := by
  induction levels with
  | zero => exact kept.throw nofun
  | succ levels ih =>
      exact kept.nested (holds_readOver kept expressions (reads_readWithin levels) ih)

include expressions in
theorem holds_another? : Holds another? :=
  kept.cases kept.atEnd (kept.pure none)
    (kept.bind (holds_readWithin kept expressions maxNesting) fun _ => kept.pure _)

include expressions in
theorem holds_readAll : Holds readAll := by
  apply kept.bind (holds_readWithin kept expressions maxNesting)
  intro first
  apply kept.bind (kept.many (holds_another? kept expressions) _) fun _ => kept.pure _
  exact readsOn_another?.shorter (lexemes_ne_nil _)

end Stmt

/-! ### Declarations -/

namespace Declaration

theorem holds_readDim : Holds readDim := by
  apply kept.peek
  · intro found other same
    have alike : found.bind Token.integer? = other.bind Token.integer? :=
      Token.factorsThrough_textOf? (by decide) same
    simp only [alike]
  · intro found
    cases found.bind Token.integer? with
    | none => exact kept.throw nofun
    | some text =>
        cases reads : Text.Decimal.readWord text.toList with
        | error fault =>
            simp only [reads]
            exact kept.throw nofun
        | ok dim =>
            simp only [reads]
            exact kept.bind
              (kept.discard (kept.takeIf? (Token.factorsThrough_textOf? (by decide))))
              fun _ => kept.pure _

theorem holds_dim? : Holds dim? := by
  apply kept.cases (kept.acceptPunctuator "[")
  · exact kept.bind (holds_readDim kept) fun _ =>
        kept.bind (kept.punctuator "]") fun _ => kept.pure _
  · exact kept.pure none

theorem holds_readOne (type : TypeTag) : Holds (readOne type) := by
  apply kept.bind (kept.take _ (Token.factorsThrough_textOf? (by decide)))
  intro name
  apply kept.bind (kept.many (holds_dim? kept) _) fun _ => kept.pure _
  exact readsOn_dim?.shorter fun _ => List.cons_ne_nil _ _

theorem holds_another? (type : TypeTag) : Holds (another? type) :=
  kept.cases (kept.acceptPunctuator ",")
    (kept.bind (holds_readOne kept type) fun _ => kept.pure _) (kept.pure none)

theorem holds_line? : Holds line? := by
  apply kept.bind (kept.takeIf? Token.factorsThrough_type?)
  intro found
  cases found with
  | none => exact kept.pure none
  | some type =>
      apply kept.bind (holds_readOne kept type)
      intro first
      apply kept.bind (kept.many (holds_another? kept type) _) fun _ =>
        kept.bind (kept.punctuator ";") fun _ => kept.pure _
      exact (readsOn_another? type).shorter fun _ => List.cons_ne_nil _ _

theorem holds_readAll : Holds readAll := by
  apply kept.bind (kept.many (holds_line? kept) _) fun _ => kept.pure _
  exact readsOn_line?.shorter fun _ => List.cons_ne_nil _ _

end Declaration

/-- What holds of the parser of expressions, and of the primitives that leave
the operator links alone, holds of the parser of programs. -/
theorem CompilationUnit.holds_read_of_expressions (expressions : Holds Expr.read) :
    Holds CompilationUnit.read :=
  kept.bind (Declaration.holds_readAll kept) fun _ =>
      kept.bind (Stmt.holds_readAll kept expressions) fun _ =>
    kept.pure _

end

/-- What holds of the primitives, and is kept when parsers are put together,
holds of the parser of programs. -/
theorem CompilationUnit.holds_read {Holds : ∀ {α : Type}, Parser α → Prop}
    (kept : Parser.Compositional Holds) : Holds CompilationUnit.read :=
  holds_read_of_expressions kept.toSequential (Expr.holds_read kept)

/-! ### One token of lookahead -/

theorem Parser.Local.compositional : Parser.Compositional @Parser.Local where
  pure := .pure
  throw _ := .throw _
  bind := .bind
  peek _ second := Parser.Local.peek?.bind second
  takeIf? _ := .takeIf? _
  nested := .nested
  link := .link
  unlink := .unlink
  many := .many

/-- Programs are read with one token of lookahead. -/
theorem CompilationUnit.local_read : CompilationUnit.read.Local :=
  holds_read Parser.Local.compositional

end StackCompiler
