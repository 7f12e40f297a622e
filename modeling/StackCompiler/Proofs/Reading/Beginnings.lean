import StackCompiler.Proofs.Grammar.Samples
import StackCompiler.Proofs.Reading.Exhaustion
import StackCompiler.Proofs.Reading.Programs

/-!
# What was read before a failure

A parser does not go on behind a token that cannot be right: what it has read
when it fails is the beginning of something that it would have read. For each
place where a parser can fail, what it has read is completed by the simplest
forms of whatever was to follow.
-/

namespace StackCompiler

/-- Whether the tokens before `stuck` are the beginning of a form of a language,
which goes on with lexemes that fit into the lexical grammar. -/
def Language.Begins {α : Type} (language : Language α)
    (before stuck : List Token) : Prop :=
  ∃ form read more, language.lexemes form = read ++ more ∧
    (∀ lexeme ∈ more, lexeme.Fits) ∧
    Spells read before stuck

namespace Language.Begins

variable {α β : Type} {language : Language α} {outer : Language β}

/-- Where nothing has been read, every form may be to come. -/
theorem of_form (form : language.Form)
    (fits : ∀ lexeme ∈ language.lexemes form, lexeme.Fits) (tokens : List Token) :
    language.Begins tokens tokens :=
  ⟨form, [], language.lexemes form, rfl, fits, rfl⟩

/-- A beginning of a form is one of whatever holds the form, behind what stands
before the form in there. -/
theorem within {before start stuck : List Token} (begins : language.Begins start stuck)
    {front back : List Lexeme} (wrap : language.Form → outer.Form)
    (written : ∀ form, outer.lexemes (wrap form) =
      front ++ (language.lexemes form ++ back)) (spells : Spells front before start)
    (fits : ∀ lexeme ∈ back, lexeme.Fits) : outer.Begins before stuck := by
  rcases begins with ⟨form, read, more, split, fitsMore, spellsRead⟩
  refine ⟨wrap form, front ++ read, more ++ back, ?_, List.forall_mem_append.2
      ⟨fitsMore, fits⟩, Spells.append_iff.2 ⟨start, spells, spellsRead⟩⟩
  rw [written, split]
  simp only [List.append_assoc]

/-- A beginning of a form is one of whatever ends with the form. -/
theorem behind {before start stuck : List Token} (begins : language.Begins start stuck)
    {front : List Lexeme} (wrap : language.Form → outer.Form)
    (written : ∀ form, outer.lexemes (wrap form) = front ++ language.lexemes form)
    (spells : Spells front before start) : outer.Begins before stuck :=
  begins.within wrap (fun form => by rw [written, List.append_nil]) spells
    (List.forall_mem_nil _)

/-- Where a form is complete but for some lexemes, these are to come. -/
theorem missing (form : language.Form) {before stuck : List Token}
    {read more : List Lexeme} (written : language.lexemes form = read ++ more)
    (fits : ∀ lexeme ∈ more, lexeme.Fits) (spells : Spells read before stuck) :
    language.Begins before stuck :=
  ⟨form, read, more, written, fits, spells⟩

end Language.Begins

namespace Parser

variable {α β : Type} {language : Language α}

/-- Whether what a parser has read when it fails is the beginning of a
form of a language. -/
def Viable (parser : Parser α) (language : Language β) : Prop :=
  ∀ ⦃before : Cursor⦄ ⦃problem : Problem⦄ ⦃stuck : Cursor⦄, parser before =
    .error problem stuck →
    language.Begins before.rest stuck.rest

theorem Viable.nested {parser : Parser α} (viable : parser.Viable language)
    (form : language.Form) (fits : ∀ lexeme ∈ language.lexemes form, lexeme.Fits) :
    (nested parser).Viable language := by
  intro before problem stuck fails
  rcases nested_eq_error_iff.1 fails with ⟨_, _, rfl⟩ |
    ⟨deeper, inner, _, failsInside, rfl⟩
  · exact .of_form form fits before.rest
  · exact @viable ⟨before.rest, deeper⟩ problem inner failsInside

/-- What a repetition has read when one of its steps fails are forms and the
beginning of another one. -/
theorem Viable.many {step? : Parser (Option α)} (viable : step?.Viable language)
    {stop : List Lexeme} {Stops : Option Lexeme → Prop}
    (step : step?.ReadsOn language stop Stops)
    (nonempty : ∀ form, language.lexemes form ≠ [])
    (fits : ∀ lexeme ∈ stop, lexeme.Fits) :
    (many step?).Viable (language.many stop Stops) := by
  intro before problem stuck fails
  rcases (many_eq_error_iff (step.shorter nonempty)).1 fails with
    ⟨results, middle, repeats, failsThere⟩
  rcases step.spells_of_repeats repeats with ⟨_, forms, _, _, spells, _⟩
  refine (viable failsThere).within (fun form => forms ++ [form]) ?_ spells fits
  intro form
  change (forms ++ [form]).flatMap language.lexemes ++ stop = _
  rw [List.flatMap_append, List.flatMap_singleton, List.append_assoc]

section

variable {yes no : Parser α} {before stuck : Cursor} {problem : Problem}

/-- Of two ways to go on, one behind a punctuation mark, one fails. -/
theorem ifPunctuator_eq_error {symbol : String}
    (fails : (do if ← acceptPunctuator symbol then yes else no : Parser α) before =
      .error problem stuck) :
    (∃ between, Spells [.mark symbol] before.rest between.rest ∧
      yes between = .error problem stuck) ∨
      no before = .error problem stuck := by
  rcases bind_eq_error_iff.1 fails with none | ⟨found, between, accepted, rest⟩
  · exact absurd none acceptPunctuator_eq_error_iff.1
  cases found with
  | true => exact .inl ⟨between, (acceptPunctuator_eq_true_iff.1 accepted).2, rest⟩
  | false =>
      rcases acceptPunctuator_eq_false_iff.1 accepted with ⟨_, rfl⟩
      exact .inr rest

/-- Of two ways to go on, one behind a keyword, one fails. -/
theorem ifKeyword_eq_error {word : String}
    (fails : (do if ← acceptKeyword word then yes else no : Parser α) before =
      .error problem stuck) :
    (∃ between, Spells [.keyword word] before.rest between.rest ∧
      yes between = .error problem stuck) ∨
      no before = .error problem stuck := by
  rcases bind_eq_error_iff.1 fails with none | ⟨found, between, accepted, rest⟩
  · exact absurd none acceptKeyword_eq_error_iff.1
  cases found with
  | true => exact .inl ⟨between, (acceptKeyword_eq_true_iff.1 accepted).2, rest⟩
  | false =>
      rcases acceptKeyword_eq_false_iff.1 accepted with ⟨_, rfl⟩
      exact .inr rest

end

/-- A look at the next token does not fail. -/
theorem peek?_bind {next : Option Token → Parser α} {before : Cursor} :
    (peek? >>= next) before = next before.rest.head? before := rfl

end Parser

open StackCompiler.Parser

/-! ### Designators -/

namespace Expr

theorem viable_subscript : subscript.Viable Language.content := by
  intro before problem stuck fails
  simp only [subscript, bind_eq_error_iff, Bool.exists_bool, Option.exists,
    Bool.false_eq_true, if_false, if_true, acceptPunctuator_eq_error_iff,
    acceptPunctuator_eq_false_iff, acceptPunctuator_eq_true_iff, takeIf?_eq_error_iff,
    takeIf?_eq_none_iff, take_eq_error_iff, pure_eq_error_iff, and_false, exists_false,
    or_false, false_or] at fails
  rcases fails with ⟨_, ⟨_, rfl⟩, _, ⟨_, rfl⟩, _, _, rfl⟩ |
    ⟨between, ⟨_, spellsSign⟩, _, _, rfl⟩
  · exact .of_form (Index.identifier "a")
      (List.forall_mem_singleton.2 Lexeme.fits_letter) before.rest
  · refine ⟨Index.negative "0", [.mark "-"], [.integer "0"], rfl, ?_, spellsSign⟩
    exact List.forall_mem_singleton.2 Lexeme.fits_zero

theorem viable_subscript? : subscript?.Viable Language.index := by
  intro before problem stuck fails
  simp only [subscript?, bind_eq_error_iff, Bool.exists_bool, Bool.false_eq_true,
    if_false, if_true, acceptPunctuator_eq_error_iff, acceptPunctuator_eq_false_iff,
    acceptPunctuator_eq_true_iff, punctuator_eq_error_iff, pure_eq_error_iff,
    reads_subscript.iff, and_false, exists_false, or_false, false_or] at fails
  have close : ∀ lexeme ∈ [Lexeme.mark "]"], lexeme.Fits :=
    List.forall_mem_singleton.2 (.mark (by decide))
  rcases fails with ⟨opened, ⟨_, spellsOpen⟩, failsInside |
    ⟨_, between, ⟨_, index, rfl, _, spells, _⟩, _, _, rfl⟩⟩
  · exact (viable_subscript failsInside).within id (fun _ => rfl) spellsOpen close
  · exact ⟨index, .mark "[" :: index.content, [.mark "]"], rfl, close,
      Spells.uncons_iff.2 ⟨_, spellsOpen, spells⟩⟩

theorem viable_readDesignator : readDesignator.Viable Language.target := by
  have viableMany :=
    viable_subscript?.many readsOn_subscript? (fun _ => List.cons_ne_nil _ _)
    (List.forall_mem_nil _)
  intro before problem stuck fails
  simp only [readDesignator, bind_eq_error_iff, take_eq_error_iff, Token.identifier?,
      take_textOf?_eq_ok_iff, pure_eq_error_iff, and_false, exists_false, or_false]
    at fails
  rcases fails with ⟨_, _, rfl⟩ | ⟨name, between, ⟨_, spellsName⟩, failsIndices⟩
  · exact .of_form (Target.mk "a" [])
      (List.forall_mem_singleton.2 Lexeme.fits_letter) before.rest
  · refine (viableMany failsIndices).behind (fun indices => Target.mk name indices)
      (fun indices => ?_) spellsName
    exact congrArg (_ :: ·) (List.append_nil _).symm

/-! ### Expressions -/

variable {level : Level} {levels : Nat} {operand : Parser Expr}

theorem viable_chain (reads : operand.Reads (.phrase levels level.tighter))
    (viable : operand.Viable (.phrase levels level.tighter))
    (grouped : level ≠ .comparison) :
    (chain level operand).Viable (.phrase levels (.level level)) := by
  intro before problem stuck fails
  rcases (chain_eq_error_iff (link?_shorter reads)).1 fails with
    failsFirst | ⟨first, between, links, last, readsFirst, repeats, failsLink⟩
  · exact (viable failsFirst).behind Phrase.single (fun _ => rfl) (Spells.nil_iff.2 rfl)
  · rcases (Linked.single_iff reads).1 readsFirst with ⟨only, rfl, linked⟩
    rcases linked.repeats reads grouped repeats with ⟨left, _, _, linkedAll⟩
    rcases link?_eq_error_iff.1 failsLink with
      ⟨operator, behind, ofLevel, spellsOperator, ⟨_, _, rfl⟩ | ⟨longer, _, failsRight⟩⟩
    · have spells := Spells.append_iff.2 ⟨_, linkedAll.spells, spellsOperator⟩
      refine .missing (Phrase.link grouped left operator ofLevel (.letter _)) ?_
        (@Phrase.fits_letter level.tighter) spells
      exact List.append_cons _ _ _
    · have spells := Spells.append_iff.2 ⟨_, linkedAll.spells, spellsOperator⟩
      exact (viable failsRight).behind
        (fun right => Phrase.link grouped left operator ofLevel right)
        (fun _ => List.append_cons _ _ _) spells

theorem viable_comparison (reads : operand.Reads (.phrase levels (.level .sum)))
    (viable : operand.Viable (.phrase levels (.level .sum))) :
    (comparison operand).Viable (.phrase levels (.level .comparison)) := by
  intro before problem stuck fails
  rcases bind_eq_error_iff.1 fails with failsLeft | ⟨_, between, readsLeft, rest⟩
  · exact (viable failsLeft).behind (@Phrase.single .comparison) (fun _ => rfl)
      (Spells.nil_iff.2 rfl)
  rcases reads.iff.1 readsLeft with ⟨_, left, _, _, spellsLeft, _⟩
  rcases bind_eq_error_iff.1 rest with none | ⟨found, here, taken, rest⟩
  · exact absurd none takeIf?_eq_error_iff.1
  cases found with
  | none => exact absurd rest pure_eq_error_iff.1
  | some operator =>
      rcases takeIf?_operator?_eq_some_iff.1 taken with ⟨_, ofLevel, spellsOperator⟩
      have spells := Spells.append_iff.2 ⟨_, spellsLeft, spellsOperator⟩
      rcases bind_eq_error_iff.1 rest with failsRight | ⟨_, last, readsRight, rest⟩
      · exact (viable failsRight).behind
          (fun right => Phrase.compare left operator ofLevel right)
          (fun _ => List.append_cons _ _ _) spells
      · rcases reads.iff.1 readsRight with ⟨_, right, _, _, spellsRight, _⟩
        rw [peek?_bind] at rest
        cases next : last.rest.head?.bind (operator? .comparison) with
        | none =>
            rw [next] at rest
            exact absurd rest pure_eq_error_iff.1
        | some another =>
            rw [next] at rest
            rcases throw_eq_error_iff.1 rest with ⟨_, rfl⟩
            have spellsAll := Spells.append_iff.2 ⟨_, spells, spellsRight⟩
            refine .missing (Phrase.compare left operator ofLevel right) ?_
              (List.forall_mem_nil _) spellsAll
            exact (List.append_cons _ _ _).trans (List.append_nil _).symm

theorem viable_readOver (reads : operand.Reads (.phrase levels .operand))
    (viable : operand.Viable (.phrase levels .operand)) :
    (readOver operand).Viable (.phrase levels .whole) := by
  have both := rankOver_induction
    (motive := fun rank parser => parser.Reads (.phrase levels rank) ∧
      parser.Viable (.phrase levels rank))
    ⟨reads, viable⟩
    (fun grouped ⟨readsTighter, tighter⟩ =>
      ⟨reads_chain grouped readsTighter, viable_chain readsTighter tighter grouped⟩)
    (fun ⟨readsSum, sum⟩ => ⟨reads_comparison readsSum, viable_comparison readsSum sum⟩)
  exact @(both .whole).2

/-- Something in parentheses fails inside of them, or at the one that closes. -/
theorem begins_enclosed {content : Parser Expr}
    (reads : content.Reads (.phrase levels .whole))
    (viable : content.Viable (.phrase levels .whole)) {before : List Token}
    {opened stuck : Cursor} {problem : Problem}
    (spellsOpen : Spells [.mark "("] before opened.rest)
    (fails : (do
      let tree ← content
      punctuator ")"
      return tree : Parser Expr) opened = .error problem stuck) :
    Language.condition.Begins before stuck.rest := by
  have close : ∀ lexeme ∈ [Lexeme.mark ")"], lexeme.Fits :=
    List.forall_mem_singleton.2 (.mark (by decide))
  simp only [bind_eq_error_iff, punctuator_eq_error_iff, pure_eq_error_iff, and_false,
    exists_false, or_false] at fails
  rcases fails with failsInside | ⟨_, between, readsContent, _, _, rfl⟩
  · exact (viable failsInside).within id (fun _ => rfl) spellsOpen close
  · rcases reads.iff.1 readsContent with ⟨_, form, _, _, spells, _⟩
    exact @Language.Begins.missing _ Language.condition form _ _ _ _ rfl close
      (Spells.append_iff.2 ⟨_, spellsOpen, spells⟩)

theorem viable_primary (reads : operand.Reads (.phrase levels .operand))
    (viable : operand.Viable (.phrase levels .operand)) :
    (primary operand).Viable (.phrase levels .operand) := by
  intro before problem stuck fails
  rcases ifPunctuator_eq_error fails with ⟨opened, spellsOpen, failsInside⟩ | fails
  · exact (begins_enclosed (reads_readOver reads)
      (viable_readOver reads viable) spellsOpen failsInside).behind
      Phrase.parens (fun _ => rfl) (Spells.nil_iff.2 rfl)
  rcases bind_eq_error_iff.1 fails with none | ⟨found, here, taken, rest⟩
  · exact absurd none takeIf?_eq_error_iff.1
  cases found with
  | some text => exact absurd rest pure_eq_error_iff.1
  | none =>
      rcases takeIf?_eq_none_iff.1 taken with ⟨_, rfl⟩
      dsimp only at rest
      rw [peek?_bind] at rest
      cases next : before.rest.head?.bind Token.identifier? with
      | none =>
          rw [next] at rest
          rcases throw_eq_error_iff.1 rest with ⟨_, rfl⟩
          exact .of_form (Phrase.letter .operand) Phrase.fits_letter before.rest
      | some name =>
          rw [next] at rest
          rcases bind_eq_error_iff.1 rest with failsTarget | ⟨_, _, _, returns⟩
          · exact (viable_readDesignator failsTarget).behind Phrase.designator
              (fun _ => rfl)
              (Spells.nil_iff.2 rfl)
          · exact absurd returns pure_eq_error_iff.1

theorem viable_operandOver (reads : operand.Reads (.phrase levels .operand))
    (viable : operand.Viable (.phrase levels .operand)) :
    (operandOver operand).Viable (.phrase levels .operand) := by
  intro before problem stuck fails
  have behindSign (operator : UnaryOp) {between : Cursor} {make : Expr → Expr}
      (spells : Spells [.mark operator.symbol] before.rest between.rest)
      (failsThere : (do return make (← operand) : Parser Expr) between =
        .error problem stuck) :
      (Language.phrase levels .operand).Begins before.rest stuck.rest := by
    rcases bind_eq_error_iff.1 failsThere with failsOperand | ⟨_, _, _, returns⟩
    · exact (viable failsOperand).behind (Phrase.prefixed operator)
        (fun _ => rfl) spells
    · exact absurd returns pure_eq_error_iff.1
  rcases ifPunctuator_eq_error fails with ⟨between, spells, rest⟩ | fails
  · rcases bind_eq_error_iff.1 rest with none | ⟨found, here, taken, rest⟩
    · exact absurd none takeIf?_eq_error_iff.1
    cases found with
    | some text => exact absurd rest pure_eq_error_iff.1
    | none =>
        rcases takeIf?_eq_none_iff.1 taken with ⟨_, rfl⟩
        exact behindSign .negate spells rest
  rcases ifPunctuator_eq_error fails with ⟨between, spells, rest⟩ | fails
  · exact behindSign .not spells rest
  · exact viable_primary reads viable fails

theorem viable_operandWithin (levels : Nat) :
    (operandWithin levels).Viable (.phrase levels .operand) := by
  induction levels with
  | zero =>
      intro before problem stuck fails
      rcases throw_eq_error_iff.1 fails with ⟨_, rfl⟩
      exact .of_form (Phrase.letter .operand) Phrase.fits_letter before.rest
  | succ levels ih =>
      exact (viable_operandOver (reads_operandWithin levels) ih).nested
        (Phrase.letter .operand) Phrase.fits_letter

/-- What was read of an expression is the beginning of one. -/
theorem viable_read : Expr.read.Viable (.phrase maxNesting .whole) :=
  viable_readOver (reads_operandWithin maxNesting) (viable_operandWithin maxNesting)

end Expr

/-! ### Statements -/

namespace Sentence

variable (condition value : Phrase .whole) (first second : Sentence)

theorem lexemes_block (body : List Sentence) :
    (block body).lexemes =
      [.mark Stmt.openBrace] ++ (body.flatMap lexemes ++ [.mark Stmt.closeBrace]) := by
  rw [lexemes, lexemesAll_eq_flatMap]
  rfl

theorem lexemes_ifThen :
    (ifThen condition first).lexemes =
        [.keyword "if"] ++ (condition.enclosed ++ first.lexemes) := by
  rw [lexemes]
  rfl

theorem lexemes_ifElse :
    (ifElse condition first second).lexemes =
      [.keyword "if"] ++ (condition.enclosed ++ first.lexemes) ++ [.keyword "else"] ++
          second.lexemes := by
  simp [lexemes]

theorem lexemes_loop :
    (loop condition first).lexemes =
      [.keyword "while"] ++ (condition.enclosed ++ first.lexemes) := by
  rw [lexemes]
  rfl

theorem lexemes_print :
    (print value).lexemes = [.keyword "print"] ++ (value.lexemes ++ [.mark ";"]) := by
  rw [lexemes]
  rfl

theorem lexemes_assign (target : Target) :
    (assign target value).lexemes =
      target.lexemes ++ [.mark "="] ++ (value.lexemes ++ [.mark ";"]) := by
  simp [lexemes]

end Sentence

namespace Stmt

variable {levels : Nat} {statement : Parser Stmt}

theorem viable_readCondition : readCondition.Viable Language.condition := by
  intro before problem stuck fails
  rcases bind_eq_error_iff.1 fails with failsOpen | ⟨_, opened, takes, rest⟩
  · rcases punctuator_eq_error_iff.1 failsOpen with ⟨_, _, rfl⟩
    exact @Language.Begins.of_form _ Language.condition (Phrase.letter .whole)
      (Phrase.fits_parens Phrase.fits_letter) before.rest
  · exact Expr.begins_enclosed Expr.reads_read Expr.viable_read
      (punctuator_eq_ok_iff.1 takes).2 rest

theorem viable_inBlock? (viable : statement.Viable (.sentence levels)) :
    (inBlock? statement).Viable (.sentence levels) := by
  intro before problem stuck fails
  rcases ifPunctuator_eq_error fails with ⟨_, _, returns⟩ | fails
  · exact absurd returns pure_eq_error_iff.1
  rcases bind_eq_error_iff.1 fails with none | ⟨found, here, looked, rest⟩
  · exact absurd none atEnd_eq_error_iff.1
  rcases atEnd_eq_ok_iff.1 looked with ⟨_, rfl⟩
  cases found with
  | true =>
      rcases throw_eq_error_iff.1 rest with ⟨_, rfl⟩
      exact .of_form Sentence.simple Sentence.fits_simple before.rest
  | false =>
      rcases bind_eq_error_iff.1 rest with failsInside | ⟨_, _, _, returns⟩
      · exact viable failsInside
      · exact absurd returns pure_eq_error_iff.1

/-- A condition and the statement behind it fail inside of the one or the other. -/
theorem begins_conditional (reads : statement.Reads (.sentence levels))
    (viable : statement.Viable (.sentence levels))
    {make : Expr → Stmt → Parser Stmt} {word : String}
    {wrap : Phrase .whole → Sentence → Sentence}
    (written : ∀ test body, (wrap test body).lexemes =
      [.keyword word] ++ (test.enclosed ++ body.lexemes))
    {before : List Token} {start stuck : Cursor} {problem : Problem}
    (spells : Spells [.keyword word] before start.rest)
    (fails : (do
      let test ← readCondition
      let body ← statement
      make test body : Parser Stmt) start = .error problem stuck) :
    (Language.sentence levels).Begins before stuck.rest ∨
      ∃ (test : Phrase .whole) (body : Sentence) (between : Cursor),
        Spells
          ([.keyword word] ++ (test.enclosed ++ body.lexemes)) before between.rest ∧
        ∃ testTree bodyTree, make testTree bodyTree between = .error problem stuck := by
  rcases bind_eq_error_iff.1 fails with failsTest | ⟨_, between, readsTest, rest⟩
  · refine .inl ((viable_readCondition failsTest).within (wrap · .simple)
      (fun test => ?_) spells Sentence.fits_simple)
    exact written test .simple
  rcases reads_readCondition.iff.1 readsTest with ⟨_, test, _, _, spellsTest, _⟩
  have spellsFront := Spells.append_iff.2 ⟨_, spells, spellsTest⟩
  rcases bind_eq_error_iff.1 rest with failsBody | ⟨_, last, readsBody, rest⟩
  · refine .inl ((viable failsBody).behind (wrap test) (fun body => ?_) spellsFront)
    exact (written test body).trans (List.append_assoc _ _ _).symm
  rcases reads.iff.1 readsBody with ⟨_, body, _, _, spellsBody, _⟩
  refine .inr ⟨test, body, last, ?_, _, _, rest⟩
  rw [← List.append_assoc]
  exact Spells.append_iff.2 ⟨_, spellsFront, spellsBody⟩

/-- A value fails inside, or at the semicolon behind it. -/
theorem begins_value {make : Expr → Stmt} {wrap : Phrase .whole → Sentence}
    {front : List Lexeme}
    (written : ∀ value, (wrap value).lexemes = front ++ (value.lexemes ++ [.mark ";"]))
    {before : List Token} {start stuck : Cursor} {problem : Problem}
    (spells : Spells front before start.rest)
    (fails : (do
      let value ← Expr.read
      punctuator ";"
      return make value : Parser Stmt) start = .error problem stuck) :
    (Language.sentence levels).Begins before stuck.rest := by
  have semicolon : ∀ lexeme ∈ [Lexeme.mark ";"], lexeme.Fits :=
    List.forall_mem_singleton.2 (.mark (by decide))
  simp only [bind_eq_error_iff, punctuator_eq_error_iff, pure_eq_error_iff, and_false,
    exists_false, or_false] at fails
  rcases fails with failsInside | ⟨_, between, readsValue, _, _, rfl⟩
  · exact (Expr.viable_read failsInside).within wrap written spells semicolon
  · rcases Expr.reads_read.iff.1 readsValue with ⟨_, value, _, _, spellsValue, _⟩
    refine .missing (wrap value) ?_ semicolon
      (Spells.append_iff.2 ⟨_, spells, spellsValue⟩)
    exact (written value).trans (List.append_assoc _ _ _).symm

/-- An assignment fails at its target, at the sign behind that, or behind the sign. -/
theorem begins_assignment {before stuck : Cursor} {problem : Problem}
    (fails : (do
      let target ← Expr.readDesignator
      punctuator "="
      let value ← Expr.read
      punctuator ";"
      return assign target value : Parser Stmt) before = .error problem stuck) :
    (Language.sentence levels).Begins before.rest stuck.rest := by
  have fitsBack :
      ∀ lexeme ∈ Lexeme.mark "=" :: ((Phrase.letter .whole).lexemes ++ [.mark ";"]),
        lexeme.Fits :=
    List.forall_mem_cons.2 ⟨.mark (by decide),
      List.forall_mem_append.2
        ⟨Phrase.fits_letter, List.forall_mem_singleton.2 (.mark (by decide))⟩⟩
  have written (target : Target) :
      (Sentence.assign target (Phrase.letter .whole)).lexemes =
      target.lexemes ++ Lexeme.mark "=" ::
        ((Phrase.letter .whole).lexemes ++ [.mark ";"]) :=
    (Sentence.lexemes_assign (Phrase.letter .whole) target).trans
      (List.append_assoc _ _ _)
  rcases bind_eq_error_iff.1 fails with failsTarget | ⟨_, between, readsTarget, rest⟩
  · refine (Expr.viable_readDesignator failsTarget).within
      (Sentence.assign · (Phrase.letter .whole))
      (fun target => ?_) (Spells.nil_iff.2 rfl) fitsBack
    exact written target
  rcases Expr.reads_readDesignator.iff.1 readsTarget with
    ⟨_, target, _, _, spellsTarget, _⟩
  rcases bind_eq_error_iff.1 rest with failsSign | ⟨_, behind, takes, rest⟩
  · rcases punctuator_eq_error_iff.1 failsSign with ⟨_, _, rfl⟩
    refine .missing
      (Sentence.assign target (Phrase.letter .whole)) ?_ fitsBack spellsTarget
    exact written target
  · have spells :=
      Spells.append_iff.2 ⟨_, spellsTarget, (punctuator_eq_ok_iff.1 takes).2⟩
    exact begins_value (fun value => Sentence.lexemes_assign value target) spells rest

theorem viable_readOver (reads : statement.Reads (.sentence levels))
    (viable : statement.Viable (.sentence levels)) :
    (readOver statement).Viable (.sentence levels) := by
  intro before problem stuck fails
  rcases ifPunctuator_eq_error fails with ⟨opened, spellsOpen, rest⟩ | fails
  · rcases bind_eq_error_iff.1 rest with failsInside | ⟨_, _, _, returns⟩
    · have brace : ∀ lexeme ∈ [Lexeme.mark closeBrace], lexeme.Fits :=
        List.forall_mem_singleton.2 (.mark (by decide))
      have begins := (viable_inBlock? viable).many (readsOn_inBlock? reads)
        (lexemes_ne_nil levels) brace failsInside
      exact begins.behind Sentence.block Sentence.lexemes_block spellsOpen
    · exact absurd returns pure_eq_error_iff.1
  rcases ifKeyword_eq_error fails with ⟨opened, spellsOpen, rest⟩ | fails
  · rcases begins_conditional reads viable Sentence.lexemes_ifThen spellsOpen rest with
      begins | ⟨test, first, between, spells, _, _, rest⟩
    · exact begins
    rcases ifKeyword_eq_error rest with ⟨behind, spellsElse, rest⟩ | returns
    · rcases bind_eq_error_iff.1 rest with failsElse | ⟨_, _, _, returns⟩
      · exact (viable failsElse).behind (Sentence.ifElse test first)
          (fun second => Sentence.lexemes_ifElse test first second)
            (Spells.append_iff.2 ⟨_, spells, spellsElse⟩)
      · exact absurd returns pure_eq_error_iff.1
    · exact absurd returns pure_eq_error_iff.1
  rcases ifKeyword_eq_error fails with ⟨opened, spellsOpen, rest⟩ | fails
  · rcases begins_conditional reads viable Sentence.lexemes_loop spellsOpen rest with
      begins | ⟨_, _, _, _, _, _, returns⟩
    · exact begins
    · exact absurd returns pure_eq_error_iff.1
  rcases ifKeyword_eq_error fails with ⟨opened, spellsOpen, rest⟩ | fails
  · exact begins_value Sentence.lexemes_print spellsOpen rest
  rw [peek?_bind] at fails
  cases next : before.rest.head?.bind Token.identifier? with
  | none =>
      rw [next] at fails
      rcases throw_eq_error_iff.1 fails with ⟨_, rfl⟩
      exact .of_form Sentence.simple Sentence.fits_simple before.rest
  | some name =>
      rw [next] at fails
      exact begins_assignment fails

theorem viable_readWithin (levels : Nat) :
    (readWithin levels).Viable (.sentence levels) := by
  induction levels with
  | zero =>
      intro before problem stuck fails
      rcases throw_eq_error_iff.1 fails with ⟨_, rfl⟩
      exact .of_form Sentence.simple Sentence.fits_simple before.rest
  | succ levels ih =>
      exact (viable_readOver (reads_readWithin levels) ih).nested Sentence.simple
        Sentence.fits_simple

/-- What was read of a statement is the beginning of one. -/
theorem viable_read : Stmt.read.Viable (.sentence maxNesting) :=
  viable_readWithin maxNesting

theorem viable_another? : another?.Viable (.sentence maxNesting) := by
  intro before problem stuck fails
  rcases bind_eq_error_iff.1 fails with none | ⟨found, here, looked, rest⟩
  · exact absurd none atEnd_eq_error_iff.1
  rcases atEnd_eq_ok_iff.1 looked with ⟨_, rfl⟩
  cases found with
  | true => exact absurd rest pure_eq_error_iff.1
  | false =>
      rcases bind_eq_error_iff.1 rest with failsInside | ⟨_, _, _, returns⟩
      · exact viable_read failsInside
      · exact absurd returns pure_eq_error_iff.1

end Stmt

/-! ### Declarations -/

namespace Declaration

/-- No token is taken before it is known to be a dimension. -/
theorem stays_readDim {before stuck : Cursor} {problem : Problem}
    (fails : readDim before = .error problem stuck) : before = stuck := by
  rw [readDim, peek?_bind] at fails
  cases next : before.rest.head?.bind Token.integer? with
  | none =>
      rw [next] at fails
      exact (throw_eq_error_iff.1 fails).2
  | some text =>
      rw [next] at fails
      cases reads : Text.Decimal.readWord text.toList with
      | error fault =>
          simp only [reads] at fails
          exact (throw_eq_error_iff.1 fails).2
      | ok value =>
          simp only [reads, bind_eq_error_iff, discard_eq_error_iff,
            takeIf?_eq_error_iff, pure_eq_error_iff, and_false, exists_false, or_false]
            at fails

theorem viable_dim? : dim?.Viable .extent := by
  have close : ∀ lexeme ∈ [Lexeme.mark "]"], lexeme.Fits :=
    List.forall_mem_singleton.2 (.mark (by decide))
  intro before problem stuck fails
  rcases ifPunctuator_eq_error fails with ⟨opened, spellsOpen, rest⟩ | returns
  · rcases bind_eq_error_iff.1 rest with failsInside | ⟨_, between, readsDim, rest⟩
    · rcases stays_readDim failsInside with rfl
      exact .missing (Extent.mk "0" 0 (Text.Decimal.readWord_eq_ok_iff.1 rfl)) rfl
        (List.forall_mem_cons.2 ⟨Lexeme.fits_zero, close⟩) spellsOpen
    rcases readDim_eq_ok_iff.1 readsDim with ⟨_, extent, _, spells⟩
    rcases bind_eq_error_iff.1 rest with failsClose | ⟨_, _, _, returns⟩
    · rcases punctuator_eq_error_iff.1 failsClose with ⟨_, _, rfl⟩
      exact .missing extent rfl close (Spells.uncons_iff.2 ⟨_, spellsOpen, spells⟩)
    · exact absurd returns pure_eq_error_iff.1
  · exact absurd returns pure_eq_error_iff.1

theorem viable_readOne (type : TypeTag) : (readOne type).Viable (.declarator type) := by
  have viableMany := viable_dim?.many readsOn_dim? (fun _ => List.cons_ne_nil _ _)
    (List.forall_mem_nil _)
  intro before problem stuck fails
  simp only [readOne, bind_eq_error_iff, take_eq_error_iff, Token.identifier?,
      take_textOf?_eq_ok_iff, pure_eq_error_iff, and_false, exists_false, or_false]
    at fails
  rcases fails with ⟨_, _, rfl⟩ | ⟨name, between, ⟨_, spellsName⟩, failsExtents⟩
  · exact .of_form (Declarator.mk "a" [])
      (List.forall_mem_singleton.2 Lexeme.fits_letter) before.rest
  · refine (viableMany failsExtents).behind (Declarator.mk name)
      (fun extents => ?_) spellsName
    exact congrArg (_ :: ·) (List.append_nil _).symm

theorem viable_another? (type : TypeTag) :
    (another? type).Viable (.anotherDeclarator type) := by
  intro before problem stuck fails
  rcases ifPunctuator_eq_error fails with ⟨opened, spellsComma, rest⟩ | returns
  · rcases bind_eq_error_iff.1 rest with failsInside | ⟨_, _, _, returns⟩
    · exact (viable_readOne type failsInside).behind id (fun _ => rfl) spellsComma
    · exact absurd returns pure_eq_error_iff.1
  · exact absurd returns pure_eq_error_iff.1

theorem viable_line? : line?.Viable .line := by
  have semicolon : ∀ lexeme ∈ [Lexeme.mark ";"], lexeme.Fits :=
    List.forall_mem_singleton.2 (.mark (by decide))
  intro before problem stuck fails
  rcases bind_eq_error_iff.1 fails with none | ⟨found, start, taken, rest⟩
  · exact absurd none takeIf?_eq_error_iff.1
  cases found with
  | none => exact absurd rest pure_eq_error_iff.1
  | some type =>
      have spellsType := (takeIf?_type?_eq_some_iff.1 taken).2
      rcases bind_eq_error_iff.1 rest with failsFirst | ⟨_, between, readsFirst, rest⟩
      · exact (viable_readOne type failsFirst).within (Line.mk type · [])
          (fun _ => rfl) spellsType semicolon
      rcases (reads_readOne type).iff.1 readsFirst with ⟨_, first, _, _, spellsFirst, _⟩
      have spellsFront := Spells.uncons_iff.2 ⟨_, spellsType, spellsFirst⟩
      have others := (readsOn_another? type).many (fun _ => List.cons_ne_nil _ _)
        (fun _ _ => by simp [Language.anotherDeclarator, Language.declarator])
      rcases bind_eq_error_iff.1 rest with failsOthers | ⟨_, last, readsOthers, rest⟩
      · have viableOthers := (viable_another? type).many (readsOn_another? type)
          (fun _ => List.cons_ne_nil _ _)
          (List.forall_mem_nil _)
        refine (viableOthers failsOthers).within (Line.mk type first)
          (fun others => ?_) spellsFront semicolon
        exact congrArg (fun rest => Lexeme.keyword type.keyword ::
          (Declarator.lexemes first ++ (rest ++ [.mark ";"])))
          (List.append_nil _).symm
      rcases others.iff.1 readsOthers with ⟨_, others, _, _, spells, _⟩
      rcases bind_eq_error_iff.1 rest with failsEnd | ⟨_, _, _, returns⟩
      · rcases punctuator_eq_error_iff.1 failsEnd with ⟨_, _, rfl⟩
        refine .missing (Line.mk type first others) ?_ semicolon
          (Spells.append_iff.2 ⟨_, spellsFront, Language.spells_many_nil_iff.1 spells⟩)
        exact (List.append_assoc
          (Lexeme.keyword type.keyword :: Declarator.lexemes first) _ _).symm
      · exact absurd returns pure_eq_error_iff.1

/-- What was read of lines of declarations is the beginning of such. -/
theorem viable_readAll : readAll.Viable .lines := by
  have viableMany := viable_line?.many readsOn_line? (fun _ => List.cons_ne_nil _ _)
    (List.forall_mem_nil _)
  intro before problem stuck fails
  rcases bind_eq_error_iff.1 fails with failsLines | ⟨_, _, _, returns⟩
  · refine (viableMany failsLines).behind id (fun lines => ?_) (Spells.nil_iff.2 rfl)
    exact (List.append_nil _).symm
  · exact absurd returns pure_eq_error_iff.1

end Declaration

/-! ### Programs -/

namespace CompilationUnit

/-- What was read of a program is the beginning of one. -/
theorem viable_read : CompilationUnit.read.Viable .composition := by
  have complete (lines : List Line) (first : Sentence) :
      (Composition.mk lines first []).lexemes =
        lines.flatMap Line.lexemes ++ first.lexemes :=
    congrArg (_ ++ ·) (List.append_nil _)
  intro before problem stuck fails
  rcases bind_eq_error_iff.1 fails with failsLines | ⟨_, start, readsLines, rest⟩
  · refine (Declaration.viable_readAll failsLines).within (Composition.mk · .simple [])
      (fun lines => ?_)
      (Spells.nil_iff.2 rfl) Sentence.fits_simple
    exact complete lines .simple
  rcases Declaration.reads_readAll.iff.1 readsLines with
    ⟨_, lines, _, _, spellsLines, _⟩
  rcases bind_eq_error_iff.1 rest with failsBody | ⟨_, _, _, returns⟩
  · rcases bind_eq_error_iff.1 failsBody with failsFirst |
      ⟨_, between, readsFirst, rest⟩
    · exact (Stmt.viable_read failsFirst).behind (Composition.mk lines · [])
        (complete lines) spellsLines
    rcases Stmt.reads_read.iff.1 readsFirst with ⟨_, first, _, _, spellsFirst, _⟩
    rcases bind_eq_error_iff.1 rest with failsOthers | ⟨_, _, _, returns⟩
    · have viableMany :=
        Stmt.viable_another?.many Stmt.readsOn_another? (Stmt.lexemes_ne_nil _)
        (List.forall_mem_nil _)
      refine (viableMany failsOthers).behind (Composition.mk lines first)
        (fun others => ?_)
        (Spells.append_iff.2 ⟨_, spellsLines, spellsFirst⟩)
      have split := List.append_assoc (lines.flatMap Line.lexemes) first.lexemes
        (others.flatMap Sentence.lexemes)
      exact split.symm.trans
        (congrArg (List.flatMap Line.lexemes lines ++ Sentence.lexemes first ++ ·)
          (List.append_nil _).symm)
    · exact absurd returns pure_eq_error_iff.1
  · exact absurd returns pure_eq_error_iff.1

end CompilationUnit

end StackCompiler
