import StackCompiler.Proofs.Grammar.Sentence
import StackCompiler.Proofs.Reading.Expressions

/-!
# Statements are read by the grammar

The parser of statements reads exactly the sentences of the grammar that
the limits allow and in which every `else` belongs to the nearest
conditional. A sentence that ends with a conditional without an alternative
goes on if an `else` follows.
-/

namespace StackCompiler

namespace Language

/-- Conditions in their parentheses. -/
def condition : Language Expr :=
  { phrase maxNesting .whole with
    lexemes := Phrase.enclosed
    Closed _ _ := True }

/-- The sentences in which at most `levels` statements are open within each other. -/
def sentence (levels : Nat) : Language Stmt where
  Form := Sentence
  lexemes := Sentence.lexemes
  tree := Sentence.tree
  Fits budget sentence :=
    sentence.height ≤ levels ∧ budget.Allows sentence.nest sentence.peak ∧
      sentence.tree.ElseNearest
  Closed sentence next := sentence.tree.EndsOpen → next ≠ some (.keyword "else")

/-- The sentences inside of which at most `levels` statements are open
within each other. -/
def sentenceInside (levels : Nat) : Language Stmt :=
  { sentence levels with
    Fits budget sentence :=
      sentence.height ≤ levels + 1 ∧ budget.Allows (sentence.nest - 1) sentence.peak ∧
        sentence.tree.ElseNearest }

theorem deepened_sentenceInside_fits_iff {levels : Nat} {budget : Budget}
    {form : Sentence} :
    (sentenceInside levels).deepened.Fits budget form ↔
    (sentence (levels + 1)).Fits budget form := by
  have positive := form.nest_pos
  have room := @Budget.exists_deepen?_and_allows_iff budget (form.nest - 1) form.peak
  rw [Nat.sub_add_cancel positive] at room
  constructor
  · intro holds
    rcases holds with ⟨deeper, opened, enough, allows, nearest⟩
    exact ⟨enough, room.1 ⟨deeper, opened, allows⟩, nearest⟩
  · intro holds
    rcases holds with ⟨enough, allows, nearest⟩
    obtain ⟨deeper, opened, allowsInside⟩ := room.2 allows
    exact ⟨deeper, opened, enough, allowsInside, nearest⟩

section

variable {levels : Nat} {budget : Budget} {test value : Phrase .whole}
  {first second : Sentence}

theorem whole_fits_iff :
    (phrase maxNesting .whole).Fits budget value ↔
    budget.Allows value.nest value.peak := by
  simp only [phrase, Budget.Allows]
  omega

theorem block_fits_iff {body : List Sentence} :
    (sentenceInside levels).Fits budget (Sentence.block body) ↔
      ∀ form ∈ body, (sentence levels).Fits budget form := by
  change _ ↔ ∀ form ∈ body, form.height ≤ levels ∧ budget.Allows form.nest form.peak ∧
    form.tree.ElseNearest
  simp only [sentenceInside, sentence, Sentence.height, Sentence.nest, Sentence.peak,
    Sentence.tree, Stmt.ElseNearest, Nat.add_sub_cancel, Nat.add_le_add_iff_right]
  induction body with
  | nil =>
      simp [Sentence.heightAll, Sentence.nestAll, Sentence.peakAll, Sentence.treeAll,
        Stmt.ElseNearestAll, Budget.allows_zero]
  | cons first rest ih =>
      rw [List.forall_mem_cons, ← ih, Sentence.heightAll, Sentence.nestAll,
        Sentence.peakAll, Sentence.treeAll, Stmt.ElseNearestAll, Nat.max_le,
        Budget.allows_max_iff]
      constructor
      · intro holds
        rcases holds with ⟨⟨enough, enoughRest⟩, ⟨allows, allowsRest⟩, nearest,
          nearestRest⟩
        exact ⟨⟨enough, allows, nearest⟩, enoughRest, allowsRest, nearestRest⟩
      · intro holds
        rcases holds with ⟨⟨enough, allows, nearest⟩, enoughRest, allowsRest,
          nearestRest⟩
        exact ⟨⟨enough, enoughRest⟩, ⟨allows, allowsRest⟩, nearest, nearestRest⟩

theorem ifThen_fits_iff :
    (sentenceInside levels).Fits budget (Sentence.ifThen test first) ↔
      condition.Fits budget test ∧ (sentence levels).Fits budget first := by
  rw [show condition.Fits budget test ↔ _ from whole_fits_iff]
  simp only [sentenceInside, sentence, Sentence.height, Sentence.nest, Sentence.peak,
    Sentence.tree, Stmt.ElseNearest, Nat.add_sub_cancel, Nat.add_le_add_iff_right,
    Budget.allows_max_iff]
  constructor
  · intro holds
    rcases holds with ⟨enough, ⟨allowsTest, allows⟩, nearest⟩
    exact ⟨allowsTest, enough, allows, nearest⟩
  · intro holds
    rcases holds with ⟨allowsTest, enough, allows, nearest⟩
    exact ⟨enough, ⟨allowsTest, allows⟩, nearest⟩

theorem ifElse_fits_iff :
    (sentenceInside levels).Fits budget (Sentence.ifElse test first second) ↔
      condition.Fits budget test ∧ (sentence levels).Fits budget first ∧
        (sentence levels).Fits budget second ∧ ¬ first.tree.EndsOpen := by
  rw [show condition.Fits budget test ↔ _ from whole_fits_iff]
  simp only [sentenceInside, sentence, Sentence.height, Sentence.nest, Sentence.peak,
    Sentence.tree, Stmt.ElseNearest, Nat.add_sub_cancel, Nat.add_le_add_iff_right,
    Budget.allows_max_iff, Nat.max_le]
  constructor
  · intro holds
    rcases holds with
      ⟨⟨enough, enoughElse⟩, ⟨allowsTest, allows, allowsElse⟩, closed, nearest,
        nearestElse⟩
    exact ⟨allowsTest, ⟨enough, allows, nearest⟩,
      ⟨enoughElse, allowsElse, nearestElse⟩, closed⟩
  · intro holds
    rcases holds with ⟨allowsTest, ⟨enough, allows, nearest⟩,
      ⟨enoughElse, allowsElse, nearestElse⟩, closed⟩
    exact ⟨⟨enough, enoughElse⟩, ⟨allowsTest, allows, allowsElse⟩, closed, nearest,
      nearestElse⟩

/-- A loop takes as much of the limits as a conditional without an alternative. -/
theorem loop_fits_iff :
    (sentenceInside levels).Fits budget (Sentence.loop test first) ↔
      condition.Fits budget test ∧ (sentence levels).Fits budget first := by
  rw [← ifThen_fits_iff]
  simp only [sentenceInside, sentence, Sentence.height, Sentence.nest, Sentence.peak,
    Sentence.tree, Stmt.ElseNearest]

theorem print_fits_iff :
    (sentenceInside levels).Fits budget (Sentence.print value) ↔
      (phrase maxNesting .whole).Fits budget value := by
  rw [whole_fits_iff]
  simp [sentenceInside, sentence, Sentence.height, Sentence.nest, Sentence.peak,
    Sentence.tree, Stmt.ElseNearest]

theorem assign_fits_iff {written : Target} :
    (sentenceInside levels).Fits budget (Sentence.assign written value) ↔
      (phrase maxNesting .whole).Fits budget value := by
  rw [whole_fits_iff]
  simp [sentenceInside, sentence, Sentence.height, Sentence.nest, Sentence.peak,
    Sentence.tree, Stmt.ElseNearest]

end

end Language

namespace Stmt

open StackCompiler.Parser

variable {levels : Nat} {statement : Parser Stmt}

theorem reads_readCondition : readCondition.Reads Language.condition := by
  intro before result after
  simp only [readCondition, bind_eq_ok_iff, punctuator_eq_ok_iff, pure_eq_ok_iff,
    Expr.reads_read.iff]
  constructor
  · intro accepted
    rcases accepted with
      ⟨_, opened, ⟨sameOpen, spellsOpen⟩, _, _, ⟨same, condition, rfl, fits, spells, _⟩,
        _, _, ⟨sameClose, spellsClose⟩, rfl, rfl⟩
    rw [sameOpen] at fits
    refine ⟨sameClose.trans (same.trans sameOpen), condition, rfl, fits, ?_, trivial⟩
    exact Spells.uncons_iff.2
      ⟨_, spellsOpen, Spells.append_iff.2 ⟨_, spells, spellsClose⟩⟩
  · intro derived
    rcases derived with ⟨same, condition, rfl, fits, spells, _⟩
    obtain ⟨opened, spellsOpen, spells⟩ := Spells.uncons_iff.1 spells
    obtain ⟨rest, spellsContent, spellsClose⟩ := Spells.append_iff.1 spells
    have closed : condition.Closed (Cursor.next? ⟨rest, before.budget⟩) := by
      rw [Cursor.next?, spellsClose.map_lexeme_head?]
      exact condition.closed_of_mark (by decide) (by decide)
    exact ⟨⟨⟩, ⟨opened, before.budget⟩, ⟨rfl, spellsOpen⟩, condition.tree,
      ⟨rest, before.budget⟩, ⟨rfl, condition, rfl, fits, spellsContent, closed⟩, ⟨⟩,
      after, ⟨same, spellsClose⟩, rfl, rfl⟩

theorem opening_of_spans {before after : Cursor} {result : Stmt}
    (spans : (Language.sentence levels).Spans before result after) :
    ∃ sentence : Sentence, before.next? = some sentence.opening := by
  obtain ⟨_, sentence, _, _, spells, _⟩ := spans
  exact ⟨sentence, spells.map_lexeme_head?.trans (sentence.head?_lexemes _)⟩

theorem not_atEnd_of_next? {cursor : Cursor} {next : Lexeme}
    (isNext : cursor.next? = some next) (noEnd : next.kind ≠ .endOfInput) :
    cursor.rest.head?.all Token.isEnd = false := by
  obtain ⟨token, found, rfl⟩ := Option.map_eq_some_iff.1 isNext
  rw [found]
  simpa [Token.isEnd, Token.lexeme] using noEnd

theorem readsOn_inBlock? (reads : statement.Reads (.sentence levels)) :
    (inBlock? statement).ReadsOn (.sentence levels) [.mark closeBrace]
      (fun _ => True) where
  some_iff := by
    intro before result after
    simp only [inBlock?, bind_eq_ok_iff, Bool.exists_bool, Bool.false_eq_true, if_false,
      if_true, acceptPunctuator_eq_false_iff, acceptPunctuator_eq_true_iff,
      atEnd_eq_ok_iff, pure_eq_ok_iff, throw_eq_ok_iff, reads.iff, reduceCtorEq,
      false_and, and_false, exists_false, or_false, Option.some.injEq]
    constructor
    · intro accepted
      rcases accepted with ⟨_, ⟨_, rfl⟩, _, ⟨_, rfl⟩, _, _, spans, rfl, rfl⟩
      exact spans
    · intro spans
      obtain ⟨sentence, next⟩ := opening_of_spans spans
      refine ⟨before, ⟨?_, rfl⟩, before, ⟨?_, rfl⟩, result, after, spans, rfl, rfl⟩
      · rw [next, ne_eq, Option.some.injEq]
        exact sentence.opening_ne_closeBrace
      · exact not_atEnd_of_next? next sentence.kind_opening_ne_endOfInput
  none_iff := by
    intro before after
    simp only [inBlock?, bind_eq_ok_iff, Bool.exists_bool, Bool.false_eq_true, if_false,
      if_true, acceptPunctuator_eq_false_iff, acceptPunctuator_eq_true_iff,
      atEnd_eq_ok_iff, pure_eq_ok_iff, throw_eq_ok_iff, reduceCtorEq, false_and,
      and_false, exists_false, false_or, or_false, true_and, and_true]
    constructor
    · intro accepted
      rcases accepted with ⟨_, taken, rfl⟩
      exact taken
    · intro taken
      exact ⟨after, taken, rfl⟩

theorem lexemes_ne_nil (levels : Nat) (form : (Language.sentence levels).Form) :
    (Language.sentence levels).lexemes form ≠ [] := by
  intro isNil
  have begins := Sentence.head?_lexemes form []
  rw [show Sentence.lexemes form = [] from isNil] at begins
  contradiction

/-- A sentence that begins behind another one does not begin with `else`. -/
theorem closed_of_sentence (levels : Nat)
    (form other : (Language.sentence levels).Form) :
    (Language.sentence levels).Closed form
      ((Language.sentence levels).lexemes other).head? := by
  intro _
  have begins := Sentence.head?_lexemes other []
  rw [List.append_nil] at begins
  rw [show (Language.lexemes _ other).head? = _ from begins, ne_eq, Option.some.injEq]
  exact Sentence.opening_ne_else other

theorem reads_inBlock (reads : statement.Reads (.sentence levels)) :
    (many (inBlock? statement)).Reads
      ((Language.sentence levels).many [.mark closeBrace] fun _ => True) :=
  (readsOn_inBlock? reads).many (lexemes_ne_nil levels) (closed_of_sentence levels)

theorem assignment_eq_ok_iff {before after : Cursor} {result : Stmt} :
    (do
      let target ← Expr.readDesignator
      punctuator "="
      let value ← Expr.read
      punctuator ";"
      return assign target value : Parser Stmt) before = .ok result after ↔
      after.budget = before.budget ∧ ∃ (written : Target) (value : Phrase .whole),
        assign written.tree value.tree = result ∧
        (Language.phrase maxNesting .whole).Fits before.budget value ∧
        Spells (Sentence.assign written value).lexemes before.rest after.rest := by
  simp only [bind_eq_ok_iff, punctuator_eq_ok_iff, pure_eq_ok_iff,
    Expr.reads_readDesignator.iff, Expr.reads_read.iff, Sentence.lexemes]
  constructor
  · intro accepted
    rcases accepted with
      ⟨_, _, ⟨sameTarget, written, rfl, _, spellsTarget, _⟩, _, _,
        ⟨sameSign, spellsSign⟩, _, _, ⟨same, value, rfl, fits, spells, _⟩, _, _,
        ⟨sameEnd, spellsEnd⟩, rfl, rfl⟩
    rw [sameSign, sameTarget] at fits
    refine ⟨sameEnd.trans (same.trans (sameSign.trans sameTarget)), written, value,
      rfl, fits, ?_⟩
    exact Spells.append_iff.2 ⟨_, spellsTarget, Spells.uncons_iff.2 ⟨_, spellsSign,
      Spells.append_iff.2 ⟨_, spells, spellsEnd⟩⟩⟩
  · intro derived
    rcases derived with ⟨same, written, value, rfl, fits, spells⟩
    obtain ⟨first, spellsTarget, spells⟩ := Spells.append_iff.1 spells
    obtain ⟨second, spellsSign, spells⟩ := Spells.uncons_iff.1 spells
    obtain ⟨third, spellsValue, spellsEnd⟩ := Spells.append_iff.1 spells
    have closedTarget :
        Language.target.Closed written (Cursor.next? ⟨first, before.budget⟩) := by
      rw [Cursor.next?, spellsSign.map_lexeme_head?]
      simp [Language.target]
    have closedValue : value.Closed (Cursor.next? ⟨third, before.budget⟩) := by
      rw [Cursor.next?, spellsEnd.map_lexeme_head?]
      exact value.closed_of_mark (by decide) (by decide)
    exact ⟨written.tree, ⟨first, before.budget⟩,
      ⟨rfl, written, rfl, trivial, spellsTarget, closedTarget⟩, ⟨⟩,
      ⟨second, before.budget⟩, ⟨rfl, spellsSign⟩, value.tree, ⟨third, before.budget⟩,
      ⟨rfl, value, rfl, fits, spellsValue, closedValue⟩, ⟨⟩, after,
      ⟨same, spellsEnd⟩, rfl, rfl⟩

/-- What is read as a statement is a sentence. -/
theorem spans_of_readOver (reads : statement.Reads (.sentence levels))
    {before after : Cursor} {result : Stmt}
    (readsOver : readOver statement before = .ok result after) :
    (Language.sentenceInside levels).Spans before result after := by
  simp only [readOver, bind_eq_ok_iff, Bool.exists_bool, Bool.false_eq_true, if_false,
    if_true, acceptPunctuator_eq_false_iff, acceptPunctuator_eq_true_iff,
    acceptKeyword_eq_false_iff, acceptKeyword_eq_true_iff, punctuator_eq_ok_iff,
    pure_eq_ok_iff, reads.iff, (reads_inBlock reads).iff, reads_readCondition.iff,
    Expr.reads_read.iff] at readsOver
  rcases readsOver with
    (⟨_, ⟨_, rfl⟩,
      ⟨_, ⟨_, rfl⟩,
        ⟨_, ⟨_, rfl⟩,
          ⟨_, ⟨_, rfl⟩, found, _, peeked, rest⟩ |
          ⟨opened, ⟨sameOpen, spellsOpen⟩, _, _, spansValue, _, _,
            ⟨sameEnd, spellsEnd⟩, rfl, rfl⟩⟩ |
        ⟨opened, ⟨sameOpen, spellsOpen⟩, _, _, spansTest, _, _, spansBody, rfl, rfl⟩⟩ |
      ⟨opened, ⟨sameOpen, spellsOpen⟩, _, _, spansTest, _, _, spansFirst,
        ⟨_, ⟨noElse, rfl⟩, rfl, rfl⟩ |
        ⟨_, ⟨sameElse, spellsElse⟩, _, _, spansSecond, rfl, rfl⟩⟩⟩ |
    ⟨opened, ⟨sameOpen, spellsOpen⟩, _, _, spansBody, rfl, rfl⟩)
  · have rest :=
      (peekIdentifier_eq_ok_iff.1 (bind_eq_ok_iff.2 ⟨found, _, peeked, rest⟩)).2
    obtain ⟨same, written, value, rfl, fits, spells⟩ := assignment_eq_ok_iff.1 rest
    exact ⟨same, .assign written value, rfl, Language.assign_fits_iff.2 fits,
      spells, False.elim⟩
  · obtain ⟨same, value, rfl, fits, spells, closed⟩ := spansValue
    rw [sameOpen] at fits
    refine ⟨sameEnd.trans (same.trans sameOpen), .print value, rfl,
      Language.print_fits_iff.2 fits, ?_, False.elim⟩
    exact Spells.uncons_iff.2
      ⟨_, spellsOpen, Spells.append_iff.2 ⟨_, spells, spellsEnd⟩⟩
  · obtain ⟨sameTest, test, rfl, fitsTest, spellsTest, _⟩ := spansTest
    obtain ⟨sameBody, body, rfl, fitsBody, spellsBody, closed⟩ := spansBody
    rw [sameTest, sameOpen] at fitsBody
    rw [sameOpen] at fitsTest
    refine ⟨sameBody.trans (sameTest.trans sameOpen), .loop test body, rfl,
      Language.loop_fits_iff.2 ⟨fitsTest, fitsBody⟩, ?_, closed⟩
    exact Spells.uncons_iff.2
      ⟨_, spellsOpen, Spells.append_iff.2 ⟨_, spellsTest, spellsBody⟩⟩
  · obtain ⟨sameTest, test, rfl, fitsTest, spellsTest, _⟩ := spansTest
    obtain ⟨sameFirst, first, rfl, fitsFirst, spellsFirst, closed⟩ := spansFirst
    rw [sameTest, sameOpen] at fitsFirst
    rw [sameOpen] at fitsTest
    refine ⟨sameFirst.trans (sameTest.trans sameOpen), .ifThen test first, rfl,
      Language.ifThen_fits_iff.2 ⟨fitsTest, fitsFirst⟩, ?_, fun _ => noElse⟩
    exact Spells.uncons_iff.2
      ⟨_, spellsOpen, Spells.append_iff.2 ⟨_, spellsTest, spellsFirst⟩⟩
  · obtain ⟨sameTest, test, rfl, fitsTest, spellsTest, _⟩ := spansTest
    obtain ⟨sameFirst, first, rfl, fitsFirst, spellsFirst, closedFirst⟩ := spansFirst
    obtain ⟨sameSecond, second, rfl, fitsSecond, spellsSecond, closedSecond⟩ :=
      spansSecond
    rw [sameElse, sameFirst, sameTest, sameOpen] at fitsSecond
    rw [sameTest, sameOpen] at fitsFirst
    rw [sameOpen] at fitsTest
    have notOpen : ¬ first.tree.EndsOpen := by
      intro endsOpen
      exact closedFirst endsOpen spellsElse.map_lexeme_head?
    refine ⟨sameSecond.trans
        (sameElse.trans (sameFirst.trans (sameTest.trans sameOpen))),
      .ifElse test first second, rfl,
      Language.ifElse_fits_iff.2 ⟨fitsTest, fitsFirst, fitsSecond, notOpen⟩, ?_,
      closedSecond⟩
    exact Spells.uncons_iff.2 ⟨_, spellsOpen,
      Spells.append_iff.2 ⟨_, spellsTest,
        Spells.append_iff.2 ⟨_, spellsFirst,
          Spells.uncons_iff.2 ⟨_, spellsElse, spellsSecond⟩⟩⟩⟩
  · obtain ⟨same, body, rfl, fits, spells, _⟩ := spansBody
    rw [sameOpen] at fits
    exact ⟨same.trans sameOpen, .block body, Sentence.tree_block body,
      Language.block_fits_iff.2 fits,
      Sentence.spells_block_iff.2 ⟨_, spellsOpen, spells⟩, False.elim⟩

/-- Every sentence that fits is read. -/
theorem readOver_of_spans (reads : statement.Reads (.sentence levels))
    {before after : Cursor} {result : Stmt}
    (spans : (Language.sentenceInside levels).Spans before result after) :
    readOver statement before = .ok result after := by
  obtain ⟨same, sentence, rfl, fits, spells, closed⟩ := spans
  have next : before.next? = some sentence.opening :=
    spells.map_lexeme_head?.trans (sentence.head?_lexemes _)
  simp only [readOver, bind_eq_ok_iff, Bool.exists_bool, Bool.false_eq_true, if_false,
    if_true, acceptPunctuator_eq_false_iff, acceptPunctuator_eq_true_iff,
    acceptKeyword_eq_false_iff, acceptKeyword_eq_true_iff, punctuator_eq_ok_iff,
    pure_eq_ok_iff, reads.iff, (reads_inBlock reads).iff, reads_readCondition.iff,
    Expr.reads_read.iff]
  have notBlock (other : sentence.opening ≠ .mark openBrace) :
      before.next? ≠ some (.mark openBrace) := by
    rwa [next, ne_eq, Option.some.injEq]
  have notKeyword (word : String) (other : sentence.opening ≠ .keyword word) :
      before.next? ≠ some (.keyword word) := by
    rwa [next, ne_eq, Option.some.injEq]
  cases sentence with
  | block body =>
      obtain ⟨opened, spellsOpen, spells⟩ := Sentence.spells_block_iff.1 spells
      have fitsAll := Language.block_fits_iff.1 fits
      exact .inr ⟨⟨opened, before.budget⟩, ⟨rfl, spellsOpen⟩, body.map Sentence.tree,
        after, ⟨same, body, rfl, fitsAll, spells, trivial, fun _ _ _ => by simp⟩,
        (Sentence.tree_block body).symm, rfl⟩
  | ifThen test first =>
      obtain ⟨opened, spellsOpen, spells⟩ := Spells.uncons_iff.1 spells
      obtain ⟨between, spellsTest, spellsFirst⟩ := Spells.append_iff.1 spells
      obtain ⟨fitsTest, fitsFirst⟩ := Language.ifThen_fits_iff.1 fits
      have noElse : after.next? ≠ some (.keyword "else") := closed trivial
      exact .inl ⟨before, ⟨notBlock (by simp [Sentence.opening]), rfl⟩,
        .inr ⟨⟨opened, before.budget⟩, ⟨rfl, spellsOpen⟩, test.tree,
          ⟨between, before.budget⟩, ⟨rfl, test, rfl, fitsTest, spellsTest, trivial⟩,
          first.tree, after,
          ⟨same, first, rfl, fitsFirst, spellsFirst, fun _ => noElse⟩,
          .inl ⟨after, ⟨noElse, rfl⟩, rfl, rfl⟩⟩⟩
  | ifElse test first second =>
      obtain ⟨opened, spellsOpen, spells⟩ := Spells.uncons_iff.1 spells
      obtain ⟨between, spellsTest, spells⟩ := Spells.append_iff.1 spells
      obtain ⟨middle, spellsFirst, spells⟩ := Spells.append_iff.1 spells
      obtain ⟨behind, spellsElse, spellsSecond⟩ := Spells.uncons_iff.1 spells
      obtain ⟨fitsTest, fitsFirst, fitsSecond, notOpen⟩ :=
        Language.ifElse_fits_iff.1 fits
      exact .inl ⟨before, ⟨notBlock (by simp [Sentence.opening]), rfl⟩,
        .inr ⟨⟨opened, before.budget⟩, ⟨rfl, spellsOpen⟩, test.tree,
          ⟨between, before.budget⟩, ⟨rfl, test, rfl, fitsTest, spellsTest, trivial⟩,
          first.tree, ⟨middle, before.budget⟩, ⟨rfl, first, rfl, fitsFirst, spellsFirst,
            fun endsOpen => absurd endsOpen notOpen⟩,
          .inr ⟨⟨behind, before.budget⟩, ⟨rfl, spellsElse⟩, second.tree, after,
            ⟨same, second, rfl, fitsSecond, spellsSecond, closed⟩, rfl, rfl⟩⟩⟩
  | loop test body =>
      obtain ⟨opened, spellsOpen, spells⟩ := Spells.uncons_iff.1 spells
      obtain ⟨between, spellsTest, spellsBody⟩ := Spells.append_iff.1 spells
      obtain ⟨fitsTest, fitsBody⟩ := Language.loop_fits_iff.1 fits
      exact .inl ⟨before, ⟨notBlock (by simp [Sentence.opening]), rfl⟩,
        .inl ⟨before, ⟨notKeyword _ (by simp [Sentence.opening]), rfl⟩,
          .inr ⟨⟨opened, before.budget⟩, ⟨rfl, spellsOpen⟩, test.tree,
            ⟨between, before.budget⟩, ⟨rfl, test, rfl, fitsTest, spellsTest, trivial⟩,
            body.tree, after,
            ⟨same, body, rfl, fitsBody, spellsBody, closed⟩, rfl, rfl⟩⟩⟩
  | print value =>
      obtain ⟨opened, spellsOpen, spells⟩ := Spells.uncons_iff.1 spells
      obtain ⟨between, spellsValue, spellsEnd⟩ := Spells.append_iff.1 spells
      have closedValue : value.Closed (Cursor.next? ⟨between, before.budget⟩) := by
        rw [Cursor.next?, spellsEnd.map_lexeme_head?]
        exact value.closed_of_mark (by decide) (by decide)
      exact .inl ⟨before, ⟨notBlock (by simp [Sentence.opening]), rfl⟩,
        .inl ⟨before, ⟨notKeyword _ (by simp [Sentence.opening]), rfl⟩,
          .inl ⟨before, ⟨notKeyword _ (by simp [Sentence.opening]), rfl⟩,
            .inr ⟨⟨opened, before.budget⟩, ⟨rfl, spellsOpen⟩, value.tree,
              ⟨between, before.budget⟩,
              ⟨rfl, value, rfl, Language.print_fits_iff.1 fits, spellsValue,
                closedValue⟩,
              ⟨⟩, after, ⟨same, spellsEnd⟩, rfl, rfl⟩⟩⟩⟩
  | assign written value =>
      have reads := (@peekIdentifier_eq_ok_iff _ _ _ (.unexpected .statement) _ _).2
        ⟨⟨written.name, next⟩, assignment_eq_ok_iff.2
            ⟨same, written, value, rfl, Language.assign_fits_iff.1 fits, spells⟩⟩
      exact .inl ⟨before, ⟨notBlock (by simp [Sentence.opening]), rfl⟩,
        .inl ⟨before, ⟨notKeyword _ (by simp [Sentence.opening]), rfl⟩,
          .inl ⟨before, ⟨notKeyword _ (by simp [Sentence.opening]), rfl⟩,
            .inl ⟨before, ⟨notKeyword _ (by simp [Sentence.opening]), rfl⟩,
              bind_eq_ok_iff.1 reads⟩⟩⟩⟩

/-- No more statements are read within each other than there are levels. -/
theorem reads_readWithin (levels : Nat) :
    (readWithin levels).Reads (.sentence levels) := by
  induction levels with
  | zero =>
      intro before result after
      rw [readWithin, throw_eq_ok_iff]
      constructor
      · exact False.elim
      · intro accepted
        rcases accepted with ⟨_, sentence, _, ⟨tooDeep, _⟩, _⟩
        exact absurd sentence.height_pos (by omega)
  | succ levels ih =>
      have reads : (readOver (readWithin levels)).Reads (.sentenceInside levels) :=
        fun _ _ _ => ⟨spans_of_readOver ih, readOver_of_spans ih⟩
      exact reads.nested.congr fun _ _ => Language.deepened_sentenceInside_fits_iff

/-- Statements are read by the grammar. -/
theorem reads_read : Stmt.read.Reads (.sentence maxNesting) :=
  reads_readWithin maxNesting

end Stmt

end StackCompiler
