import StackCompiler.Proofs.Grammar.Contents
import StackCompiler.Proofs.Reading.Exhaustion
import StackCompiler.Proofs.Reading.Sources

/-!
# Programs with too many operators

A program whose statements and operands do not nest too deeply is read, unless
an expression links too many operands at the same time: then it is reported that
the expression is too long.
-/

namespace StackCompiler

open StackCompiler.Parser

/-! ### Repetitions -/

/-- A repetition copes if its first step and the rest of it do. -/
theorem Parser.copes_many_cons {α : Type} {step? : Parser (Option α)} {item : Parser α}
    (progress : ∀ {before result after}, step? before = .ok (some result) after →
      after.rest.length < before.rest.length)
    {start between : Cursor} {shallow known : Prop} {Good : Cursor → Prop}
    (isItem : step? start = (do return some (← item) : Parser (Option α)) start)
    (first : Outcome.Copes shallow (fun after => after = between ∧ known) (item start))
    (rest : known → Outcome.Copes shallow Good (many step? between)) :
    Outcome.Copes shallow Good (many step? start) := by
  simp only [Bind.bind, EStateM.bind] at isItem
  cases run : item start with
  | error problem stuck =>
      rw [run] at isItem first
      have fails : many step? start = .error problem stuck :=
        (many_eq_error_iff progress).2 ⟨[], start, .nil, isItem⟩
      rw [fails]
      exact first
  | ok result after =>
      rw [run] at isItem first
      rcases first with ⟨rfl, holds⟩
      have later := rest holds
      cases runLater : many step? after with
      | ok results last =>
          obtain ⟨middle, repeats, stops⟩ := (many_eq_ok_iff progress).1 runLater
          rw [runLater] at later
          exact .of_ok
            ((many_eq_ok_iff progress).2 ⟨middle, .cons isItem repeats, stops⟩) later
      | error problem stuck =>
          obtain ⟨results, middle, repeats, fails⟩ :=
            (many_eq_error_iff progress).1 runLater
          rw [runLater] at later
          have failsAll :=
            (many_eq_error_iff progress).2 ⟨_, middle, .cons isItem repeats, fails⟩
          rw [failsAll]
          exact later

/-! ### Statements -/

namespace Sentence

/-- Sentences do not begin with `else`, so it does not follow one of them if it
does not follow the last one. -/
theorem head?_flatMap_ne_else {sentences : List Sentence} {after : List Lexeme}
    (noElse : after.head? ≠ some (.keyword "else")) :
    (sentences.flatMap lexemes ++ after).head? ≠ some (.keyword "else") := by
  cases sentences with
  | nil => exact noElse
  | cons first others =>
      rw [List.flatMap_cons, List.append_assoc, first.head?_lexemes, ne_eq,
        Option.some.injEq]
      exact first.opening_ne_else

/-- Whether there is room for the nesting of a sentence, in which at most
`levels` statements may be open within each other. -/
def Shallow (levels : Nat) (budget : Budget) (sentence : Sentence) : Prop :=
  sentence.height ≤ levels ∧ budget.depth + sentence.nest ≤ maxNesting

/-- Whether there is room for the operators of a sentence. -/
def Light (budget : Budget) (sentence : Sentence) : Prop :=
  budget.chain + sentence.peak ≤ maxChain

/-- Whether there is room for the nesting of a sentence once a level has been
opened for the sentence itself. -/
def Inside (levels : Nat) (budget : Budget) (sentence : Sentence) : Prop :=
  sentence.height ≤ levels + 1 ∧ budget.depth + sentence.nest ≤ maxNesting + 1

section

variable {levels : Nat} {budget : Budget} {condition : Phrase .whole}
  {first second : Sentence}

theorem inside_ifThen_iff :
    (ifThen condition first).Inside levels budget ↔
      condition.Shallow maxNesting budget ∧ first.Shallow levels budget := by
  simp only [Inside, Shallow, Phrase.Shallow, height, nest]
  omega

theorem light_ifThen_iff :
    (ifThen condition first).Light budget ↔
    condition.Light budget ∧ first.Light budget := by
  simp only [Light, Phrase.Light, peak]
  omega

theorem inside_ifElse_iff :
    (ifElse condition first second).Inside levels budget ↔
    condition.Shallow maxNesting budget ∧ first.Shallow levels budget ∧
    second.Shallow levels budget := by
  simp only [Inside, Shallow, Phrase.Shallow, height, nest]
  omega

theorem light_ifElse_iff :
    (ifElse condition first second).Light budget ↔
      condition.Light budget ∧ first.Light budget ∧ second.Light budget := by
  simp only [Light, Phrase.Light, peak]
  omega

/-- A loop takes as much of the limits as a conditional without an alternative. -/
theorem inside_loop_iff :
    (loop condition first).Inside levels budget ↔
      condition.Shallow maxNesting budget ∧ first.Shallow levels budget := by
  rw [← inside_ifThen_iff]
  simp only [Inside, height, nest]

theorem light_loop_iff :
    (loop condition first).Light budget ↔
    condition.Light budget ∧ first.Light budget := by
  rw [← light_ifThen_iff]
  simp only [Light, peak]

theorem inside_print_iff {value : Phrase .whole} :
    (print value).Inside levels budget ↔ value.Shallow maxNesting budget := by
  simp only [Inside, Phrase.Shallow, height, nest]
  omega

theorem light_print_iff {value : Phrase .whole} :
    (print value).Light budget ↔ value.Light budget := by
  simp only [Light, Phrase.Light, peak]

theorem inside_assign_iff {target : Target} {value : Phrase .whole} :
    (assign target value).Inside levels budget ↔ value.Shallow maxNesting budget := by
  simp only [Inside, Phrase.Shallow, height, nest]
  omega

theorem light_assign_iff {target : Target} {value : Phrase .whole} :
    (assign target value).Light budget ↔ value.Light budget := by
  simp only [Light, Phrase.Light, peak]

theorem inside_block_iff {body : List Sentence} :
    (block body).Inside levels budget ↔
    ∀ sentence ∈ body, sentence.Shallow levels budget := by
  have bound := budget.depth_le
  simp only [Inside, Shallow, height, nest]
  induction body with
  | nil =>
      rw [heightAll, nestAll]
      simp
      omega
  | cons first rest ih =>
      rw [heightAll, nestAll, List.forall_mem_cons]
      refine Iff.trans ?_ (and_congr_right' ih)
      omega

theorem light_block_iff {body : List Sentence} :
    (block body).Light budget ↔ ∀ sentence ∈ body, sentence.Light budget := by
  have bound := budget.chain_le
  simp only [Light, peak]
  induction body with
  | nil =>
      rw [peakAll]
      simpa using bound
  | cons first rest ih =>
      rw [peakAll, List.forall_mem_cons]
      refine Iff.trans ?_ (and_congr_right' ih)
      omega

end

end Sentence

namespace Stmt

variable {levels : Nat} {statement : Parser Stmt}

/-- Whether a parser reads every sentence to its end, wherever it is written,
unless a limit is reached. -/
def CopesWith (levels : Nat) (parser : Parser Stmt) : Prop :=
  ∀ {start : Cursor} {sentence : Sentence} {rest : List Token},
    sentence.tree.ElseNearest →
    Spells sentence.lexemes start.rest rest →
    (sentence.tree.EndsOpen → rest.head?.map Token.lexeme ≠ some (.keyword "else")) →
    Outcome.Copes (sentence.Shallow levels start.budget)
      (fun after => after = ⟨rest, start.budget⟩ ∧ sentence.Light start.budget)
        (parser start)

theorem copes_readCondition {condition : Phrase .whole} {start : Cursor}
    {rest : List Token} (spells : Spells condition.enclosed start.rest rest) :
    Outcome.Copes (condition.Shallow maxNesting start.budget)
      (fun after => after = ⟨rest, start.budget⟩ ∧ condition.Light start.budget)
      (readCondition start) := by
  obtain ⟨opened, spellsOpen, spells⟩ := Spells.uncons_iff.1 spells
  obtain ⟨middle, spellsContent, spellsClose⟩ := Spells.append_iff.1 spells
  have closed : condition.Closed (middle.head?.map Token.lexeme) := by
    rw [spellsClose.map_lexeme_head?]
    exact condition.closed_of_mark (by decide) (by decide)
  refine (copes_punctuator spellsOpen).bind fun _ _ => ?_
  refine (@Expr.copes_read
    ⟨opened, start.budget⟩ condition middle spellsContent closed).bind
    fun light tree => ?_
  refine (@copes_punctuator ⟨middle, start.budget⟩ _ _ _ spellsClose).bind fun _ _ => ?_
  exact ⟨rfl, light⟩

/-- An expression up to a semicolon. -/
theorem copes_value {value : Phrase .whole} {start : Cursor} {rest : List Token}
    {make : Expr → Stmt}
    (spells : Spells (value.lexemes ++ [.mark ";"]) start.rest rest) :
    Outcome.Copes (value.Shallow maxNesting start.budget)
      (fun after => after = ⟨rest, start.budget⟩ ∧ value.Light start.budget)
      ((do
        let tree ← Expr.read
        punctuator ";"
        return make tree : Parser Stmt) start) := by
  obtain ⟨middle, spellsValue, spellsEnd⟩ := Spells.append_iff.1 spells
  have closed : value.Closed (middle.head?.map Token.lexeme) := by
    rw [spellsEnd.map_lexeme_head?]
    exact value.closed_of_mark (by decide) (by decide)
  refine (Expr.copes_read spellsValue closed).bind fun light tree => ?_
  refine (@copes_punctuator ⟨middle, start.budget⟩ _ _ _ spellsEnd).bind fun _ _ => ?_
  exact ⟨rfl, light⟩

/-- Sentences are read one after the other, given that each of them is
recognised by its first lexeme. -/
theorem copes_many {step? : Parser (Option Stmt)} {stop : List Lexeme}
    {Stops : Option Lexeme → Prop} (step : step?.ReadsOn (.sentence levels) stop Stops)
    (copes : CopesWith levels statement)
    (isItem : ∀ {start : Cursor} {sentence : Sentence}, start.next? =
        some sentence.opening →
      step? start = (do return some (← statement) : Parser (Option Stmt)) start)
    {sentences : List Sentence}
    (nearest : ∀ sentence ∈ sentences, sentence.tree.ElseNearest) {start : Cursor}
    {rest : List Token}
    (spells : Spells (sentences.flatMap Sentence.lexemes ++ stop) start.rest rest)
    (stops : Stops (stop ++ rest.map Token.lexeme).head?)
    (noElse : (stop ++ rest.map Token.lexeme).head? ≠ some (.keyword "else")) :
    Outcome.Copes (∀ sentence ∈ sentences, sentence.Shallow levels start.budget)
      (fun after => after = ⟨rest, start.budget⟩ ∧
        ∀ sentence ∈ sentences, sentence.Light start.budget) (many step? start) := by
  have progress {before after : Cursor} {result : Stmt}
    (reads : step? before = .ok (some result) after) :
      after.rest.length < before.rest.length :=
    step.shorter (lexemes_ne_nil levels) reads
  induction sentences generalizing start with
  | nil =>
      have stopsHere : Stops start.next? := by
        rw [Cursor.next?, spells.map_lexeme_head?]
        exact stops
      have ends : step? start = .ok none ⟨rest, start.budget⟩ :=
        step.none_iff.2 ⟨rfl, spells, stopsHere⟩
      exact .of_ok ((many_eq_ok_iff progress).2 ⟨start, .nil, ends⟩) ⟨rfl, by simp⟩
  | cons first others ih =>
      obtain ⟨nearestFirst, nearestOthers⟩ := List.forall_mem_cons.1 nearest
      rw [List.flatMap_cons, List.append_assoc] at spells
      obtain ⟨between, spellsFirst, spellsOthers⟩ := Spells.append_iff.1 spells
      have next : start.next? = some first.opening :=
        spellsFirst.map_lexeme_head?.trans (first.head?_lexemes _)
      have closed : between.head?.map Token.lexeme ≠ some (.keyword "else") := by
        rw [spellsOthers.map_lexeme_head?, List.append_assoc]
        exact Sentence.head?_flatMap_ne_else noElse
      have copesFirst := copes nearestFirst spellsFirst fun _ => closed
      refine copes_many_cons progress (isItem next) (copesFirst.mono ?_) fun light => ?_
      · exact fun shallow => shallow first List.mem_cons_self
      · refine ((@ih nearestOthers ⟨between, start.budget⟩ spellsOthers).mono ?_).imp
          fun after good => ?_
        · exact fun shallow sentence found => shallow sentence
            (List.mem_cons_of_mem _ found)
        · exact ⟨good.1, List.forall_mem_cons.2 ⟨light, good.2⟩⟩

/-- Where a sentence begins, the tokens are not at their end. -/
theorem atEnd_of_opening {start : Cursor} {sentence : Sentence}
    (next : start.next? = some sentence.opening) : atEnd start = .ok false start :=
  atEnd_eq_ok_iff.2 ⟨not_atEnd_of_next? next sentence.kind_opening_ne_endOfInput, rfl⟩

theorem copes_inBlock (reads : statement.Reads (.sentence levels))
    (copes : CopesWith levels statement) {sentences : List Sentence}
    (nearest : ∀ sentence ∈ sentences, sentence.tree.ElseNearest) {start : Cursor}
    {rest : List Token}
    (spells : Spells
      (sentences.flatMap Sentence.lexemes ++ [.mark closeBrace]) start.rest rest) :
    Outcome.Copes (∀ sentence ∈ sentences, sentence.Shallow levels start.budget)
      (fun after => after = ⟨rest, start.budget⟩ ∧
        ∀ sentence ∈ sentences, sentence.Light start.budget)
      (many (inBlock? statement) start) := by
  refine copes_many (readsOn_inBlock? reads) copes ?_ nearest spells trivial (by simp)
  intro start sentence next
  have noBrace := acceptPunctuator_of_next? next sentence.opening_ne_closeBrace
  simp only [inBlock?, Bind.bind, EStateM.bind, noBrace, atEnd_of_opening next,
    Bool.false_eq_true, if_false]

theorem identifier?_head? {start : Cursor} {name : String}
    (next : start.next? = some (.identifier name)) :
    start.rest.head?.bind Token.identifier? = some name := by
  obtain ⟨token, isNext, isName⟩ := Option.map_eq_some_iff.1 next
  rw [isNext]
  exact Token.identifier?_eq_some_iff.2 isName

section

variable {start : Cursor} {rest : List Token}

/-- Whether what a sentence consists of is read to its end, one nesting level
inside of the sentence. -/
def CopesInside (levels : Nat) (statement : Parser Stmt) (start : Cursor)
    (rest : List Token) (sentence : Sentence) : Prop :=
  Outcome.Copes (sentence.Inside levels start.budget)
    (fun after => after = ⟨rest, start.budget⟩ ∧ sentence.Light start.budget)
      (readOver statement start)

theorem copes_block (reads : statement.Reads (.sentence levels))
    (copes : CopesWith levels statement) {body : List Sentence}
    (nearest : (Sentence.block body).tree.ElseNearest)
    (spells : Spells (Sentence.block body).lexemes start.rest rest) :
    CopesInside levels statement start rest (.block body) := by
  rcases Sentence.spells_block_iff.1 spells with ⟨opened, spellsOpen, spellsBody⟩
  rw [Sentence.tree, ElseNearest, elseNearestAll_treeAll_iff] at nearest
  have copesBody :=
    @copes_inBlock _ _ reads copes _ nearest ⟨opened, start.budget⟩ _ spellsBody
  refine .taken (acceptPunctuator_of_spells spellsOpen)
    ((copesBody.mono Sentence.inside_block_iff.1).bind fun light _ => ?_)
  exact ⟨rfl, Sentence.light_block_iff.2 light⟩

theorem copes_ifThen (copes : CopesWith levels statement) {test : Phrase .whole}
    {first : Sentence}
    (nearest : first.tree.ElseNearest) (next : start.next? = some (.keyword "if"))
    (spells : Spells (Sentence.ifThen test first).lexemes start.rest rest)
    (closed : rest.head?.map Token.lexeme ≠ some (.keyword "else")) :
    CopesInside levels statement start rest (.ifThen test first) := by
  rcases Spells.uncons_iff.1 spells with ⟨opened, spellsOpen, spells⟩
  rcases Spells.append_iff.1 spells with ⟨between, spellsTest, spellsFirst⟩
  have noElse :
      acceptKeyword "else" ⟨rest, start.budget⟩ = .ok false ⟨rest, start.budget⟩ :=
    acceptKeyword_eq_false_iff.2 ⟨closed, rfl⟩
  have copesTest := @copes_readCondition test ⟨opened, start.budget⟩ _ spellsTest
  have copesFirst :=
    @copes ⟨between, start.budget⟩ first rest nearest spellsFirst fun _ => closed
  refine .refused (acceptPunctuator_of_next? next (by simp))
    (.taken (acceptKeyword_of_spells spellsOpen) ?_)
  refine (copesTest.mono fun inside => (Sentence.inside_ifThen_iff.1 inside).1).bind
    fun light _ => ?_
  refine (copesFirst.mono fun inside => (Sentence.inside_ifThen_iff.1 inside).2).bind
    fun lightFirst _ => ?_
  exact .refused noElse ⟨rfl, Sentence.light_ifThen_iff.2 ⟨light, lightFirst⟩⟩

theorem copes_ifElse (copes : CopesWith levels statement) {test : Phrase .whole}
    {first second : Sentence}
    (nearest : (Sentence.ifElse test first second).tree.ElseNearest)
    (next : start.next? = some (.keyword "if"))
    (spells : Spells (Sentence.ifElse test first second).lexemes start.rest rest)
    (closed : second.tree.EndsOpen →
      rest.head?.map Token.lexeme ≠ some (.keyword "else")) :
    CopesInside levels statement start rest (.ifElse test first second) := by
  rcases Spells.uncons_iff.1 spells with ⟨opened, spellsOpen, spells⟩
  rcases Spells.append_iff.1 spells with ⟨between, spellsTest, spells⟩
  rcases Spells.append_iff.1 spells with ⟨middle, spellsFirst, spells⟩
  rcases Spells.uncons_iff.1 spells with ⟨behind, spellsElse, spellsSecond⟩
  rw [Sentence.tree, ElseNearest] at nearest
  rcases nearest with ⟨notOpen, nearestFirst, nearestSecond⟩
  have copesTest := @copes_readCondition test ⟨opened, start.budget⟩ _ spellsTest
  have copesFirst :=
    @copes ⟨between, start.budget⟩ first middle nearestFirst spellsFirst
    fun endsOpen => absurd endsOpen notOpen
  have copesSecond :=
    @copes ⟨behind, start.budget⟩ second rest nearestSecond spellsSecond closed
  refine .refused (acceptPunctuator_of_next? next (by simp))
    (.taken (acceptKeyword_of_spells spellsOpen) ?_)
  refine (copesTest.mono fun inside => (Sentence.inside_ifElse_iff.1 inside).1).bind
    fun light _ => ?_
  refine (copesFirst.mono fun inside => (Sentence.inside_ifElse_iff.1 inside).2.1).bind
    fun lightFirst _ => ?_
  refine .taken (@acceptKeyword_of_spells ⟨middle, start.budget⟩ _ _ spellsElse) ?_
  refine (copesSecond.mono fun inside => (Sentence.inside_ifElse_iff.1 inside).2.2).bind
    fun lightSecond _ => ?_
  exact ⟨rfl, Sentence.light_ifElse_iff.2 ⟨light, lightFirst, lightSecond⟩⟩

theorem copes_loop (copes : CopesWith levels statement) {test : Phrase .whole}
    {body : Sentence} (nearest : body.tree.ElseNearest)
    (next : start.next? = some (.keyword "while"))
    (spells : Spells (Sentence.loop test body).lexemes start.rest rest)
    (closed : body.tree.EndsOpen →
      rest.head?.map Token.lexeme ≠ some (.keyword "else")) :
    CopesInside levels statement start rest (.loop test body) := by
  rcases Spells.uncons_iff.1 spells with ⟨opened, spellsOpen, spells⟩
  rcases Spells.append_iff.1 spells with ⟨between, spellsTest, spellsBody⟩
  have copesTest := @copes_readCondition test ⟨opened, start.budget⟩ _ spellsTest
  have copesBody := @copes ⟨between, start.budget⟩ body rest nearest spellsBody closed
  refine .refused (acceptPunctuator_of_next? next (by simp))
    (.refused (acceptKeyword_of_next? next (by simp))
      (.taken (acceptKeyword_of_spells spellsOpen) ?_))
  refine (copesTest.mono fun inside => (Sentence.inside_loop_iff.1 inside).1).bind
    fun light _ => ?_
  refine (copesBody.mono fun inside => (Sentence.inside_loop_iff.1 inside).2).bind
    fun lightBody _ => ?_
  exact ⟨rfl, Sentence.light_loop_iff.2 ⟨light, lightBody⟩⟩

theorem copes_print {value : Phrase .whole}
    (next : start.next? = some (.keyword "print"))
    (spells : Spells (Sentence.print value).lexemes start.rest rest) :
    CopesInside levels statement start rest (.print value) := by
  rcases Spells.uncons_iff.1 spells with ⟨opened, spellsOpen, spellsValue⟩
  have copesValue := @copes_value value ⟨opened, start.budget⟩ _ .print spellsValue
  refine .refused (acceptPunctuator_of_next? next (by simp))
    (.refused (acceptKeyword_of_next? next (by simp))
      (.refused (acceptKeyword_of_next? next (by simp))
        (.taken (acceptKeyword_of_spells spellsOpen) ?_)))
  refine (copesValue.mono Sentence.inside_print_iff.1).imp fun after good => ?_
  exact ⟨good.1, Sentence.light_print_iff.2 good.2⟩

theorem copes_assign {target : Target} {value : Phrase .whole}
    (next : start.next? = some (.identifier target.name))
    (spells : Spells (Sentence.assign target value).lexemes start.rest rest) :
    CopesInside levels statement start rest (.assign target value) := by
  rcases Spells.append_iff.1 spells with ⟨between, spellsTarget, spells⟩
  rcases Spells.uncons_iff.1 spells with ⟨behind, spellsSign, spellsValue⟩
  have closedTarget :
      Language.target.Closed target (Cursor.next? ⟨between, start.budget⟩) := by
    rw [Cursor.next?, spellsSign.map_lexeme_head?]
    simp [Language.target]
  have readsTarget :
      Expr.readDesignator start = .ok target.tree ⟨between, start.budget⟩ :=
    Expr.reads_readDesignator.iff.2
      ⟨rfl, target, rfl, trivial, spellsTarget, closedTarget⟩
  have copesValue :=
    @copes_value value ⟨behind, start.budget⟩ _ (.assign target.tree) spellsValue
  refine .refused (acceptPunctuator_of_next? next (by simp))
    (.refused (acceptKeyword_of_next? next (by simp))
      (.refused (acceptKeyword_of_next? next (by simp))
        (.refused (acceptKeyword_of_next? next (by simp))
          (.step (peek?_eq_ok_iff.2 ⟨rfl, rfl⟩) ?_))))
  rw [identifier?_head? next]
  refine .step readsTarget
    ((@copes_punctuator ⟨between, start.budget⟩ _ _ _ spellsSign).bind fun _ _ => ?_)
  refine (copesValue.mono Sentence.inside_assign_iff.1).imp fun after good => ?_
  exact ⟨good.1, Sentence.light_assign_iff.2 good.2⟩

/-- What a statement consists of is read to its end, one nesting level inside
of the statement. -/
theorem copes_readOver (reads : statement.Reads (.sentence levels))
    (copes : CopesWith levels statement) {sentence : Sentence}
    (nearest : sentence.tree.ElseNearest)
    (spells : Spells sentence.lexemes start.rest rest)
    (closed : sentence.tree.EndsOpen →
      rest.head?.map Token.lexeme ≠ some (.keyword "else")) :
    CopesInside levels statement start rest sentence := by
  have next : start.next? = some sentence.opening :=
    spells.map_lexeme_head?.trans (sentence.head?_lexemes _)
  cases sentence with
  | block body => exact copes_block reads copes nearest spells
  | ifThen test first => exact copes_ifThen copes nearest next spells (closed trivial)
  | ifElse test first second => exact copes_ifElse copes nearest next spells closed
  | loop test body => exact copes_loop copes nearest next spells closed
  | print value => exact copes_print next spells
  | assign target value => exact copes_assign next spells

end

theorem copes_readWithin (levels : Nat) : CopesWith levels (readWithin levels) := by
  induction levels with
  | zero =>
      intro start sentence rest _ _ _ shallow
      exact absurd sentence.height_pos (by have none := shallow.1; omega)
  | succ levels ih =>
      intro start sentence rest nearest spells closed
      apply copes_nested_of_inside sentence.nest_pos
      intro deeper
      exact @copes_readOver levels _ ⟨start.rest, deeper⟩ rest
        (reads_readWithin levels) ih sentence nearest spells
        closed

theorem copes_another {sentences : List Sentence}
    (nearest : ∀ sentence ∈ sentences, sentence.tree.ElseNearest) {start : Cursor}
    {rest : List Token}
    (spells : Spells (sentences.flatMap Sentence.lexemes) start.rest rest)
    (ends : Lexeme.Ends (rest.head?.map Token.lexeme)) :
    Outcome.Copes (∀ sentence ∈ sentences, sentence.Shallow maxNesting start.budget)
      (fun after => after = ⟨rest, start.budget⟩ ∧
        ∀ sentence ∈ sentences, sentence.Light start.budget) (many another? start) := by
  rw [← List.head?_map] at ends
  rw [← List.append_nil (sentences.flatMap _)] at spells
  refine copes_many readsOn_another?
    (copes_readWithin maxNesting) ?_ nearest spells ends (ends.ne (by simp))
  intro start sentence next
  simp only [another?, Bind.bind, EStateM.bind, atEnd_of_opening next,
    Bool.false_eq_true, if_false]
  rfl

end Stmt

/-! ### Programs -/

/-- At the outermost level nothing of the limits is in use. -/
theorem Sentence.shallow_unused {sentence : Sentence}
    (shallow : sentence.nest ≤ maxNesting) :
    sentence.Shallow maxNesting Budget.unused :=
  ⟨Nat.le_trans sentence.height_le_nest shallow, (Nat.zero_add _).trans_le shallow⟩

theorem Sentence.light_unused_iff {sentence : Sentence} :
    sentence.Light Budget.unused ↔ sentence.peak ≤ maxChain := by
  change 0 + sentence.peak ≤ maxChain ↔ _
  rw [Nat.zero_add]

theorem Stmt.copes_readAll {first : Sentence} {others : List Sentence}
    (nearest : ∀ sentence ∈ first :: others, sentence.tree.ElseNearest)
    {tokens rest : List Token}
    (spells : Spells ((first :: others).flatMap Sentence.lexemes) tokens rest)
    (ends : Lexeme.Ends (rest.head?.map Token.lexeme)) :
    Outcome.Copes (∀ sentence ∈ first :: others, sentence.nest ≤ maxNesting)
      (fun after => after = ⟨rest, Budget.unused⟩ ∧
        ∀ sentence ∈ first :: others, sentence.peak ≤ maxChain)
      (Stmt.readAll ⟨tokens, Budget.unused⟩) := by
  obtain ⟨nearestFirst, nearestOthers⟩ := List.forall_mem_cons.1 nearest
  obtain ⟨behindFirst, spellsFirst, spellsOthers⟩ := Spells.append_iff.1 spells
  have closed : behindFirst.head?.map Token.lexeme ≠ some (.keyword "else") := by
    rw [Spells.map_lexeme_head? spellsOthers]
    apply Sentence.head?_flatMap_ne_else
    rw [List.head?_map]
    exact ends.ne (by simp)
  have copesFirst :=
    @copes_readWithin maxNesting ⟨tokens, Budget.unused⟩ first behindFirst nearestFirst
    spellsFirst fun _ => closed
  have copesOthers := @copes_another others nearestOthers
    ⟨behindFirst, Budget.unused⟩ rest spellsOthers ends
  refine (copesFirst.mono ?_).bind fun light _ => ?_
  · exact fun shallow => Sentence.shallow_unused (shallow first List.mem_cons_self)
  refine (copesOthers.mono ?_).bind fun lightOthers _ => ?_
  · exact fun shallow sentence found => Sentence.shallow_unused
      (shallow sentence (List.mem_cons_of_mem _ found))
  refine ⟨rfl, List.forall_mem_cons.2
      ⟨Sentence.light_unused_iff.1 light, fun sentence found => ?_⟩⟩
  exact Sentence.light_unused_iff.1 (lightOthers sentence found)

/-- A composition is read to its end, unless a limit is reached. -/
theorem CompilationUnit.copes_read {composition : Composition}
    (nearest : ∀ sentence ∈ composition.sentences, sentence.tree.ElseNearest)
    {tokens rest : List Token} (spells : Spells composition.lexemes tokens rest)
    (ends : Lexeme.Ends (rest.head?.map Token.lexeme)) :
    Outcome.Copes (∀ sentence ∈ composition.sentences, sentence.nest ≤ maxNesting)
      (fun _ => ∀ sentence ∈ composition.sentences, sentence.peak ≤ maxChain)
      (CompilationUnit.read ⟨tokens, Budget.unused⟩) := by
  obtain ⟨behindLines, spellsLines, spells⟩ := Spells.append_iff.1 spells
  have closed : Language.lines.Closed composition.lines
      (Cursor.next? ⟨behindLines, Budget.unused⟩) := by
    intro type
    rw [Cursor.next?, spells.map_lexeme_head?, Composition.sentences, List.flatMap_cons,
      List.append_assoc, Sentence.head?_lexemes, ne_eq, Option.some.injEq]
    exact composition.first.opening_ne_type (by cases type <;> simp [TypeTag.keyword])
  have readsLines : Declaration.readAll ⟨tokens, Budget.unused⟩ =
      .ok (composition.lines.flatMap Line.tree) ⟨behindLines, Budget.unused⟩ :=
    Declaration.reads_readAll.iff.2
      ⟨rfl, composition.lines, rfl, trivial, spellsLines, closed⟩
  refine .step readsLines ?_
  exact (Stmt.copes_readAll nearest spells ends).bind fun few _ => few

end StackCompiler
