import StackCompiler.Proofs.Grammar.Dimensions
import StackCompiler.Proofs.Reading.Lookahead
import StackCompiler.Proofs.Reading.Programs

/-!
# Reading dimensions of any size

Lines of declarations may be written with dimensions that are too large. Reading
tells at the first of these that it is too large, and if there is none, it goes
on behind the lines with their declarations, in which each dimension is the
number that is written (`CompilationUnit.measures_read`).
-/

namespace StackCompiler

/-! ### The first dimension that is too large -/

namespace Token

/-- Whether a token is an integer literal for a number that is too large. -/
def isTooLarge (token : Token) : Bool := token.lexeme.isTooLarge

theorem isTooLarge_of_numeral {token : Token} {numeral : Numeral}
    (spells : token.lexeme = .integer numeral.text) :
    token.isTooLarge = decide (Text.Decimal.maxWord < numeral.value) := by
  rw [isTooLarge, spells]
  rfl

theorem not_isTooLarge_of_kind {token : Token} (other : token.kind ≠ .integer) :
    token.isTooLarge = false := by
  rw [isTooLarge, Lexeme.isTooLarge,
    show (token.lexeme.kind == .integer) = false from beq_false_of_ne other]
  rfl

end Token

namespace Outcome

variable {α β : Type}

/-- The same outcome with its result changed. -/
def map (change : α → β) : Outcome α → Outcome β
  | .ok result after => .ok (change result) after
  | .error problem stuck => .error problem stuck

/-- Goes on with a result, if there is one. -/
def bind (outcome : Outcome α) (next : α → Parser β) : Outcome β :=
  match outcome with
  | .ok result after => next result after
  | .error problem stuck => .error problem stuck

theorem map_map {γ : Type} (outcome : Outcome α) (change : α → β) (changeToo : β → γ) :
    (outcome.map change).map changeToo = outcome.map (changeToo ∘ change) := by
  cases outcome <;> rfl

/-- The given outcome of reading the tokens `seen`, unless one of these is too
large: then this is found at the first one that is. -/
def measured (seen rest : List Token) (budget : Budget) (outcome : Outcome α) :
    Outcome α :=
  match seen.dropWhile fun token => !token.isTooLarge with
  | [] => outcome
  | token :: later => .error (.badNumber .tooLarge) ⟨token :: (later ++ rest), budget⟩

variable {rest : List Token} {budget : Budget} {outcome : Outcome α}

theorem measured_append (seen more : List Token) :
    measured (seen ++ more) rest budget outcome =
      measured seen (more ++ rest) budget (measured more rest budget outcome) := by
  rw [measured, List.dropWhile_append]
  cases found : seen.dropWhile fun token => !token.isTooLarge with
  | nil => simp [measured, found]
  | cons first later => simp [measured, found]

theorem measured_singleton {token : Token} (small : token.isTooLarge = false) :
    measured [token] rest budget outcome = outcome := by
  simp [measured, small]

theorem bind_measured (seen : List Token) (next : α → Parser β) :
    (measured seen rest budget outcome).bind next =
      measured seen rest budget (outcome.bind next) := by
  unfold measured
  split <;> rfl

theorem map_measured (seen : List Token) (change : α → β) :
    (measured seen rest budget outcome).map change =
      measured seen rest budget (outcome.map change) := by
  unfold measured
  split <;> rfl

end Outcome

namespace Parser

variable {α β : Type} {seen more rest : List Token} {budget : Budget}

theorem bind_eq (parser : Parser α) (next : α → Parser β) (start : Cursor) :
    (parser >>= next) start = Outcome.bind (parser start) next := by
  simp only [Bind.bind, EStateM.bind]
  cases parser start <;> rfl

/-- Whether a parser comes to an outcome behind the tokens `seen`, or finds that
one of these is too large. -/
def Measures (parser : Parser α) (seen rest : List Token) (budget : Budget)
    (outcome : Outcome α) : Prop :=
  parser ⟨seen ++ rest, budget⟩ = Outcome.measured seen rest budget outcome

namespace Measures

theorem pure (result : α) :
    Measures (Pure.pure result) [] rest budget (.ok result ⟨rest, budget⟩) := rfl

/-- A parser that takes a token that is not too large. -/
theorem of_ok {parser : Parser α} {token : Token} {result : α}
    (other : token.kind ≠ .integer)
    (reads : parser ⟨token :: rest, budget⟩ = .ok result ⟨rest, budget⟩) :
    Measures parser [token] rest budget (.ok result ⟨rest, budget⟩) :=
  reads.trans (Outcome.measured_singleton (Token.not_isTooLarge_of_kind other)).symm

theorem bind {parser : Parser α} {next : α → Parser β} {result : α}
    {outcome : Outcome β}
    (first : Measures parser seen (more ++ rest) budget
      (.ok result ⟨more ++ rest, budget⟩))
    (second : Measures (next result) more rest budget outcome) :
    Measures (parser >>= next) (seen ++ more) rest budget outcome := by
  rw [Measures, List.append_assoc, Outcome.measured_append, ← second, bind_eq, first,
    Outcome.bind_measured]
  rfl

theorem before {parser : Parser α} {next : α → Parser β} {outcome : Outcome α}
    (first : Measures parser seen rest budget outcome) :
    Measures (parser >>= next) seen rest budget (outcome.bind next) := by
  rw [Measures, bind_eq, first, Outcome.bind_measured]

/-- If the tokens `seen` only change what a parser reads behind them, this goes
on for what is done with it. -/
theorem ahead {parser : Parser α} {next : α → Parser β} {change : α → α}
    {changeToo : β → β}
    (first : Measures parser seen rest budget
      (Outcome.map change (parser ⟨rest, budget⟩)))
    (second : ∀ result after, next (change result) after =
      Outcome.map changeToo (next result after)) :
    Measures (parser >>= next) seen rest budget
      (Outcome.map changeToo ((parser >>= next) ⟨rest, budget⟩)) := by
  have all : Measures (parser >>= next) seen rest budget _ := first.before
  rw [bind_eq]
  cases run : parser ⟨rest, budget⟩ with
  | ok result after =>
      rw [run] at all
      exact all.trans (congrArg _ (second result after))
  | error problem stuck =>
      rw [run] at all
      exact all

/-- A repetition goes on behind a step. -/
theorem many {step? : Parser (Option α)}
    (progress : ∀ {start result after},
      step? start = .ok (some result) after → after.rest.length < start.rest.length)
    {result : α} {outcome : Outcome (List α)}
    (first : Measures step? seen (more ++ rest) budget
      (.ok (some result) ⟨more ++ rest, budget⟩))
    (later : Measures (Parser.many step?) more rest budget outcome) :
    Measures (Parser.many step?) (seen ++ more) rest budget
      (outcome.map (result :: ·)) := by
  rw [Measures, List.append_assoc, Outcome.measured_append,
    ← Outcome.map_measured, ← later]
  have run : step? ⟨seen ++ (more ++ rest), budget⟩ =
      Outcome.measured seen (more ++ rest) budget _ := first
  unfold Outcome.measured at run ⊢
  split at run
  next =>
    cases runLater : Parser.many step? ⟨more ++ rest, budget⟩ with
    | ok results last =>
        obtain ⟨middle, repeats, stops⟩ := (many_eq_ok_iff progress).1 runLater
        exact (many_eq_ok_iff progress).2 ⟨middle, .cons run repeats, stops⟩
    | error problem stuck =>
        obtain ⟨results, middle, repeats, fails⟩ :=
          (many_eq_error_iff progress).1 runLater
        exact (many_eq_error_iff progress).2 ⟨_, middle, .cons run repeats, fails⟩
  next => exact (many_eq_error_iff progress).2 ⟨[], _, .nil, run⟩

end Measures

theorem measures_punctuator {token : Token} {symbol : String}
    (spells : token.lexeme = .mark symbol) :
    Measures (punctuator symbol) [token] rest budget (.ok ⟨⟩ ⟨rest, budget⟩) :=
  .of_ok
    (by rw [show token.kind = .punctuator from congrArg Lexeme.kind spells]; decide)
    (punctuator_eq_ok_iff.2 ⟨rfl, token, rest, rfl, spells, rfl⟩)

theorem measures_acceptPunctuator {token : Token} {symbol : String}
    (spells : token.lexeme = .mark symbol) :
    Measures (acceptPunctuator symbol) [token] rest budget (.ok true ⟨rest, budget⟩) :=
  .of_ok
    (by rw [show token.kind = .punctuator from congrArg Lexeme.kind spells]; decide)
    (acceptPunctuator_eq_true_iff.2 ⟨rfl, token, rest, rfl, spells, rfl⟩)

end Parser

open StackCompiler.Parser

namespace Declaration

variable {seen rest : List Token} {budget : Budget}

theorem measures_readDim {token : Token} {numeral : Numeral}
    (spells : token.lexeme = .integer numeral.text) :
    Measures readDim [token] rest budget (.ok numeral.value ⟨rest, budget⟩) := by
  have tooLarge := Token.isTooLarge_of_numeral spells
  by_cases small : numeral.value ≤ Text.Decimal.maxWord
  · have denotes := Text.Decimal.Denotes.unsigned numeral.isNumeral.ne_nil
      numeral.isNumeral.isDigit small
    rw [decide_eq_false (Nat.not_lt_of_le small)] at tooLarge
    rw [Measures, Outcome.measured_singleton tooLarge]
    exact readDim_eq_ok_iff.2
      ⟨rfl, ⟨numeral.text, numeral.value, denotes⟩, rfl, token, rest, rfl, spells, rfl⟩
  · have isInteger := Token.integer?_eq_some_iff.2 spells
    have reads := numeral.readWord_text
    rw [if_neg small] at reads
    rw [decide_eq_true (Nat.lt_of_not_le small)] at tooLarge
    have isNext :
        peek? ⟨[token] ++ rest, budget⟩ = .ok (some token) ⟨token :: rest, budget⟩ :=
      rfl
    rw [Measures, readDim, bind_eq, isNext, Outcome.bind, Option.bind_some, isInteger]
    simp only [reads, Outcome.measured, tooLarge, List.dropWhile_cons, Bool.not_true,
      Bool.false_eq_true, if_false]
    rfl

theorem measures_dim? {numeral : Numeral}
    (spells : seen.map Token.lexeme = numeral.lexemes) :
    Measures dim? seen rest budget (.ok (some ↑numeral.value) ⟨rest, budget⟩) := by
  simp only [Numeral.lexemes, List.map_eq_cons_iff, List.map_eq_nil_iff] at spells
  obtain ⟨opened, _, rfl, isOpened, number, _, rfl, isNumber, closed, _, rfl,
      isClosed, rfl⟩ := spells
  have closes :
      Measures
        (do punctuator "]"; return some ↑numeral.value : Parser (Option Int))
        [closed] rest budget (.ok (some ↑numeral.value) ⟨rest, budget⟩) :=
    (measures_punctuator isClosed).bind (.pure _)
  have inside : Measures
      (do let dim ← readDim; punctuator "]"; return some dim : Parser (Option Int))
      [number, closed] rest budget (.ok (some ↑numeral.value) ⟨rest, budget⟩) :=
    (measures_readDim isNumber).bind closes
  exact (measures_acceptPunctuator isOpened).bind inside

theorem measures_many_dim? {dims : List Numeral}
    (spells : seen.map Token.lexeme = dims.flatMap Numeral.lexemes)
    (stops : Cursor.next? ⟨rest, budget⟩ ≠ some (.mark "[")) :
    Measures (many dim?) seen rest budget
      (.ok (dims.map fun dim => ↑dim.value) ⟨rest, budget⟩) := by
  induction dims generalizing seen with
  | nil =>
      obtain rfl := List.map_eq_nil_iff.1 spells
      exact (many_eq_ok_iff (readsOn_dim?.shorter fun _ => List.cons_ne_nil _ _)).2
        ⟨_, .nil, readsOn_dim?.none_iff.2 ⟨rfl, rfl, stops⟩⟩
  | cons dim dims ih =>
      rw [List.flatMap_cons, List.map_eq_append_iff] at spells
      obtain ⟨first, more, rfl, spellsFirst, spellsMore⟩ := spells
      exact .many (readsOn_dim?.shorter fun _ => List.cons_ne_nil _ _)
        (measures_dim? spellsFirst) (ih spellsMore)

theorem measures_readOne {type : TypeTag} {declarator : LooseDeclarator}
    (spells : seen.map Token.lexeme = declarator.lexemes)
    (stops : Cursor.next? ⟨rest, budget⟩ ≠ some (.mark "[")) :
    Measures (readOne type) seen rest budget
      (.ok (declarator.declaration type) ⟨rest, budget⟩) := by
  rw [LooseDeclarator.lexemes, List.map_eq_cons_iff] at spells
  obtain ⟨name, more, rfl, isName, spells⟩ := spells
  have takes :
      Measures (take .identifier Token.identifier?) [name] (more ++ rest) budget
      (.ok declarator.name ⟨more ++ rest, budget⟩) :=
    .of_ok
      (by rw [show name.kind = .identifier from congrArg Lexeme.kind isName]; decide)
      (take_textOf?_eq_ok_iff.2 ⟨rfl, name, _, rfl, isName, rfl⟩)
  exact takes.bind ((measures_many_dim? spells stops).before)

theorem measures_another? {type : TypeTag} {declarator : LooseDeclarator}
    (spells : seen.map Token.lexeme = .mark "," :: declarator.lexemes)
    (stops : Cursor.next? ⟨rest, budget⟩ ≠ some (.mark "[")) :
    Measures (another? type) seen rest budget
      (.ok (some (declarator.declaration type)) ⟨rest, budget⟩) := by
  rw [List.map_eq_cons_iff] at spells
  obtain ⟨comma, more, rfl, isComma, spells⟩ := spells
  exact (measures_acceptPunctuator isComma).bind (measures_readOne spells stops).before

/-- What follows a name with its dimensions in a line is a comma or the semicolon. -/
theorem next?_ne_bracket {others : List LooseDeclarator} {closing : Token}
    (isClosing : closing.lexeme = .mark ";")
    (spells : seen.map Token.lexeme =
      others.flatMap fun other => .mark "," :: other.lexemes) :
    Cursor.next? ⟨seen ++ closing :: rest, budget⟩ ≠ some (.mark "[") := by
  rw [Cursor.next?, ← List.head?_map, List.map_append, spells, List.map_cons, isClosing]
  cases others <;> simp

theorem measures_many_another? {type : TypeTag} {others : List LooseDeclarator}
    {closing : Token} (isClosing : closing.lexeme = .mark ";")
    (spells : seen.map Token.lexeme =
      others.flatMap fun other => .mark "," :: other.lexemes) :
    Measures (many (another? type)) seen (closing :: rest) budget
      (.ok (others.map (LooseDeclarator.declaration type))
        ⟨closing :: rest, budget⟩) := by
  induction others generalizing seen with
  | nil =>
      obtain rfl := List.map_eq_nil_iff.1 spells
      have stops : Cursor.next? ⟨closing :: rest, budget⟩ ≠ some (.mark ",") := by
        simp [Cursor.next?, isClosing]
      exact (many_eq_ok_iff
        ((readsOn_another? type).shorter fun _ => List.cons_ne_nil _ _)).2
        ⟨_, .nil, (readsOn_another? type).none_iff.2 ⟨rfl, rfl, stops⟩⟩
  | cons other others ih =>
      rw [List.flatMap_cons, List.map_eq_append_iff] at spells
      obtain ⟨first, more, rfl, spellsFirst, spellsMore⟩ := spells
      have stops :=
        @next?_ne_bracket more rest budget others closing isClosing spellsMore
      exact .many ((readsOn_another? type).shorter fun _ => List.cons_ne_nil _ _)
        (measures_another? spellsFirst stops) (ih spellsMore)

theorem measures_line? {line : LooseLine}
    (spells : seen.map Token.lexeme = line.lexemes) :
    Measures line? seen rest budget (.ok (some line.declarations) ⟨rest, budget⟩) := by
  simp only [LooseLine.lexemes, List.map_eq_cons_iff, List.map_eq_append_iff,
    List.map_eq_nil_iff] at spells
  obtain ⟨keyword, _, rfl, isType, first, _, rfl, spellsFirst, others, _, rfl,
      spellsOthers, closing, _, rfl, isClosing, rfl⟩ := spells
  have stops :=
    @next?_ne_bracket others rest budget line.others closing isClosing spellsOthers
  rw [← List.singleton_append, ← List.append_assoc] at stops
  have takes : Measures (takeIf? type?) [keyword]
      ((first ++ (others ++ [closing])) ++ rest) budget
      (.ok (some line.type) ⟨(first ++ (others ++ [closing])) ++ rest, budget⟩) :=
    .of_ok
      (by rw [show keyword.kind = .keyword from congrArg Lexeme.kind isType]; decide)
      (takeIf?_type?_eq_some_iff.2 ⟨rfl, keyword, _, rfl, isType, rfl⟩)
  have closes : Measures
      (do punctuator ";"; return some line.declarations :
        Parser (Option (List Declaration)))
      [closing] rest budget (.ok (some line.declarations) ⟨rest, budget⟩) :=
    (measures_punctuator isClosing).bind (.pure _)
  have behind : Measures (do
      let others ← many (another? line.type)
      punctuator ";"
      return some (line.first.declaration line.type :: others) :
        Parser (Option (List Declaration)))
      (others ++ [closing]) rest budget (.ok (some line.declarations) ⟨rest, budget⟩) :=
    (measures_many_another? isClosing spellsOthers).bind closes
  exact takes.bind ((measures_readOne spellsFirst stops).bind behind)

/-- Lines of declarations are read before whatever else there is. -/
theorem measures_many_line? {lines : List LooseLine}
    (spells : seen.map Token.lexeme = lines.flatMap LooseLine.lexemes) :
    Measures (many line?) seen rest budget
      (Outcome.map (lines.map LooseLine.declarations ++ ·)
        (many line? ⟨rest, budget⟩)) := by
  induction lines generalizing seen with
  | nil =>
      obtain rfl := List.map_eq_nil_iff.1 spells
      rw [Measures]
      change _ = Outcome.map _ _
      cases run : many line? ⟨rest, budget⟩ <;> exact run
  | cons line lines ih =>
      rw [List.flatMap_cons, List.map_eq_append_iff] at spells
      obtain ⟨first, more, rfl, spellsFirst, spellsMore⟩ := spells
      have both := Measures.many (readsOn_line?.shorter fun _ => List.cons_ne_nil _ _)
        (measures_line? spellsFirst)
        (ih spellsMore)
      rw [Outcome.map_map] at both
      exact both

theorem measures_readAll {lines : List LooseLine}
    (spells : seen.map Token.lexeme = lines.flatMap LooseLine.lexemes) :
    Measures readAll seen rest budget
      (Outcome.map (lines.flatMap LooseLine.declarations ++ ·)
        (readAll ⟨rest, budget⟩)) := by
  apply (measures_many_line? spells).ahead
  intro found after
  rw [List.flatten_append, ← List.flatMap_def]
  rfl

end Declaration

/-- Of lines of declarations and what stands behind them, the program behind
them is read, with the declarations of the lines before its own, unless a
dimension in the lines is too large. -/
theorem CompilationUnit.measures_read {seen rest : List Token} {budget : Budget}
    {lines : List LooseLine}
    (spells : seen.map Token.lexeme = lines.flatMap LooseLine.lexemes) :
    Measures CompilationUnit.read seen rest budget
      (Outcome.map
        (fun unit => { unit with
          declarations := lines.flatMap LooseLine.declarations ++ unit.declarations })
        (CompilationUnit.read ⟨rest, budget⟩)) := by
  apply (Declaration.measures_readAll spells).ahead
  intro declarations after
  rw [bind_eq, bind_eq]
  cases Stmt.readAll after <;> rfl

end StackCompiler
