import StackCompiler.Proofs.Reading.Lookahead
import StackCompiler.Proofs.Reading.Expressions

/-!
# Reading until a limit is reached

Where a form of the grammar is written, a parser reads it to its end, or a
limit keeps it from doing so: the limit of the nesting only if the form nests
more deeply than there is room for. If a form is read to its end, there was
room for its operators.
-/

namespace StackCompiler

theorem Budget.le_depth_of_deepen? {budget : Budget} (full : budget.deepen? = none) :
    maxNesting ≤ budget.depth := by
  unfold deepen? at full
  split at full
  next => contradiction
  next noRoom => exact Nat.le_of_not_lt noRoom

/-- Whether a problem is that a limit was reached, the one of the nesting only
without room for it. -/
def Problem.GivesUp (shallow : Prop) : Problem → Prop
  | tooLong => True
  | tooDeep => ¬ shallow
  | _ => False

theorem Problem.GivesUp.mono {shallow inner : Prop} {problem : Problem}
    (givesUp : problem.GivesUp inner) (within : shallow → inner) :
    problem.GivesUp shallow := by
  cases problem with
  | tooDeep => exact fun isShallow => givesUp (within isShallow)
  | _ => exact givesUp

namespace Outcome

variable {α β : Type}

/-- Whether reading ended at a cursor for which `Good` holds, or was
given up at a limit. -/
def Copes (shallow : Prop) (Good : Cursor → Prop) : Outcome α → Prop
  | .ok _ after => Good after
  | .error problem _ => problem.GivesUp shallow

theorem Copes.mono {shallow inner : Prop} {Good : Cursor → Prop} {outcome : Outcome α}
    (copes : Copes inner Good outcome) (within : shallow → inner) :
    Copes shallow Good outcome := by
  cases outcome with
  | ok result after => exact copes
  | error problem stuck => exact Problem.GivesUp.mono copes within

theorem Copes.imp {shallow : Prop} {Good Better : Cursor → Prop} {outcome : Outcome α}
    (copes : Copes shallow Good outcome)
    (better : ∀ cursor, Good cursor → Better cursor) :
    Copes shallow Better outcome := by
  cases outcome with
  | ok result after => exact better after copes
  | error problem stuck => exact copes

/-- Reading in two parts copes if both parts do. What is known behind the first
part may be used for the second one. -/
theorem Copes.bind {shallow known : Prop} {Good : Cursor → Prop} {parser : Parser α}
    {next : α → Parser β} {start between : Cursor}
    (first : Copes shallow (fun after => after = between ∧ known) (parser start))
    (second : known → ∀ result, Copes shallow Good (next result between)) :
    Copes shallow Good ((parser >>= next) start) := by
  simp only [Bind.bind, EStateM.bind]
  cases run : parser start with
  | ok result after =>
      rw [run] at first
      rcases first with ⟨rfl, holds⟩
      exact second holds result
  | error problem stuck =>
      rw [run] at first
      exact first

section

variable {shallow : Prop} {Good : Cursor → Prop} {start between : Cursor}

theorem Copes.of_ok {outcome : Outcome α} {result : α} {after : Cursor}
    (reads : outcome = .ok result after) (good : Good after) :
    Copes shallow Good outcome := by
  rw [reads]
  exact good

/-- A step whose outcome is known. -/
theorem Copes.step {parser : Parser α} {next : α → Parser β} {first : α}
    (reads : parser start = .ok first between)
    (copes : Copes shallow Good (next first between)) :
    Copes shallow Good ((parser >>= next) start) := by
  simp only [Bind.bind, EStateM.bind, reads]
  exact copes

theorem Copes.taken {accepts : Parser Bool} {yes no : Parser α}
    (accepted : accepts start = .ok true between)
    (copes : Copes shallow Good (yes between)) :
    Copes shallow Good ((do if ← accepts then yes else no : Parser α) start) :=
  .step accepted copes

theorem Copes.refused {accepts : Parser Bool} {yes no : Parser α}
    (refused : accepts start = .ok false between)
    (copes : Copes shallow Good (no between)) :
    Copes shallow Good ((do if ← accepts then yes else no : Parser α) start) :=
  .step refused copes

end

end Outcome

namespace Parser

variable {α β : Type} {start between : Cursor}

/-! ### The next token -/

theorem acceptPunctuator_of_spells {symbol : String} {opened : List Token}
    (spells : Spells [.mark symbol] start.rest opened) :
    acceptPunctuator symbol start = .ok true ⟨opened, start.budget⟩ :=
  acceptPunctuator_eq_true_iff.2 ⟨rfl, spells⟩

theorem acceptPunctuator_of_next? {symbol : String} {lexeme : Lexeme}
    (next : start.next? = some lexeme) (other : lexeme ≠ .mark symbol) :
    acceptPunctuator symbol start = .ok false start := by
  refine acceptPunctuator_eq_false_iff.2 ⟨?_, rfl⟩
  rwa [next, ne_eq, Option.some.injEq]

theorem acceptKeyword_of_next? {word : String} {lexeme : Lexeme}
    (next : start.next? = some lexeme) (other : lexeme ≠ .keyword word) :
    acceptKeyword word start = .ok false start := by
  refine acceptKeyword_eq_false_iff.2 ⟨?_, rfl⟩
  rwa [next, ne_eq, Option.some.injEq]

theorem acceptKeyword_of_spells {word : String} {opened : List Token}
    (spells : Spells [.keyword word] start.rest opened) :
    acceptKeyword word start = .ok true ⟨opened, start.budget⟩ :=
  acceptKeyword_eq_true_iff.2 ⟨rfl, spells⟩

/-! ### Forms that are read to their end -/

/-- Whether a parser reads every form of a language wherever it is written,
unless a limit is reached. -/
def Copes (parser : Parser α) (language : Language α)
    (Shallow Light : Budget → language.Form → Prop) : Prop :=
  ∀ {start : Cursor} {form : language.Form} {rest : List Token},
    Spells (language.lexemes form) start.rest rest →
    language.Closed form (rest.head?.map Token.lexeme) →
    Outcome.Copes (Shallow start.budget form)
      (fun after => after = ⟨rest, start.budget⟩ ∧ Light start.budget form)
        (parser start)

theorem copes_punctuator {symbol : String} {shallow : Prop} {rest : List Token}
    (spells : Spells [.mark symbol] start.rest rest) :
    Outcome.Copes shallow (fun after => after = ⟨rest, start.budget⟩ ∧ True)
      (punctuator symbol start) :=
  .of_ok ((@punctuator_eq_ok_iff start ⟨rest, start.budget⟩ symbol ⟨⟩).2 ⟨rfl, spells⟩)
    ⟨rfl, trivial⟩

theorem copes_nested {body : Parser α} {shallow : Prop} {rest : List Token}
    {known : Prop} (full : start.budget.deepen? = none → ¬ shallow)
    (inside : ∀ deeper, start.budget.deepen? = some deeper →
      Outcome.Copes shallow (fun after => after = ⟨rest, deeper⟩ ∧ known)
        (body ⟨start.rest, deeper⟩)) :
    Outcome.Copes shallow (fun after => after = ⟨rest, start.budget⟩ ∧ known)
      (nested body start) := by
  simp only [nested]
  cases opened : start.budget.deepen? with
  | none => exact full opened
  | some deeper =>
      have copes := inside deeper opened
      simp only
      cases run : body ⟨start.rest, deeper⟩ with
      | ok result after =>
          rw [run] at copes
          rcases copes with ⟨rfl, holds⟩
          refine ⟨?_, holds⟩
          simp only
          rw [Budget.surface_of_deepen? opened]
      | error problem stuck =>
          rw [run] at copes
          exact copes

/-- One nesting level is opened for a form that nests by itself, and
nothing else changes. -/
theorem copes_nested_of_inside {body : Parser α} {low : Prop} {nest peak : Nat}
    {rest : List Token} (positive : 0 < nest)
    (inside : ∀ deeper : Budget,
      Outcome.Copes (low ∧ deeper.depth + nest ≤ maxNesting + 1)
        (fun after => after = ⟨rest, deeper⟩ ∧ deeper.chain + peak ≤ maxChain)
        (body ⟨start.rest, deeper⟩)) :
    Outcome.Copes (low ∧ start.budget.depth + nest ≤ maxNesting)
      (fun after => after = ⟨rest, start.budget⟩ ∧ start.budget.chain + peak ≤ maxChain)
      (nested body start) := by
  apply copes_nested
  · intro full shallow
    have noRoom := Budget.le_depth_of_deepen? full
    omega
  · intro deeper opened
    rcases Budget.deepen?_eq_some_iff.1 opened with ⟨depth, chain⟩
    have copes := inside deeper
    rw [depth, chain] at copes
    exact copes.mono fun shallow => ⟨shallow.1, by omega⟩

end Parser

/-! ### Phrases -/

namespace Phrase

variable {rank : Rank}

/-- Whether there is room for the nesting of a phrase, of which at most `levels`
levels may be taken. -/
def Shallow (levels : Nat) (budget : Budget) (phrase : Phrase rank) : Prop :=
  phrase.nest ≤ levels ∧ budget.depth + phrase.nest ≤ maxNesting

/-- Whether there is room for the operators of a phrase. -/
def Light (budget : Budget) (phrase : Phrase rank) : Prop :=
  budget.chain + phrase.peak ≤ maxChain

end Phrase

namespace Expr

open StackCompiler.Parser

variable {level : Level} {levels : Nat} {operand : Parser Expr}

/-- Whether a parser copes with the phrases of a rank. -/
abbrev CopesWith (levels : Nat) (rank : Rank) (parser : Parser Expr) : Prop :=
  parser.Copes (.phrase levels rank) (Phrase.Shallow levels) Phrase.Light

/-- A chain fails at its first operand, or behind some of its links. -/
theorem chain_eq_error_iff
    (progress : ∀ {before result after},
      link? level operand before = .ok (some result) after →
      after.rest.length < before.rest.length)
    {start stuck : Cursor} {problem : Problem} :
    chain level operand start = .error problem stuck ↔
    operand start = .error problem stuck ∨
    ∃ first between links last, operand start = .ok first between ∧
      Repeats (link? level operand) between links last ∧
      link? level operand last = .error problem stuck := by
  simp only [chain, bind_eq_error_iff, many_eq_error_iff progress, unlink_eq_error_iff,
    pure_eq_error_iff, and_false, exists_false, or_false]
  constructor
  · intro fails
    rcases fails with fails | ⟨first, between, reads, links, last, repeats, fails⟩
    · exact .inl fails
    · exact .inr ⟨first, between, links, last, reads, repeats, fails⟩
  · intro holds
    rcases holds with fails | ⟨first, between, links, last, reads, repeats, fails⟩
    · exact .inl fails
    · exact .inr ⟨first, between, reads, links, last, repeats, fails⟩

theorem link?_eq_error_iff {before stuck : Cursor} {problem : Problem} :
    link? level operand before = .error problem stuck ↔
    ∃ (operator : BinaryOp) (between : List Token), operator.level = level ∧
      Spells [.mark operator.symbol] before.rest between ∧
      ((before.budget.extend? = none ∧ .tooLong = problem ∧
          ⟨between, before.budget⟩ = stuck) ∨
        ∃ longer, before.budget.extend? = some longer ∧
          operand ⟨between, longer⟩ = .error problem stuck) := by
  simp only [link?, bind_eq_error_iff, takeIf?_eq_error_iff, Option.exists,
    pure_eq_error_iff, takeIf?_operator?_eq_some_iff, link_eq_error_iff, link_eq_ok_iff,
    and_false, exists_false, or_false, false_or]
  constructor
  · intro fails
    rcases fails with
      ⟨operator, between, ⟨same, ofLevel, spells⟩,
        ⟨full, isProblem, rfl⟩ | ⟨_, _, ⟨longer, used, rfl⟩, fails⟩⟩
    · refine ⟨operator, between.rest, ofLevel, spells,
        .inl ⟨same ▸ full, isProblem, ?_⟩⟩
      rw [← same]
    · exact ⟨operator, between.rest, ofLevel, spells, .inr ⟨longer, same ▸ used, fails⟩⟩
  · intro holds
    rcases holds with
      ⟨operator, between, ofLevel, spells,
        ⟨full, isProblem, isStuck⟩ | ⟨longer, used, fails⟩⟩
    · exact ⟨operator, ⟨between, before.budget⟩, ⟨rfl, ofLevel, spells⟩,
        .inl ⟨full, isProblem, isStuck⟩⟩
    · exact ⟨operator, ⟨between, before.budget⟩, ⟨rfl, ofLevel, spells⟩,
        .inr ⟨⟨⟩, _, ⟨longer, used, rfl⟩, fails⟩⟩

/-- Whether an operand and some links behind it have been read from `start` on,
and the links are in use. -/
def Holds (level : Level) (operand : Parser Expr) (start : Cursor) (links : Nat)
    (after : Cursor) : Prop :=
  ∃ first between found, operand start = .ok first between ∧
    Repeats (link? level operand) between found after ∧ found.length = links ∧
    after.budget.depth = start.budget.depth ∧
    after.budget.chain = start.budget.chain + links

section

variable (reads : operand.Reads (.phrase levels level.tighter))
  (copes : CopesWith levels level.tighter operand)

include reads copes

theorem holds_single_or_fails (only : Phrase level.tighter) {start : Cursor}
    {rest : List Token} (spells : Spells only.lexemes start.rest rest)
    (closed : only.Closed (rest.head?.map Token.lexeme)) :
    (∃ after, Holds level operand start 0 after ∧ after.rest = rest ∧
      only.Light start.budget) ∨
    ∃ problem stuck, chain level operand start = .error problem stuck ∧
      problem.GivesUp (only.Shallow levels start.budget) := by
  have first := copes spells closed
  cases run : operand start with
  | ok result after =>
      rw [run] at first
      rcases first with ⟨rfl, light⟩
      exact .inl ⟨_, ⟨result, _, [], run, .nil, rfl, rfl, rfl⟩, rfl, light⟩
  | error problem stuck =>
      rw [run] at first
      exact .inr ⟨problem, stuck,
        (chain_eq_error_iff (link?_shorter reads)).2 (.inl run), first⟩

/-- Another link is read, unless there is no room for it or for what stands
behind the operator. -/
theorem Holds.link_or_fails {start last : Cursor} {links : Nat}
    (holds : Holds level operand start links last) {operator : BinaryOp}
    (ofLevel : operator.level = level) (right : Phrase level.tighter)
    {behind rest : List Token}
    (spellsOperator : Spells [.mark operator.symbol] last.rest behind)
    (spells : Spells right.lexemes behind rest)
    (closed : right.Closed (rest.head?.map Token.lexeme)) :
    (∃ after, Holds level operand start (links + 1) after ∧ after.rest = rest ∧
      start.budget.chain + (links + 1 + right.peak) ≤ maxChain) ∨
    ∃ problem stuck, chain level operand start = .error problem stuck ∧
      problem.GivesUp (right.Shallow levels start.budget) := by
  obtain ⟨first, between, found, readsFirst, repeats, length, depth, chain⟩ := holds
  have fails (problem : Problem) (stuck : Cursor)
      (failsLink : link? level operand last = .error problem stuck) :
      Expr.chain level operand start = .error problem stuck :=
    (chain_eq_error_iff (link?_shorter reads)).2
      (.inr ⟨first, between, found, last, readsFirst, repeats, failsLink⟩)
  cases used : last.budget.extend? with
  | none =>
      exact .inr ⟨.tooLong, _, fails _ _ (link?_eq_error_iff.2
        ⟨operator, behind, ofLevel, spellsOperator, .inl ⟨used, rfl, rfl⟩⟩), trivial⟩
  | some longer =>
      obtain ⟨depthLonger, chainLonger⟩ := Budget.extend?_eq_some_iff.1 used
      have copesRight := @copes ⟨behind, longer⟩ right rest spells closed
      cases run : operand ⟨behind, longer⟩ with
      | ok result after =>
          rw [run] at copesRight
          rcases copesRight with ⟨rfl, light⟩
          have readsLink :=
            link?_eq_some_iff.2 ⟨ofLevel, behind, longer, spellsOperator, used, run⟩
          refine .inl ⟨_, ⟨first, between, found ++ [(operator, result)], readsFirst,
            repeats.snoc readsLink, ?_, ?_, ?_⟩, rfl, ?_⟩
          · rw [List.length_append, length, List.length_singleton]
          · exact depthLonger.trans depth
          · change longer.chain = _
            omega
          · change longer.chain + right.peak ≤ maxChain at light
            omega
      | error problem stuck =>
          rw [run] at copesRight
          have failsLink := link?_eq_error_iff.2
            ⟨operator, behind, ofLevel, spellsOperator, .inr ⟨longer, used, run⟩⟩
          refine .inr ⟨problem, stuck, fails _ _ failsLink,
            Problem.GivesUp.mono copesRight ?_⟩
          intro shallow
          change right.nest ≤ levels ∧ longer.depth + right.nest ≤ maxNesting
          rw [depthLonger, depth]
          exact shallow

/-- A phrase of a level is read from its first operand on, by induction on the
number of its links, unless a limit is reached. -/
theorem holds_or_fails (grouped : level ≠ .comparison) (phrase : Phrase (.level level))
    {start : Cursor} {rest : List Token}
    (spells : Spells phrase.lexemes start.rest rest)
    (settled : phrase.Settled (rest.head?.map Token.lexeme)) :
    (∃ after, Holds level operand start phrase.links after ∧ after.rest = rest ∧
      phrase.Light start.budget) ∨
    ∃ problem stuck, chain level operand start = .error problem stuck ∧
      problem.GivesUp (phrase.Shallow levels start.budget) := by
  induction count : phrase.links generalizing phrase rest with
  | zero =>
      cases phrase with
      | single only => exact holds_single_or_fails reads copes only spells settled
      | link _ left operator ofLevel right => contradiction
      | compare => contradiction
  | succ more ih =>
      cases phrase with
      | single only => contradiction
      | compare => contradiction
      | link _ left operator ofLevel right =>
          obtain ⟨middle, spellsLeft, spells⟩ := Spells.append_iff.1 spells
          obtain ⟨behind, spellsOperator, spellsRight⟩ := Spells.uncons_iff.1 spells
          have settledLeft : left.Settled (middle.head?.map Token.lexeme) := by
            rw [spellsOperator.map_lexeme_head?]
            exact left.settled_of_operator grouped ofLevel
          have fewer : left.links = more := Nat.succ.inj count
          rcases ih left spellsLeft settledLeft fewer with ⟨last, holds, rfl, light⟩ |
            ⟨problem, stuck, fails, givesUp⟩
          · rcases holds.link_or_fails reads copes ofLevel right spellsOperator
              spellsRight settled with
              ⟨after, holdsAll, rfl, lightRight⟩ | ⟨problem, stuck, fails, givesUp⟩
            · refine .inl ⟨after, holdsAll, rfl, ?_⟩
              simp only [Phrase.Light, Phrase.peak] at *
              omega
            · refine .inr ⟨problem, stuck, fails, givesUp.mono fun shallow => ?_⟩
              simp only [Phrase.Shallow, Phrase.nest] at *
              omega
          · refine .inr ⟨problem, stuck, fails, givesUp.mono fun shallow => ?_⟩
            simp only [Phrase.Shallow, Phrase.nest] at *
            omega

theorem copes_chain (grouped : level ≠ .comparison) :
    CopesWith levels (.level level) (chain level operand) := by
  intro start phrase rest spells closed
  obtain ⟨settled, ends⟩ := (phrase.closed_iff_settled grouped).1 closed
  rcases holds_or_fails reads copes grouped phrase spells settled with
    ⟨after, ⟨first, between, found, readsFirst, repeats, length, depth, chain⟩,
      rfl, light⟩ |
    ⟨problem, stuck, fails, givesUp⟩
  · have stops : link? level operand after = .ok none after :=
      link?_eq_none_iff.2 ⟨ends, rfl⟩
    have readsAll := (many_eq_ok_iff (link?_shorter reads)).2 ⟨after, repeats, stops⟩
    have released : after.budget.release found.length = start.budget := by
      refine Budget.eq_of_depth_of_chain depth ?_
      simp only [Budget.release, chain, length]
      omega
    refine .step readsFirst
      (.step readsAll (.step ((@unlink_eq_ok_iff _ _ _ ⟨⟩).2 rfl) ?_))
    rw [released]
    exact ⟨rfl, light⟩
  · rw [fails]
    exact givesUp

end

/-! ### Comparisons -/

theorem peekComparison_eq {value : Expr} {start : Cursor}
    (ends : ¬ Level.comparison.Continues start.next?) :
    (do match (← peek?).bind (operator? .comparison) with
      | some next => throw (.chainedComparison next.symbol)
      | none => return value : Parser Expr) start = .ok value start :=
  chainedComparison_eq_ok_iff.2 ⟨ends, rfl, rfl⟩

theorem copes_comparison (copes : CopesWith levels (.level .sum) operand) :
    CopesWith levels (.level .comparison) (comparison operand) := by
  intro start phrase rest spells closed
  cases phrase with
  | single only =>
      rw [comparison]
      refine (copes spells closed.1).bind fun light left => ?_
      exact .step (takeIf?_operator?_eq_none_iff.2 ⟨closed.2, rfl⟩) ⟨rfl, light⟩
  | link grouped => contradiction
  | compare left operator ofLevel right =>
      obtain ⟨between, spellsLeft, spells⟩ := Spells.append_iff.1 spells
      obtain ⟨behind, spellsOperator, spellsRight⟩ := Spells.uncons_iff.1 spells
      have closedLeft : left.Closed (between.head?.map Token.lexeme) := by
        rw [spellsOperator.map_lexeme_head?]
        exact @Phrase.closed_of_operator .comparison left operator ofLevel
      have taken := takeIf?_operator?_eq_some_iff.2
        (show _ ∧ _ ∧ Spells _ (Cursor.mk between start.budget).rest
            (Cursor.mk behind start.budget).rest from ⟨rfl, ofLevel, spellsOperator⟩)
      rw [comparison]
      refine ((copes spellsLeft closedLeft).mono ?_).bind fun lightLeft leftTree => ?_
      · intro shallow
        simp only [Phrase.Shallow, Phrase.nest] at *
        omega
      refine .step taken ?_
      have copesRight := @copes ⟨behind, start.budget⟩ right rest spellsRight closed.1
      refine (copesRight.mono ?_).bind fun lightRight rightTree => ?_
      · intro shallow
        simp only [Phrase.Shallow, Phrase.nest] at *
        omega
      refine .of_ok (peekComparison_eq closed.2) ⟨rfl, ?_⟩
      simp only [Phrase.Light, Phrase.peak] at *
      omega

theorem copes_readOver (reads : operand.Reads (.phrase levels .operand))
    (copes : CopesWith levels .operand operand) :
    CopesWith levels .whole (readOver operand) := by
  have both := rankOver_induction
    (motive := fun rank parser => parser.Reads (.phrase levels rank) ∧
        CopesWith levels rank parser) ⟨reads, copes⟩
    (fun grouped ⟨readsTighter, tighter⟩ =>
      ⟨reads_chain grouped readsTighter, copes_chain readsTighter tighter grouped⟩)
    (fun ⟨readsSum, sum⟩ => ⟨reads_comparison readsSum, copes_comparison sum⟩)
  exact @(both .whole).2

/-! ### Operands -/

/-- Whether what an operand consists of is read to its end, one nesting level
inside of the operand. -/
def CopesInside (levels : Nat) (parser : Parser Expr) (start : Cursor)
    (rest : List Token) (phrase : Phrase .operand) : Prop :=
  Outcome.Copes
    (phrase.nest ≤ levels + 1 ∧ start.budget.depth + phrase.nest ≤ maxNesting + 1)
    (fun after => after = ⟨rest, start.budget⟩ ∧ phrase.Light start.budget)
      (parser start)

section

variable {phrase inner : Phrase .operand} {start : Cursor} {rest : List Token}

/-- Where an operand is written, what is inside of its own nesting level is
read to its end. -/
theorem copes_primary (reads : operand.Reads (.phrase levels .operand))
    (copes : CopesWith levels .operand operand) (bare : phrase.Bare)
    (spells : Spells phrase.lexemes start.rest rest)
    (closed : phrase.Closed (rest.head?.map Token.lexeme)) :
    CopesInside levels (primary operand) start rest phrase := by
  have fine (fits : (Language.bare levels).Fits start.budget phrase) :
      primary operand start = .ok phrase.tree ⟨rest, start.budget⟩ :=
    (reads_primary reads).iff.2 ⟨rfl, phrase, rfl, fits, spells, closed⟩
  cases phrase with
  | number literal =>
      exact .of_ok (fine ⟨trivial, Language.inside_number_fits _ _ _⟩)
        ⟨rfl, start.budget.chain_le⟩
  | designator target =>
      exact .of_ok (fine ⟨trivial, Language.inside_designator_fits _ _ _⟩)
        ⟨rfl, start.budget.chain_le⟩
  | prefixed operator operand => contradiction
  | parens content =>
      obtain ⟨opened, spellsOpen, spells⟩ := Spells.uncons_iff.1 spells
      obtain ⟨middle, spellsContent, spellsClose⟩ := Spells.append_iff.1 spells
      have closedContent : content.Closed (middle.head?.map Token.lexeme) := by
        rw [spellsClose.map_lexeme_head?]
        exact content.closed_of_mark (by decide) (by decide)
      have copesContent :=
        @copes_readOver _ _ reads copes ⟨opened, start.budget⟩ content middle
        spellsContent closedContent
      refine .taken (acceptPunctuator_of_spells spellsOpen) ?_
      refine (copesContent.mono ?_).bind fun light tree => ?_
      · intro shallow
        simp only [Phrase.Shallow, Phrase.nest] at *
        omega
      refine (@copes_punctuator ⟨middle, start.budget⟩ _ _ _ spellsClose).bind
        fun _ _ => ?_
      exact ⟨rfl, light⟩

/-- Behind a prefix operator that takes in no number, the operand nests one
level less deeply. -/
theorem shallow_of_prefixed {operator : UnaryOp} {budget : Budget}
    (notFolded : Phrase.folded? operator inner = none)
    (shallow : (Phrase.prefixed operator inner).nest ≤ levels + 1 ∧
      budget.depth + (Phrase.prefixed operator inner).nest ≤ maxNesting + 1) :
    inner.Shallow levels budget := by
  simp only [Phrase.Shallow, Phrase.nest, notFolded, Option.isSome_none,
    Bool.false_eq_true, if_false] at *
  omega

theorem copes_not (copes : CopesWith levels .operand operand)
    (spells : Spells (Phrase.prefixed .not inner).lexemes start.rest rest)
    (closed : inner.Closed (rest.head?.map Token.lexeme)) :
    CopesInside levels (operandOver operand) start rest (.prefixed .not inner) := by
  have noMinus : acceptPunctuator "-" start = .ok false start := by
    refine acceptPunctuator_eq_false_iff.2 ⟨?_, rfl⟩
    rw [Cursor.next?, spells.map_lexeme_head?]
    simp [Phrase.lexemes, UnaryOp.symbol]
  rcases Spells.uncons_iff.1 spells with ⟨behind, spellsSign, spellsInner⟩
  have copesInner := @copes ⟨behind, start.budget⟩ inner rest spellsInner closed
  refine .refused noMinus (.taken (acceptPunctuator_of_spells spellsSign) ?_)
  refine (copesInner.mono (shallow_of_prefixed rfl)).bind fun light tree => ?_
  exact ⟨rfl, light⟩

theorem copes_negate (copes : CopesWith levels .operand operand)
    (spells : Spells (Phrase.prefixed .negate inner).lexemes start.rest rest)
    (closed : inner.Closed (rest.head?.map Token.lexeme)) :
    CopesInside levels (operandOver operand) start rest (.prefixed .negate inner) := by
  rcases Spells.uncons_iff.1 spells with ⟨behind, spellsSign, spellsInner⟩
  have copesInner := @copes ⟨behind, start.budget⟩ inner rest spellsInner closed
  refine .taken (acceptPunctuator_of_spells spellsSign) ?_
  cases folded : Phrase.folded? .negate inner with
  | none =>
      have noNumber : takeIf? Token.number? ⟨behind, start.budget⟩ =
          .ok none ⟨behind, start.budget⟩ := by
        refine takeIf?_number?_eq_none_iff.2 ⟨fun literal => ?_, rfl⟩
        rw [Cursor.next?, spellsInner.map_lexeme_head?]
        exact Phrase.head?_lexemes_ne_literal folded literal _
      refine .step noNumber ?_
      refine (copesInner.mono (shallow_of_prefixed folded)).bind fun light tree => ?_
      exact ⟨rfl, light⟩
  | some literal =>
      rcases Phrase.eq_number_of_literal? folded with rfl
      have taken : takeIf? Token.number? ⟨behind, start.budget⟩ =
          .ok (some literal.text) ⟨rest, start.budget⟩ :=
        takeIf?_number?_eq_some_iff.2 ⟨rfl, literal, rfl, spellsInner⟩
      exact .step taken ⟨rfl, start.budget.chain_le⟩

theorem copes_operandOver (reads : operand.Reads (.phrase levels .operand))
    (copes : CopesWith levels .operand operand)
    (spells : Spells phrase.lexemes start.rest rest)
    (closed : phrase.Closed (rest.head?.map Token.lexeme)) :
    CopesInside levels (operandOver operand) start rest phrase := by
  by_cases bare : phrase.Bare
  next =>
    have noSign (operator : UnaryOp) :
        acceptPunctuator operator.symbol start = .ok false start := by
      refine acceptPunctuator_eq_false_iff.2 ⟨?_, rfl⟩
      rw [Cursor.next?, spells.map_lexeme_head?]
      exact Phrase.head?_lexemes_ne_sign bare operator _
    exact .refused (noSign .negate)
      (.refused (noSign .not) (copes_primary reads copes bare spells closed))
  next =>
    cases phrase with
    | prefixed operator inner =>
        cases operator with
        | not => exact copes_not copes spells closed
        | negate => exact copes_negate copes spells closed
    | _ => exact absurd trivial bare

end

theorem copes_operandWithin (levels : Nat) :
    CopesWith levels .operand (operandWithin levels) := by
  induction levels with
  | zero =>
      intro start phrase rest _ _ shallow
      exact absurd phrase.nest_pos (by have none := shallow.1; omega)
  | succ levels ih =>
      intro start phrase rest spells closed
      apply copes_nested_of_inside phrase.nest_pos
      intro deeper
      exact @copes_operandOver levels _ phrase ⟨start.rest, deeper⟩ rest
        (reads_operandWithin levels) ih spells closed

/-- Expressions are read to their end, unless a limit is reached. -/
theorem copes_read : CopesWith maxNesting .whole Expr.read :=
  copes_readOver (reads_operandWithin maxNesting) (copes_operandWithin maxNesting)

end Expr

end StackCompiler
