import StackCompiler.Compilation
import StackCompiler.Proofs.Reading.Blame

/-!
# Progress and balance

Each part of a program that is read on its own takes at least one token, and
leaves the limits in use as they were (`Part.read_of_reads`). On the way, the
nesting level that is closed is the one that was opened, and the operator links
that are given back are those that were used (`Expr.links_of_repeats`). So the
loops of reading come to an end (`Loop.exists_repeats`), and nothing that has
been read makes a difference to what is read behind it
(`Part.progress_and_balance`).
-/

namespace StackCompiler

open StackCompiler.Parser

theorem Budget.deepen?_eq_none_iff {budget : Budget} :
    budget.deepen? = none ↔ budget.depth = maxNesting := by
  have bound := budget.depth_le
  rw [deepen?]
  split
  next room => exact iff_of_false (Option.some_ne_none _) (Nat.ne_of_lt room)
  next noRoom => exact iff_of_true rfl (Nat.le_antisymm bound (Nat.le_of_not_lt noRoom))

theorem Budget.extend?_eq_none_iff {budget : Budget} :
    budget.extend? = none ↔ budget.chain = maxChain := by
  have bound := budget.chain_le
  rw [extend?]
  split
  next room => exact iff_of_false (Option.some_ne_none _) (Nat.ne_of_lt room)
  next noRoom => exact iff_of_true rfl (Nat.le_antisymm bound (Nat.le_of_not_lt noRoom))

theorem Phrase.lexemes_ne_nil :
    {rank : Rank} → (phrase : Phrase rank) → phrase.lexemes ≠ []
  | _, .number _ => List.cons_ne_nil _ _
  | _, .designator _ => List.cons_ne_nil _ _
  | _, .prefixed _ _ => List.cons_ne_nil _ _
  | _, .parens _ => List.cons_ne_nil _ _
  | _, .single only => only.lexemes_ne_nil
  | _, .link _ left _ _ _ => List.append_ne_nil_of_left_ne_nil left.lexemes_ne_nil _
  | _, .compare left _ _ _ => List.append_ne_nil_of_left_ne_nil left.lexemes_ne_nil _

/-! ### Parts -/

/-- The parts of a program that are read on their own, by what they are read as. -/
inductive Part : Type → Type where
  | statement : Part Stmt
  | designator : Part Designator
  /-- A whole expression, or what may stand between operators, down to the operands. -/
  | expression (rank : Rank) : Part Expr
  /-- An operand, without the nesting level that it opens. -/
  | inside : Part Expr
  /-- An operand without prefix operators. -/
  | primary : Part Expr

namespace Part

/-- Reads a part, with at most `levels` nesting levels within it. -/
def read (levels : Nat) : {α : Type} → Part α → Parser α
  | _, statement => Stmt.readWithin levels
  | _, designator => Expr.readDesignator
  | _, expression rank => Expr.rankOver (Expr.operandWithin levels) rank
  | _, inside => Expr.operandOver (Expr.operandWithin levels)
  | _, primary => Expr.primary (Expr.operandWithin levels)

variable {α : Type}

/-- Each part is read by a grammar in which nothing is written without tokens. -/
theorem exists_reads (part : Part α) (levels : Nat) :
    ∃ language : Language α, (part.read levels).Reads language ∧
      ∀ form, language.lexemes form ≠ [] := by
  have operands := Expr.reads_operandWithin levels
  cases part with
  | statement => exact ⟨_, Stmt.reads_readWithin levels, Stmt.lexemes_ne_nil levels⟩
  | designator => exact ⟨_, Expr.reads_readDesignator, fun _ => List.cons_ne_nil _ _⟩
  | expression rank =>
      exact ⟨_, Expr.reads_rankOver operands rank, Phrase.lexemes_ne_nil⟩
  | inside => exact ⟨_, Expr.reads_operandOver operands, Phrase.lexemes_ne_nil⟩
  | primary => exact ⟨_, Expr.reads_primary operands, Phrase.lexemes_ne_nil⟩

theorem steady_read (part : Part α) (levels : Nat) : (part.read levels).Steady := by
  have operands := Expr.reads_operandWithin levels
  have steadyOperands := Expr.steady_operandWithin levels
  cases part with
  | statement => exact Stmt.steady_readWithin levels
  | designator => exact Expr.steady_readDesignator
  | expression rank =>
      exact Expr.holds_rankOver Steady.compositional operands steadyOperands rank
  | inside => exact Expr.holds_operandOver Steady.compositional operands steadyOperands
  | primary => exact Expr.holds_primary Steady.compositional operands steadyOperands

/-- A part that is read takes tokens up to a later place, none of which is the
end, and gives back what it has used. -/
theorem read_of_reads (part : Part α) {levels pos : Nat} {tokens : List Token}
    {budget : Budget} {result : α} {after : Cursor}
    (reads : part.read levels ⟨tokens.drop pos, budget⟩ = .ok result after) :
    ∃ next, pos < next ∧ next ≤ tokens.length ∧ after = ⟨tokens.drop next, budget⟩ ∧
      ∀ token ∈ (tokens.drop pos).take (next - pos), token.isEnd = false := by
  obtain ⟨language, readsLanguage, nonempty⟩ := part.exists_reads levels
  obtain ⟨same, form, _, _, spells, _⟩ := readsLanguage.iff.1 reads
  obtain ⟨taken, split, inner⟩ := ((part.steady_read levels).leadsTo_of_ok reads).taken
  have positive := List.length_pos_iff.2 (nonempty form)
  have length := spells.length_eq
  have lengthSplit := congrArg List.length split
  obtain ⟨rest, budgetAfter⟩ := after
  obtain rfl : budgetAfter = budget := same
  simp only [List.length_append, List.length_drop] at length lengthSplit split
  refine ⟨pos + taken.length, by omega, by omega, ?_, ?_⟩
  · rw [← List.drop_drop, split, List.drop_left]
  · rwa [Nat.add_sub_cancel_left, split, List.take_left]

theorem depth_of_fails (part : Part α) {levels : Nat} {start stuck : Cursor}
    {problem : Problem} (fails : part.read levels start = .error problem stuck) :
    stuck.budget.depth = start.budget.depth :=
  ((part.steady_read levels).leadsTo_of_error fails).depth

end Part

/-! ### Operator links -/

/-- The links in use are those of the operators that have been read of a phrase. -/
theorem Expr.links_of_repeats {level : Level} (grouped : level ≠ .comparison)
    {levels : Nat} {start between last : Cursor} {first : Expr}
    {links : List (BinaryOp × Expr)} {operand : Parser Expr}
    (reads : operand.Reads (.phrase levels level.tighter))
    (readsFirst : operand start = .ok first between)
    (repeated : Repeats (link? level operand) between links last) :
    last.budget.chain = start.budget.chain + links.length ∧
    last.budget.release links.length = start.budget := by
  obtain ⟨only, _, linked⟩ := (Linked.single_iff reads).1 readsFirst
  obtain ⟨phrase, _, count, linkedAll⟩ := linked.repeats reads grouped repeated
  have none : (Phrase.single only).links = 0 := rfl
  have used : last.budget.chain = start.budget.chain + links.length := by
    rw [linkedAll.chain, count, none, Nat.zero_add]
  exact ⟨used, Budget.eq_of_depth_of_chain linkedAll.depth (Nat.sub_eq_of_eq_add used)⟩

/-! ### Loops -/

/-- The loops of reading, by what each round of them reads. -/
inductive Loop : Type → Type where
  | subscripts : Loop Subscript
  /-- The operators of a level, each with the operand behind it. -/
  | links (level : Level) (grouped : level ≠ .comparison) : Loop (BinaryOp × Expr)
  /-- The statements of a block. -/
  | block : Loop Stmt
  /-- The statements of a program, from the second one on. -/
  | program : Loop Stmt
  | dims : Loop Int
  /-- The declarations of a line, from the second one on. -/
  | line (type : TypeTag) : Loop Declaration
  /-- The lines of declarations. -/
  | lines : Loop (List Declaration)

namespace Loop

variable {α : Type}

/-- Reads one round of a loop, with at most `levels` nesting levels within it. -/
def step? (levels : Nat) : {α : Type} → Loop α → Parser (Option α)
  | _, subscripts => Expr.subscript?
  | _, links level _ =>
      Expr.link? level (Expr.rankOver (Expr.operandWithin levels) level.tighter)
  | _, block => Stmt.inBlock? (Stmt.readWithin levels)
  | _, program => Stmt.another?
  | _, dims => Declaration.dim?
  | _, line type => Declaration.another? type
  | _, lines => Declaration.line?

/-- Each round of a loop takes at least one token. -/
theorem shorter_of_step? (loop : Loop α) {levels : Nat} {start after : Cursor}
    {result : α} (reads : loop.step? levels start = .ok (some result) after) :
    after.rest.length < start.rest.length := by
  cases loop with
  | subscripts =>
      exact Expr.readsOn_subscript?.shorter (fun _ => List.cons_ne_nil _ _) reads
  | links level grouped =>
      exact Expr.link?_shorter
        (Expr.reads_rankOver (Expr.reads_operandWithin levels) _) reads
  | block =>
      exact (Stmt.readsOn_inBlock? (Stmt.reads_readWithin levels)).shorter
        (Stmt.lexemes_ne_nil levels) reads
  | program =>
      exact Stmt.readsOn_another?.shorter (Stmt.lexemes_ne_nil maxNesting) reads
  | dims => exact Declaration.readsOn_dim?.shorter (fun _ => List.cons_ne_nil _ _) reads
  | line type =>
      exact (Declaration.readsOn_another? type).shorter
        (fun _ => List.cons_ne_nil _ _) reads
  | lines =>
      exact Declaration.readsOn_line?.shorter (fun _ => List.cons_ne_nil _ _) reads

/-- There are at most as many rounds as tokens are taken by them. -/
theorem length_of_repeats (loop : Loop α) {levels : Nat} {start last : Cursor}
    {results : List α} (repeated : Repeats (loop.step? levels) start results last) :
    results.length + last.rest.length ≤ start.rest.length := by
  induction repeated with
  | nil => rw [List.length_nil, Nat.zero_add]
  | cons reads _ ih =>
      have shorter := loop.shorter_of_step? reads
      rw [List.length_cons]
      omega

/-- A loop goes round at most as often as there are tokens, until a round finds
nothing more or fails. -/
theorem exists_repeats (loop : Loop α) (levels : Nat) (start : Cursor) :
    ∃ results last, Repeats (loop.step? levels) start results last ∧
      results.length + last.rest.length ≤ start.rest.length ∧
      ((∃ after, loop.step? levels last = .ok none after ∧
          many (loop.step? levels) start = .ok results after) ∨
        ∃ problem stuck, loop.step? levels last = .error problem stuck ∧
          many (loop.step? levels) start = .error problem stuck) := by
  cases outcome : many (loop.step? levels) start with
  | ok results after =>
      obtain ⟨last, repeated, stops⟩ := (many_eq_ok_iff loop.shorter_of_step?).1 outcome
      exact ⟨results, last, repeated, loop.length_of_repeats repeated,
        .inl ⟨after, stops, rfl⟩⟩
  | error problem stuck =>
      obtain ⟨results, last, repeated, fails⟩ :=
        (many_eq_error_iff loop.shorter_of_step?).1 outcome
      exact ⟨results, last, repeated, loop.length_of_repeats repeated,
        .inr ⟨problem, stuck, fails, rfl⟩⟩

end Loop

/-! ### Reading from anywhere -/

/-- What reading keeps to from a place in some tokens on, when the limits in
use are `budget`. -/
structure Balanced (levels pos : Nat) (tokens : List Token)
    (budget : Budget) : Prop where
  /-- A part that is read takes tokens other than the end, and gives back
  what it has used. -/
  taken : ∀ {α : Type} (part : Part α) (result : α) (after : Cursor),
    part.read levels ⟨tokens.drop pos, budget⟩ = .ok result after →
    ∃ next, pos < next ∧ next ≤ tokens.length ∧ after = ⟨tokens.drop next, budget⟩ ∧
      ∀ token ∈ (tokens.drop pos).take (next - pos), token.isEnd = false
  /-- Where a part fails, the levels that it has opened are closed. -/
  depth : ∀ {α : Type} (part : Part α) (problem : Problem) (stuck : Cursor),
    part.read levels ⟨tokens.drop pos, budget⟩ = .error problem stuck →
    stuck.budget.depth = budget.depth
  /-- A level is refused only at the limit. -/
  refused : budget.deepen? = none ↔ budget.depth = maxNesting
  /-- Where a level is closed, it is the one that was opened. -/
  closed : ∀ deeper, budget.deepen? = some deeper →
    (Outcome.cursor
      (Stmt.readOver (Stmt.readWithin levels) ⟨tokens.drop pos, deeper⟩)).budget.depth =
      budget.depth + 1 ∧
    (Outcome.cursor (Expr.operandOver (Expr.operandWithin levels)
        ⟨tokens.drop pos, deeper⟩)).budget.depth =
      budget.depth + 1
  /-- An operator link is refused only at the limit. -/
  exhausted : budget.extend? = none ↔ budget.chain = maxChain
  /-- The links of a phrase are in use until they are given back together. -/
  linked : ∀ level tighter, level ≠ .comparison →
    tighter = (Part.expression level.tighter).read levels →
    (Part.expression (.level level)).read levels = Expr.chain level tighter ∧
    ∀ first between links last, tighter ⟨tokens.drop pos, budget⟩ = .ok first between →
      Repeats (Expr.link? level tighter) between links last →
      last.budget.chain = budget.chain + links.length ∧
      last.budget.release links.length = budget
  /-- A loop goes round until there is nothing more or it fails, for at most as
  many times as there are tokens. -/
  ends : ∀ {α : Type} (loop : Loop α), ∃ results last,
    Repeats (loop.step? levels) ⟨tokens.drop pos, budget⟩ results last ∧
    results.length + last.rest.length ≤ (tokens.drop pos).length ∧
    ((∃ after, loop.step? levels last = .ok none after ∧
        many (loop.step? levels) ⟨tokens.drop pos, budget⟩ = .ok results after) ∨
      ∃ problem stuck, loop.step? levels last = .error problem stuck ∧
        many (loop.step? levels) ⟨tokens.drop pos, budget⟩ = .error problem stuck)

/-- What there is to blame for a failure, without what comes before it. -/
structure Blamed (tokens : List Token) (failure : Failure) : Prop where
  /-- The declarations fail, or a statement fails by itself. -/
  part : (∃ stuck, Declaration.readAll ⟨tokens, Budget.unused⟩ =
      .error failure.problem stuck ∧ stuck.rest.head? = failure.found) ∨
    ∃ rest stuck, rest <:+ tokens ∧
      Stmt.read ⟨rest, Budget.unused⟩ = .error failure.problem stuck ∧
      stuck.rest.head? = failure.found
  /-- An expression has too many operators by itself. -/
  expression : failure.problem = .tooLong →
    ∃ start stuck : Cursor, start.rest <:+ tokens ∧
    start.budget.chain = 0 ∧ Expr.read start = .error .tooLong stuck ∧
    stuck.rest.head? = failure.found

/-- Reading advances and is balanced, from wherever it starts, so what has been
read is never to blame for a failure. -/
theorem Part.progress_and_balance (levels pos : Nat) (tokens : List Token)
    (budget : Budget) :
    Balanced levels pos tokens budget ∧
    ∀ failure, CompilationUnit.ofTokens? tokens = .error failure →
      Blamed tokens failure := by
  constructor
  · constructor
    case taken => exact fun part _ _ => part.read_of_reads
    case depth => exact fun part _ _ => part.depth_of_fails
    case refused => exact Budget.deepen?_eq_none_iff
    case closed =>
      intro deeper opened
      have statement :=
        Stmt.holds_readOver Steady.compositional.toSequential Expr.steady_read
        (Stmt.reads_readWithin levels) (Stmt.steady_readWithin levels)
      have operand := Part.inside.steady_read levels
      exact ⟨statement.depth_inside _ opened, operand.depth_inside _ opened⟩
    case exhausted => exact Budget.extend?_eq_none_iff
    case linked =>
      intro level tighter grouped same
      subst same
      refine ⟨Expr.rankOver_level grouped _,
        fun first between links last readsFirst repeated => ?_⟩
      have reads := Expr.reads_rankOver (Expr.reads_operandWithin levels) level.tighter
      exact Expr.links_of_repeats grouped reads readsFirst repeated
    case ends => exact fun loop => loop.exists_repeats levels _
  · intro failure fails
    exact ⟨CompilationUnit.exists_statement_of_error fails,
      CompilationUnit.exists_expression_of_tooLong fails⟩

/-- While the product is read, the sum needs another operator link, and only
with two links left they both get one. -/
theorem Part.progress_and_balance_crowded :
    let tokens := (Lexed.ofSource "print a*(a+1);".toList).tokens
    let roomy : Budget := ⟨3, 510, by decide, by decide⟩
    let crowded : Budget := ⟨3, 511, by decide, by decide⟩
    (∃ next result, 1 < next ∧ next ≤ tokens.length ∧
      (Part.expression .whole).read maxNesting ⟨tokens.drop 1, roomy⟩ =
        .ok result ⟨tokens.drop next, roomy⟩) ∧
    ∃ stuck,
      (Part.expression .whole).read maxNesting ⟨tokens.drop 1, crowded⟩ =
        .error .tooLong stuck ∧
      stuck.budget.depth = 3 := by
  intro tokens roomy crowded
  have reads : (Part.expression .whole).read maxNesting ⟨tokens.drop 1, roomy⟩ =
      .ok (.binary .multiply (.designator ⟨"a", []⟩)
          (.binary .add (.designator ⟨"a", []⟩) (.number "1")))
        ⟨tokens.drop 8, roomy⟩ := by
    change Expr.read _ = _
    decide +kernel
  have fails : (Part.expression .whole).read maxNesting ⟨tokens.drop 1, crowded⟩ =
      .error .tooLong ⟨tokens.drop 6, ⟨3, 512, by decide, by decide⟩⟩ := by
    change Expr.read _ = _
    decide +kernel
  obtain ⟨balanced, _⟩ := progress_and_balance maxNesting 1 tokens roomy
  obtain ⟨balancedToo, _⟩ := progress_and_balance maxNesting 1 tokens crowded
  obtain ⟨next, later, within, same, _⟩ := balanced.taken _ _ _ reads
  exact ⟨⟨next, _, later, within, same ▸ reads⟩, _, fails,
    balancedToo.depth _ _ _ fails⟩

end StackCompiler
