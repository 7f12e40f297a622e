import StackCompiler.Expr.Parser
import StackCompiler.Proofs.Grammar.Phrase
import StackCompiler.Proofs.Reading.Limits

/-!
# Levels of operators are read by the grammar

Given a parser that reads exactly the phrases between the operators of a level,
the parser of the level reads exactly the phrases of the level. An operator that
has been read takes one of the links until the phrase is complete, so while a
phrase is read from the left, the links of what has been read of it are in use.
-/

namespace StackCompiler

/-- The phrases of a rank that take at most `levels` nesting levels. -/
def Language.phrase (levels : Nat) (rank : Rank) : Language Expr where
  Form := Phrase rank
  lexemes := Phrase.lexemes
  tree := Phrase.tree
  Fits budget phrase := phrase.nest ≤ levels ∧ budget.Allows phrase.nest phrase.peak
  Closed := Phrase.Closed

namespace Phrase

/-- Whether the last operand of a phrase is at its end before `next`, whatever
operators may follow. -/
def Settled : {rank : Rank} → Phrase rank → (next : Option Lexeme) → Prop
  | _, single only, next => only.Closed next
  | _, link _ _ _ _ right, next => right.Closed next
  | _, phrase, next => phrase.Closed next

theorem closed_iff_settled {level : Level} (grouped : level ≠ .comparison)
    (phrase : Phrase (.level level)) {next : Option Lexeme} :
    phrase.Closed next ↔ phrase.Settled next ∧ ¬ level.Continues next := by
  cases phrase with
  | single only => exact Iff.rfl
  | link _ left operator ofLevel right => exact Iff.rfl
  | compare => contradiction

theorem settled_of_operator {level : Level} (grouped : level ≠ .comparison)
    (phrase : Phrase (.level level)) {operator : BinaryOp}
    (ofLevel : operator.level = level) :
    phrase.Settled (some (.mark operator.symbol)) := by
  cases phrase with
  | single only => exact only.closed_of_operator ofLevel
  | link _ left other _ right => exact right.closed_of_operator ofLevel
  | compare => contradiction

end Phrase

namespace Expr

open StackCompiler.Parser

theorem operator?_eq_some_iff {level : Level} {token : Token} {operator : BinaryOp} :
    operator? level token = some operator ↔
      operator.level = level ∧ token.lexeme = .mark operator.symbol := by
  simp only [operator?, Option.filter_eq_some_iff, Option.bind_eq_some_iff,
    Token.punctuator?_eq_some_iff, BinaryOp.ofSymbol?_eq_some_iff, beq_iff_eq]
  constructor
  · intro accepted
    rcases accepted with ⟨⟨_, written, rfl⟩, ofLevel⟩
    exact ⟨ofLevel, written⟩
  · intro derived
    rcases derived with ⟨ofLevel, written⟩
    exact ⟨⟨_, written, rfl⟩, ofLevel⟩

theorem bind_operator?_eq_none_iff {level : Level} {cursor : Cursor} :
    cursor.rest.head?.bind (operator? level) = none ↔
    ¬ level.Continues cursor.next? := by
  rw [Option.eq_none_iff_forall_ne_some, Level.Continues, Cursor.next?]
  cases cursor.rest.head? with
  | none => simp
  | some token =>
      simp [operator?_eq_some_iff]

theorem takeIf?_operator?_eq_none_iff {level : Level} {before after : Cursor} :
    takeIf? (operator? level) before = .ok none after ↔
      ¬ level.Continues before.next? ∧ before = after := by
  rw [takeIf?_eq_none_iff, bind_operator?_eq_none_iff]

theorem takeIf?_operator?_eq_some_iff {level : Level} {before after : Cursor}
    {operator : BinaryOp} :
    takeIf? (operator? level) before = .ok (some operator) after ↔
    after.budget = before.budget ∧ operator.level = level ∧
    Spells [.mark operator.symbol] before.rest after.rest := by
  simp only [takeIf?_eq_some_iff, operator?_eq_some_iff, Spells.cons_iff,
    Spells.nil_iff]
  constructor
  · intro accepted
    rcases accepted with ⟨same, token, taken, ofLevel, written⟩
    exact ⟨same, ofLevel, token, _, taken, written, rfl⟩
  · intro derived
    rcases derived with ⟨same, ofLevel, token, _, taken, written, rfl⟩
    exact ⟨same, token, taken, ofLevel, written⟩

/-! ### Operators that are grouped from the left -/

variable {level : Level} {levels : Nat} {operand : Parser Expr}

theorem link?_eq_none_iff {before after : Cursor} :
    link? level operand before = .ok none after ↔
      ¬ level.Continues before.next? ∧ before = after := by
  simp only [link?, bind_eq_ok_iff, Option.exists, pure_eq_ok_iff,
    takeIf?_operator?_eq_none_iff, reduceCtorEq, false_and, and_false, exists_false,
    or_false, true_and]
  constructor
  · intro accepted
    rcases accepted with ⟨_, ⟨ends, rfl⟩, rfl⟩
    exact ⟨ends, rfl⟩
  · intro derived
    rcases derived with ⟨ends, rfl⟩
    exact ⟨before, ⟨ends, rfl⟩, rfl⟩

theorem link?_eq_some_iff {before after : Cursor} {operator : BinaryOp} {right : Expr} :
    link? level operand before = .ok (some (operator, right)) after ↔
    operator.level = level ∧
    ∃ between longer, Spells [.mark operator.symbol] before.rest between ∧
      before.budget.extend? = some longer ∧
      operand ⟨between, longer⟩ = .ok right after := by
  simp only [link?, bind_eq_ok_iff, Option.exists, pure_eq_ok_iff,
    takeIf?_operator?_eq_some_iff, link_eq_ok_iff, reduceCtorEq, false_and, and_false,
    exists_false, false_or, Option.some.injEq, Prod.mk.injEq]
  constructor
  · intro accepted
    rcases accepted with
      ⟨_, between, ⟨same, ofLevel, spells⟩, _, _, ⟨longer, used, rfl⟩, _, _, reads,
        ⟨rfl, rfl⟩, rfl⟩
    rw [same] at used
    exact ⟨ofLevel, between.rest, longer, spells, used, reads⟩
  · intro derived
    rcases derived with ⟨ofLevel, between, longer, spells, used, reads⟩
    exact ⟨operator, ⟨between, before.budget⟩, ⟨rfl, ofLevel, spells⟩, ⟨⟩,
      ⟨between, longer⟩, ⟨longer, used, rfl⟩, right, after, reads, ⟨rfl, rfl⟩, rfl⟩

/-- Whether a phrase of a level has been read from `start` on, and its links
are still in use. -/
structure Linked (levels : Nat) (start : Cursor) (phrase : Phrase (.level level))
    (cursor : Cursor) : Prop where
  depth : cursor.budget.depth = start.budget.depth
  chain : cursor.budget.chain = start.budget.chain + phrase.links
  fits : (Language.phrase levels (.level level)).Fits start.budget phrase
  spells : Spells phrase.lexemes start.rest cursor.rest
  settled : phrase.Settled cursor.next?

namespace Linked

variable {start after : Cursor}

theorem budget_eq {only : Phrase level.tighter}
    (linked : Linked levels start (.single only) after) : after.budget = start.budget :=
  Budget.eq_of_depth_of_chain linked.depth linked.chain

/-- The first operand is a phrase of the level without any links. -/
theorem single_iff (reads : operand.Reads (.phrase levels level.tighter))
    {first : Expr} :
    operand start = .ok first after ↔
    ∃ only : Phrase level.tighter, only.tree = first ∧
      Linked levels start (.single only) after := by
  rw [reads.iff]
  constructor
  · intro accepted
    rcases accepted with ⟨same, only, rfl, fits, spells, closed⟩
    exact ⟨only, rfl, by rw [same], by rw [same]; rfl, fits, spells, closed⟩
  · intro derived
    rcases derived with ⟨only, rfl, linked⟩
    exact ⟨linked.budget_eq, only, rfl, linked.fits, linked.spells, linked.settled⟩

/-- Another operand makes a longer phrase. -/
theorem link (reads : operand.Reads (.phrase levels level.tighter))
    (grouped : level ≠ .comparison) {left : Phrase (.level level)} {between : Cursor}
    (linked : Linked levels start left between) {operator : BinaryOp} {result : Expr}
    (readsLink : link? level operand between = .ok (some (operator, result)) after) :
    ∃ (ofLevel : operator.level = level) (right : Phrase level.tighter),
      right.tree = result ∧
      Linked levels start (.link grouped left operator ofLevel right) after := by
  obtain ⟨ofLevel, rest, longer, spellsOperator, used, readsRight⟩ :=
    link?_eq_some_iff.1 readsLink
  obtain ⟨same, right, rfl, fitsRight, spellsRight, closed⟩ := reads.iff.1 readsRight
  obtain ⟨depth, chain⟩ := Budget.extend?_eq_some_iff.1 used
  have depthBefore := linked.depth
  have chainBefore := linked.chain
  refine ⟨ofLevel, right, rfl, ?_, ?_, ?_, ?_, closed⟩
  · rw [same]
    exact depth.trans depthBefore
  · rw [same, chain, chainBefore]
    rfl
  · have fitsLeft := linked.fits
    simp only [Language.phrase, Budget.Allows, Phrase.nest, Phrase.peak] at *
    omega
  · exact Spells.append_iff.2
      ⟨_, linked.spells, Spells.uncons_iff.2 ⟨_, spellsOperator, spellsRight⟩⟩

/-- A phrase with links consists of a shorter one and another operand. -/
theorem unlink (reads : operand.Reads (.phrase levels level.tighter))
    {grouped : level ≠ .comparison} {left : Phrase (.level level)} {operator : BinaryOp}
    {ofLevel : operator.level = level} {right : Phrase level.tighter}
    (linked : Linked levels start (.link grouped left operator ofLevel right) after) :
    ∃ between, Linked levels start left between ∧
      link? level operand between = .ok (some (operator, right.tree)) after := by
  obtain ⟨depth, chain, fits, spells, closed⟩ := linked
  obtain ⟨rest, spellsLeft, spells⟩ := Spells.append_iff.1 spells
  obtain ⟨later, spellsOperator, spellsRight⟩ := Spells.uncons_iff.1 spells
  have depthBound := start.budget.depth_le
  simp only [Phrase.links] at chain
  have roomLeft : start.budget.chain + left.links ≤ maxChain := by
    have chainBound := after.budget.chain_le
    omega
  have room : start.budget.chain + left.links + 1 ≤ maxChain := by
    have chainBound := after.budget.chain_le
    omega
  refine ⟨⟨rest,
      ⟨start.budget.depth, start.budget.chain + left.links, depthBound, roomLeft⟩⟩,
    ?_, ?_⟩
  · refine ⟨rfl, rfl, ?_, spellsLeft, ?_⟩
    · simp only [Language.phrase, Budget.Allows, Phrase.nest, Phrase.peak] at *
      omega
    · rw [Cursor.next?, spellsOperator.map_lexeme_head?]
      exact left.settled_of_operator grouped ofLevel
  · rw [link?_eq_some_iff]
    refine ⟨ofLevel, later, after.budget, spellsOperator, ?_, ?_⟩
    · exact Budget.extend?_eq_some_iff.2 ⟨depth, by omega⟩
    · refine reads.iff.2 ⟨rfl, right, rfl, ?_, spellsRight, closed⟩
      simp only [Language.phrase, Budget.Allows, Phrase.nest, Phrase.peak] at *
      omega

theorem repeats (reads : operand.Reads (.phrase levels level.tighter))
    (grouped : level ≠ .comparison) {left : Phrase (.level level)} {between : Cursor}
    (linked : Linked levels start left between) {links : List (BinaryOp × Expr)}
    (repeated : Repeats (link? level operand) between links after) :
    ∃ phrase : Phrase (.level level), phrase.tree = groupLeft left.tree links ∧
      phrase.links = left.links + links.length ∧ Linked levels start phrase after := by
  induction repeated generalizing left with
  | nil => exact ⟨left, rfl, rfl, linked⟩
  | @cons _ _ _ first rest readsLink _ ih =>
      obtain ⟨operator, result⟩ := first
      obtain ⟨ofLevel, right, rfl, longer⟩ := linked.link reads grouped readsLink
      obtain ⟨phrase, tree, count, linkedAll⟩ := ih longer
      refine ⟨phrase, tree, ?_, linkedAll⟩
      rw [count, Phrase.links, List.length_cons]
      omega

/-- A phrase is read from its first operand on, by induction on the
number of its links. -/
theorem exists_repeats (reads : operand.Reads (.phrase levels level.tighter))
    (grouped : level ≠ .comparison) {phrase : Phrase (.level level)}
    (linked : Linked levels start phrase after) :
    ∃ first between links, operand start = .ok first between ∧
      Repeats (link? level operand) between links after ∧
      groupLeft first links = phrase.tree ∧
      links.length = phrase.links := by
  induction count : phrase.links generalizing phrase after with
  | zero =>
      cases phrase with
      | single only =>
          exact ⟨only.tree, after, [], (single_iff reads).2 ⟨only, rfl, linked⟩,
            .nil, rfl, rfl⟩
      | link _ left operator ofLevel right => contradiction
      | compare => contradiction
  | succ more ih =>
      cases phrase with
      | single only => contradiction
      | link _ left operator ofLevel right =>
          obtain ⟨between, linkedLeft, readsLink⟩ := linked.unlink reads
          obtain ⟨first, early, links, readsFirst, repeated, tree, length⟩ :=
            ih linkedLeft (Nat.succ.inj count)
          refine ⟨first, early, links ++ [(operator, right.tree)], readsFirst,
            repeated.snoc readsLink, ?_, by simp [length]⟩
          simp only [groupLeft, List.foldl_append, List.foldl_cons, List.foldl_nil,
            Phrase.tree] at *
          rw [tree]
      | compare => contradiction

end Linked

theorem link?_shorter (reads : operand.Reads (.phrase levels level.tighter))
    {before after : Cursor} {result : BinaryOp × Expr}
    (readsLink : link? level operand before = .ok (some result) after) :
    after.rest.length < before.rest.length := by
  obtain ⟨_, _, _, spellsOperator, _, readsRight⟩ := link?_eq_some_iff.1 readsLink
  obtain ⟨_, _, _, _, spellsRight, _⟩ := reads.iff.1 readsRight
  have lengthOperator := spellsOperator.length_eq
  have lengthRight := spellsRight.length_eq
  simp only [List.length_cons, List.length_nil] at *
  omega

/-- Between phrases and the operators of a level, a phrase of the level is read. -/
theorem reads_chain (grouped : level ≠ .comparison)
    (reads : operand.Reads (.phrase levels level.tighter)) :
    (chain level operand).Reads (.phrase levels (.level level)) := by
  intro before result after
  simp only [chain, bind_eq_ok_iff, many_eq_ok_iff (link?_shorter reads),
    unlink_eq_ok_iff, link?_eq_none_iff, pure_eq_ok_iff]
  constructor
  · intro accepted
    rcases accepted with ⟨first, _, readsFirst, links, _, ⟨last, repeated, ends, rfl⟩,
      _, _, rfl, rfl, rfl⟩
    obtain ⟨only, rfl, linked⟩ := (Linked.single_iff reads).1 readsFirst
    obtain ⟨phrase, tree, count, linkedAll⟩ := linked.repeats reads grouped repeated
    obtain ⟨depth, chain, fits, spells, settled⟩ := linkedAll
    refine ⟨?_, phrase, tree, fits, spells,
      (phrase.closed_iff_settled grouped).2 ⟨settled, ends⟩⟩
    refine Budget.eq_of_depth_of_chain depth ?_
    simp only [Budget.release, chain, count, Phrase.links]
    omega
  · intro derived
    rcases derived with ⟨same, phrase, rfl, fits, spells, closed⟩
    obtain ⟨settled, ends⟩ := (phrase.closed_iff_settled grouped).1 closed
    obtain ⟨budget, used⟩ : ∃ budget : Budget,
        budget.depth = before.budget.depth ∧
            budget.chain = before.budget.chain + phrase.links := by
      have room := fits.2.2
      have count := phrase.links_le_peak
      exact ⟨⟨before.budget.depth, before.budget.chain + phrase.links,
          before.budget.depth_le, by omega⟩, rfl, rfl⟩
    have linked : Linked levels before phrase ⟨after.rest, budget⟩ :=
      ⟨used.1, used.2, fits, spells, settled⟩
    obtain ⟨first, between, links, readsFirst, repeated, tree, count⟩ :=
      linked.exists_repeats reads grouped
    refine ⟨first, between, readsFirst, links, _, ⟨_, repeated, ends, rfl⟩, ⟨⟩, after,
      ?_, tree, rfl⟩
    have released : budget.release links.length = after.budget := by
      rw [same]
      refine Budget.eq_of_depth_of_chain used.1 ?_
      simp only [Budget.release, used.2, count]
      omega
    rw [released]

/-! ### Comparisons -/

theorem chainedComparison_eq_ok_iff {before after : Cursor} {value result : Expr} :
    (do
      match (← peek?).bind (operator? .comparison) with
      | some next => throw (.chainedComparison next.symbol)
      | none => return value : Parser Expr) before = .ok result after ↔
      ¬ Level.comparison.Continues before.next? ∧ value = result ∧ before = after := by
  rw [bind_eq_ok_iff, ← bind_operator?_eq_none_iff]
  constructor
  · intro accepted
    rcases accepted with ⟨_, _, peeked, rest⟩
    obtain ⟨rfl, rfl⟩ := peek?_eq_ok_iff.1 peeked
    cases next : before.rest.head?.bind (operator? .comparison) with
    | none =>
        rw [next] at rest
        exact ⟨rfl, pure_eq_ok_iff.1 rest⟩
    | some operator =>
        rw [next] at rest
        exact absurd rest throw_eq_ok_iff.1
  · intro derived
    rcases derived with ⟨none, returns⟩
    refine ⟨_, before, peek?_eq_ok_iff.2 ⟨rfl, rfl⟩, ?_⟩
    rw [none]
    exact pure_eq_ok_iff.2 returns

/-- Two phrases with a comparison between them are read, unless another
comparison follows. -/
theorem reads_comparison (reads : operand.Reads (.phrase levels (.level .sum))) :
    (comparison operand).Reads (.phrase levels (.level .comparison)) := by
  intro before result after
  rw [comparison, bind_eq_ok_iff]
  constructor
  · intro accepted
    rcases accepted with ⟨_, between, readsLeft, rest⟩
    obtain ⟨sameLeft, left, rfl, fitsLeft, spellsLeft, closedLeft⟩ :=
      reads.iff.1 readsLeft
    obtain ⟨found, here, taken, rest⟩ := bind_eq_ok_iff.1 rest
    cases found with
    | none =>
        obtain ⟨ends, rfl⟩ := takeIf?_operator?_eq_none_iff.1 taken
        obtain ⟨rfl, rfl⟩ := pure_eq_ok_iff.1 rest
        exact ⟨sameLeft, .single left, rfl, fitsLeft, spellsLeft, closedLeft, ends⟩
    | some operator =>
        obtain ⟨sameHere, ofLevel, spellsOperator⟩ :=
          takeIf?_operator?_eq_some_iff.1 taken
        obtain ⟨_, last, readsRight, rest⟩ := bind_eq_ok_iff.1 rest
        obtain ⟨sameRight, right, rfl, fitsRight, spellsRight, closedRight⟩ :=
          reads.iff.1 readsRight
        obtain ⟨ends, rfl, rfl⟩ := chainedComparison_eq_ok_iff.1 rest
        rw [sameHere, sameLeft] at fitsRight
        refine ⟨sameRight.trans (sameHere.trans sameLeft),
          .compare left operator ofLevel right, rfl, ?_, ?_, closedRight, ends⟩
        · exact ⟨Nat.max_le.2 ⟨fitsLeft.1, fitsRight.1⟩,
            Budget.allows_max_iff.2 ⟨fitsLeft.2, fitsRight.2⟩⟩
        · exact Spells.append_iff.2
            ⟨_, spellsLeft, Spells.uncons_iff.2 ⟨_, spellsOperator, spellsRight⟩⟩
  · intro derived
    rcases derived with ⟨same, phrase, rfl, fits, spells, closed⟩
    cases phrase with
    | single only =>
        refine ⟨only.tree, after,
          reads.iff.2 ⟨same, only, rfl, fits, spells, closed.1⟩, ?_⟩
        refine bind_eq_ok_iff.2
          ⟨none, after, takeIf?_operator?_eq_none_iff.2 ⟨closed.2, rfl⟩, ?_⟩
        exact pure_eq_ok_iff.2 ⟨rfl, rfl⟩
    | link grouped => contradiction
    | compare left operator ofLevel right =>
        obtain ⟨between, spellsLeft, spells⟩ := Spells.append_iff.1 spells
        obtain ⟨here, spellsOperator, spellsRight⟩ := Spells.uncons_iff.1 spells
        obtain ⟨fitsLeft, fitsRight⟩ := Budget.allows_max_iff.1 fits.2
        have levelsBoth := Nat.max_le.1 fits.1
        have closedLeft : left.Closed (Cursor.next? ⟨between, before.budget⟩) := by
          rw [Cursor.next?, spellsOperator.map_lexeme_head?]
          exact @Phrase.closed_of_operator .comparison left operator ofLevel
        refine ⟨left.tree, ⟨between, before.budget⟩, reads.iff.2
            ⟨rfl, left, rfl, ⟨levelsBoth.1, fitsLeft⟩, spellsLeft, closedLeft⟩, ?_⟩
        refine bind_eq_ok_iff.2 ⟨some operator, ⟨here, before.budget⟩,
          takeIf?_operator?_eq_some_iff.2 ⟨rfl, ofLevel, spellsOperator⟩, ?_⟩
        refine bind_eq_ok_iff.2 ⟨right.tree, after,
          reads.iff.2
            ⟨same, right, rfl, ⟨levelsBoth.2, fitsRight⟩, spellsRight, closed.1⟩, ?_⟩
        exact chainedComparison_eq_ok_iff.2 ⟨closed.2, rfl, rfl⟩

end Expr

end StackCompiler
