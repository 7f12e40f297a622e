import StackCompiler.Proofs.Expr.Height
import StackCompiler.Proofs.Reading.Offenders

/-!
# How many operators a program may have

The limit on operators is one for all nesting levels together: an operator keeps
linking its operands while the right one is read, parentheses in it included. So
a nesting level may be refused for operators outside of it
(`not_readUnit_of_busiest_le`). What is accepted for certain is an expression
whose nesting levels have no more operators than the limit together with all the
levels around them (`readUnit_of_peak_or_load`).
-/

namespace StackCompiler

namespace Phrase

/-- The number of binary operators on the outermost nesting level of a phrase,
which is outside of its parentheses. -/
def operators : {rank : Rank} → Phrase rank → Nat
  | _, number _ => 0
  | _, designator _ => 0
  | _, prefixed _ operand => operand.operators
  | _, parens _ => 0
  | _, single only => only.operators
  | _, link _ left _ _ right => left.operators + right.operators + 1
  | _, compare left _ _ right => left.operators + right.operators + 1

/-- The number of binary operators on the nesting level of a phrase that
has most of them. -/
def busiest : {rank : Rank} → Phrase rank → Nat
  | _, number _ => 0
  | _, designator _ => 0
  | _, prefixed _ operand => operand.busiest
  | _, parens content => content.busiest
  | _, single only => only.busiest
  | _, link _ left _ _ right =>
      max (left.operators + right.operators + 1) (max left.busiest right.busiest)
  | _, compare left _ _ right =>
      max (left.operators + right.operators + 1) (max left.busiest right.busiest)

/-- The number of binary operators on nesting levels inside of each other, at
most, without the outermost one. -/
def inside : {rank : Rank} → Phrase rank → Nat
  | _, number _ => 0
  | _, designator _ => 0
  | _, prefixed _ operand => operand.inside
  | _, parens content => content.operators + content.inside
  | _, single only => only.inside
  | _, link _ left _ _ right => max left.inside right.inside
  | _, compare left _ _ right => max left.inside right.inside

/-- The number of binary operators on nesting levels inside of each other, at most. -/
def load {rank : Rank} (phrase : Phrase rank) : Nat := phrase.operators + phrase.inside

variable {rank : Rank}

theorem links_le_operators (phrase : Phrase rank) :
    phrase.links ≤ phrase.operators := by
  induction phrase with
  | link grouped left operator ofLevel right ihLeft _ =>
      rw [links, operators]
      omega
  | _ => exact Nat.zero_le _

/-- The operators that link operands at the same time are on nesting levels
inside of each other. -/
theorem peak_le_load (phrase : Phrase rank) : phrase.peak ≤ phrase.load := by
  unfold load
  induction phrase with
  | number literal => exact Nat.zero_le _
  | designator target => exact Nat.zero_le _
  | prefixed operator operand ih => exact ih
  | parens content ih =>
      rw [peak, operators, inside, Nat.zero_add]
      exact ih
  | single only ih => exact ih
  | link grouped left operator ofLevel right ihLeft ihRight =>
      have linked := left.links_le_operators
      rw [peak, operators, inside]
      omega
  | compare left operator ofLevel right ihLeft ihRight =>
      rw [peak, operators, inside]
      omega

end Phrase

/-! ### Links that are held outside of parentheses -/

namespace Phrase

theorem operators_le_busiest {rank : Rank} (phrase : Phrase rank) :
    phrase.operators ≤ phrase.busiest := by
  induction phrase with
  | number literal => exact Nat.le_refl _
  | designator target => exact Nat.le_refl _
  | prefixed operator operand ih => exact ih
  | parens content ih => exact Nat.zero_le _
  | single only ih => exact ih
  | link grouped left operator ofLevel right => exact Nat.le_max_left _ _
  | compare left operator ofLevel right => exact Nat.le_max_left _ _

theorem operators_letter (rank : Rank) : (letter rank).operators = 0 := by
  rcases rank with _ | ⟨_ | _ | _ | _ | _⟩ <;> rfl

theorem busiest_letter (rank : Rank) : (letter rank).busiest = 0 := by
  rcases rank with _ | ⟨_ | _ | _ | _ | _⟩ <;> rfl

section

variable {level : Level} (grouped : level ≠ .comparison) (operator : BinaryOp)
  (ofLevel : operator.level = level) (first : Phrase level.tighter) (count : Nat)

theorem operators_linked :
    (linked grouped operator ofLevel first count).operators =
      first.operators + count := by
  induction count with
  | zero => rfl
  | succ count ih =>
      rw [linked, operators, ih, operators_letter, Nat.add_zero, Nat.add_assoc]

theorem busiest_linked :
    (linked grouped operator ofLevel first count).busiest =
      max first.busiest (first.operators + count) := by
  induction count with
  | zero => exact (Nat.max_eq_left first.operators_le_busiest).symm
  | succ count ih =>
      rw [linked, busiest, ih, operators_linked, operators_letter, busiest_letter]
      omega

end

theorem sum_grouped : Level.sum ≠ .comparison := by decide

theorem level_add : BinaryOp.add.level = .sum := rfl

/-- An identifier to which a sum in parentheses is added. -/
def heldSum (count : Nat) : Phrase .whole :=
  @single .disjunction (@single .conjunction (@single .comparison
    (@link .sum sum_grouped (letter _) .add level_add
      (@single .product (parens (sum count (letter .operand)))))))

theorem busiest_heldSum (count : Nat) : (heldSum count).busiest = max 1 count := by
  have inner : (sum count (letter .operand)).busiest = count := by
    have linked := @busiest_linked .sum (by decide) .add rfl
      (@single .product (letter .operand)) count
    exact linked.trans ((Nat.zero_max _).trans (Nat.zero_add _))
  change max 1 (max 0 (sum count (letter .operand)).busiest) = _
  rw [inner, Nat.zero_max]

theorem nest_heldSum (count : Nat) : (heldSum count).nest = 2 := by
  change max 1 (1 + (sum count (letter .operand)).nest) = 2
  rw [(prolongs_sum _ _).nest]
  rfl

theorem peak_heldSum (count : Nat) : (heldSum count).peak = count + 1 := by
  change max 0 (0 + 1 + (sum count (letter .operand)).peak) = _
  rw [(prolongs_sum _ _).peak, peak_letter]
  omega

theorem fits_heldSum (count : Nat) :
    ∀ lexeme ∈ (heldSum count).lexemes, lexeme.Fits := by
  have inner := (prolongs_sum count _).fits (@fits_letter .operand)
  change ∀ lexeme ∈ (letter (.level .sum)).lexemes ++
    .mark BinaryOp.add.symbol :: (parens (sum count _)).lexemes, _
  rw [List.forall_mem_append, List.forall_mem_cons]
  exact ⟨fits_letter, BinaryOp.add.fits_symbol, fits_parens inner⟩

end Phrase

/-! ### The verdict -/

namespace Composition

/-- The phrases in a program, none of which is a part of another one. -/
def phrases (composition : Composition) : List (Phrase .whole) :=
  composition.sentences.flatMap Sentence.phrases

variable {composition : Composition}

theorem peak_le_iff {bound : Nat} :
    (∀ sentence ∈ composition.sentences, sentence.peak ≤ bound) ↔
      ∀ phrase ∈ composition.phrases, phrase.peak ≤ bound := by
  simp only [phrases, List.forall_mem_flatMap, Sentence.peak_le_iff]

end Composition

section

variable {source : String} {composition : Composition}

/-- A program that does not nest too deeply is read, or an expression in it
links too many operands. -/
theorem readUnit_or_tooLong
    (written : composition.lexemes = (Lexed.ofSource source.toList).lexemes)
    (nearest : Stmt.ElseNearestAll composition.tree.body)
    (shallow : ∀ sentence ∈ composition.sentences, sentence.nest ≤ maxNesting) :
    ((∀ phrase ∈ composition.phrases, phrase.peak ≤ maxChain) ∧
      (readUnit source false).outcome =
        .ok (composition.tree, (Lexed.ofSource source.toList).skipped)) ∨
    ((∃ phrase ∈ composition.phrases, maxChain < phrase.peak) ∧
      ∃ token ∈ (Lexed.ofSource source.toList).tokens, (readUnit source false).outcome =
        .error (.malformedAt source.toList token.loc
          (Failure.message ⟨.tooLong, token⟩))) := by
  by_cases few : ∀ phrase ∈ composition.phrases, phrase.peak ≤ maxChain
  · refine .inl ⟨few,
      readUnit_of_composition (Composition.fits_unused_iff.2 ⟨nearest, ?_⟩) written⟩
    exact fun sentence found =>
      ⟨shallow sentence found, Composition.peak_le_iff.2 few sentence found⟩
  refine .inr ⟨by simpa using few, ?_⟩
  rw [outcome_readUnit]
  change ∃ token ∈ _, (CompilationUnit.parse (Lexed.ofSource source.toList).tokens
    source.toList).map _ = _
  rcases (Lexed.spells_ofSource_iff composition.exists_last).2 written with
    ⟨rest, spells, ends⟩
  rw [Composition.tree, ← Sentence.treeAll_eq_map, Stmt.elseNearestAll_treeAll_iff]
    at nearest
  have copes := CompilationUnit.copes_read nearest spells ends
  rw [CompilationUnit.parse, CompilationUnit.ofTokens?]
  cases run :
    CompilationUnit.read ⟨(Lexed.ofSource source.toList).tokens, Budget.unused⟩ with
  | ok unit after =>
      rw [run] at copes
      exact absurd (Composition.peak_le_iff.1 copes) few
  | error problem stuck =>
      rw [run] at copes
      cases problem with
      | tooLong =>
          have atToken := run
          rw [Lexed.tokens_ofSource] at atToken ⊢
          rcases CompilationUnit.exists_begun_of_read rfl Lexed.fits_of_mem_survey
            atToken with ⟨seen, token, later, split, behind, _⟩
          refine ⟨token, ?_, ?_⟩
          · rw [split]
            exact List.mem_append_right _ List.mem_cons_self
          · change Except.error
              (Failure.diagnose source.toList ⟨.tooLong, stuck.rest.head?⟩) = _
            rw [behind]
            rfl
      | tooDeep => exact absurd shallow copes
      | _ => exact copes.elim

/-- A program that does not nest too deeply is read if and only if nowhere too many
operators link operands at the same time, and if it is not read, that is reported. -/
theorem readUnit_of_peak_or_load
    (written : composition.lexemes = (Lexed.ofSource source.toList).lexemes)
    (nearest : Stmt.ElseNearestAll composition.tree.body)
    (shallow : ∀ sentence ∈ composition.sentences, sentence.nest ≤ maxNesting) :
    ((∃ result, (readUnit source false).outcome = .ok result) ↔
      ∀ phrase ∈ composition.phrases, phrase.peak ≤ maxChain) ∧
    ((∀ phrase ∈ composition.phrases, phrase.load ≤ maxChain) →
      (readUnit source false).outcome =
        .ok (composition.tree, (Lexed.ofSource source.toList).skipped)) ∧
    ∀ diagnostic, (readUnit source false).outcome = .error diagnostic →
      ∃ token ∈ (Lexed.ofSource source.toList).tokens,
        diagnostic =
          .malformedAt source.toList token.loc (Failure.message ⟨.tooLong, token⟩) := by
  rcases readUnit_or_tooLong written nearest shallow with
    ⟨few, accepted⟩ | ⟨⟨phrase, isPart, many⟩, token, isToken, refused⟩
  · refine ⟨iff_of_true ⟨_, accepted⟩ few, fun _ => accepted,
      fun diagnostic fails => ?_⟩
    rw [accepted] at fails
    contradiction
  · refine ⟨iff_of_false ?_ ?_, fun fewInside => ?_, fun diagnostic fails => ?_⟩
    · intro accepted
      rcases accepted with ⟨result, accepted⟩
      rw [refused] at accepted
      contradiction
    · exact fun few => absurd (few phrase isPart) (Nat.not_le_of_lt many)
    · exact absurd (Nat.le_trans phrase.peak_le_load (fewInside phrase isPart))
        (Nat.not_le_of_lt many)
    · rw [refused] at fails
      exact ⟨token, isToken, (Except.error.inj fails).symm⟩

end

/-- Below the limit it does not matter where the operators are. -/
theorem readUnit_of_peak_or_load_printing :
    ((∃ result, (readUnit "print a+(a+a);" false).outcome = .ok result) ↔
      ∀ phrase ∈ (Composition.printing (.heldSum 1)).phrases, phrase.peak ≤ maxChain) ∧
    ((∀ phrase ∈ (Composition.printing (.heldSum 1)).phrases, phrase.load ≤ maxChain) →
      (readUnit "print a+(a+a);" false).outcome =
        .ok ((Composition.printing (.heldSum 1)).tree,
          (Lexed.ofSource "print a+(a+a);".toList).skipped)) ∧
    ∀ diagnostic, (readUnit "print a+(a+a);" false).outcome = .error diagnostic →
      ∃ token ∈ (Lexed.ofSource "print a+(a+a);".toList).tokens,
        diagnostic = .malformedAt "print a+(a+a);".toList token.loc
          (Failure.message ⟨.tooLong, token⟩) :=
  readUnit_of_peak_or_load (by decide +kernel) ⟨trivial, trivial⟩
    (List.forall_mem_singleton.2 (by decide))

namespace Composition

variable {value : Phrase .whole}

theorem forall_sentences_printing_iff {holds : Sentence → Prop} :
    (∀ sentence ∈ (printing value).sentences, holds sentence) ↔ holds (.print value) :=
  List.forall_mem_singleton

theorem forall_phrases_printing_iff {holds : Phrase .whole → Prop} :
    (∀ phrase ∈ (printing value).phrases, holds phrase) ↔ holds value := by
  simp [phrases, sentences, printing, Sentence.phrases]

theorem nest_printing_heldSum (count : Nat) :
    ∀ sentence ∈ (printing (.heldSum count)).sentences, sentence.nest ≤ maxNesting := by
  rw [forall_sentences_printing_iff, Sentence.nest, Phrase.nest_heldSum]
  decide

end Composition

theorem not_readUnit_heldSum {count : Nat} (many : maxChain ≤ count) :
    ¬ ∃ result,
      (readUnit (Lexeme.spaced (Composition.printing (.heldSum count)).lexemes)
        false).outcome = .ok result := by
  intro accepted
  rcases accepted with ⟨result, accepted⟩
  have written :=
    (Lexed.lexemes_spaced (Composition.fits_printing (Phrase.fits_heldSum count))).symm
  rcases readUnit_or_tooLong written ⟨trivial, trivial⟩
    (Composition.nest_printing_heldSum count) with ⟨few, _⟩ | ⟨_, token, _, refused⟩
  · rw [Composition.forall_phrases_printing_iff, Phrase.peak_heldSum] at few
    omega
  · rw [refused] at accepted
    contradiction

/-- The program `print a + (a + a + ...);` is refused, with one operator outside
of the parentheses and as many in them as the limit allows. -/
theorem not_readUnit_of_busiest_le :
    ¬ ∀ (source : String) (composition : Composition),
      composition.lexemes = (Lexed.ofSource source.toList).lexemes →
      Stmt.ElseNearestAll composition.tree.body →
      (∀ sentence ∈ composition.sentences, sentence.nest ≤ maxNesting) →
      (∀ phrase ∈ composition.phrases, phrase.busiest ≤ maxChain) →
      ∃ result, (readUnit source false).outcome = .ok result := by
  intro accepts
  have written := (Lexed.lexemes_spaced
    (Composition.fits_printing (Phrase.fits_heldSum maxChain))).symm
  have quiet := Nat.le_of_eq
    ((Phrase.busiest_heldSum maxChain).trans (Nat.max_eq_right (by decide)))
  refine not_readUnit_heldSum (Nat.le_refl maxChain)
    (accepts _ _ written ⟨trivial, trivial⟩ ?_ ?_)
  · exact Composition.nest_printing_heldSum maxChain
  · exact Composition.forall_phrases_printing_iff.2 quiet

end StackCompiler
