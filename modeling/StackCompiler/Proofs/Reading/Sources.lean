import StackCompiler.Compilation
import StackCompiler.Proofs.Grammar.Samples
import StackCompiler.Proofs.Reading.Programs

/-!
# Sources are read by the grammar

The tokens of a source end where the source does. So a source reads as a program
if and only if its lexemes, all of them, are those of a composition that the
limits allow (`parse_iff_composition`).
-/

namespace StackCompiler

/-- Lexemes whose last is a punctuation mark are spelled up to the end if they
are all that is written. -/
theorem Lexed.spells_ofSource_iff {source : List Char} {lexemes : List Lexeme}
    (last : ∃ initial symbol, lexemes = initial ++ [.mark symbol]) :
    (∃ rest, Spells lexemes (ofSource source).tokens rest ∧
      Lexeme.Ends (rest.head?.map Token.lexeme)) ↔
    lexemes = (ofSource source).lexemes := by
  rw [tokens_ofSource, lexemes_ofSource, ← map_lexeme_survey]
  constructor
  · intro accepted
    rcases accepted with ⟨rest, spells, ends⟩
    obtain ⟨read, split, spelled⟩ := Spells.iff_exists_append.1 spells
    rcases List.append_eq_append_iff.1 split with ⟨more, rfl, restIs⟩ |
      ⟨more, bodyIs, rfl⟩
    · cases more with
      | nil => rw [← spelled, List.append_nil]
      | cons ending more =>
          obtain ⟨initial, symbol, rfl⟩ := last
          obtain ⟨rfl, none⟩ := List.cons.inj restIs
          obtain ⟨rfl, rfl⟩ := List.append_eq_nil_iff.1 none.symm
          rw [List.map_append] at spelled
          have same := List.append_inj_right' spelled rfl
          simp [Token.endAt, Token.lexeme] at same
    · cases more with
      | nil => rw [← spelled, bodyIs, List.append_nil]
      | cons next more =>
          have inside : next ∈ (survey source).tokens.reverse := by
            simp [bodyIs]
          have written := not_isEnd_of_mem_survey inside
          have isEnd := ends next.lexeme rfl
          simp_all [Token.isEnd, Token.lexeme]
  · intro equal
    subst equal
    refine ⟨[Token.endAt (survey source).loc (survey source).line], ?_, ?_⟩
    · exact Spells.iff_exists_append.2 ⟨_, rfl, rfl⟩
    · simp [Lexeme.Ends, Token.endAt, Token.lexeme]

namespace CompilationUnit

theorem ofTokens?_ofSource_eq_ok_iff {source : List Char} {unit : CompilationUnit} :
    ofTokens? (Lexed.ofSource source).tokens = .ok unit ↔
      ∃ composition : Composition, composition.tree = unit ∧
        Language.composition.Fits Budget.unused composition ∧
        composition.lexemes = (Lexed.ofSource source).lexemes := by
  rw [ofTokens?_eq_ok_iff]
  constructor
  · intro accepted
    rcases accepted with ⟨composition, rest, tree, fits, spells⟩
    exact ⟨composition, tree, fits,
      (Lexed.spells_ofSource_iff composition.exists_last).1 ⟨rest, spells⟩⟩
  · intro derived
    rcases derived with ⟨composition, tree, fits, written⟩
    obtain ⟨rest, spells⟩ :=
      (Lexed.spells_ofSource_iff composition.exists_last).2 written
    exact ⟨composition, rest, tree, fits, spells⟩

theorem parse_eq_ok_iff {tokens : List Token} {source : List Char}
    {unit : CompilationUnit} :
    parse tokens source = .ok unit ↔ ofTokens? tokens = .ok unit := by
  rw [parse]
  cases ofTokens? tokens <;> simp [Except.mapError]

end CompilationUnit

theorem Stmt.elseNearestAll_treeAll_iff {sentences : List Sentence} :
    ElseNearestAll (Sentence.treeAll sentences) ↔
      ∀ sentence ∈ sentences, sentence.tree.ElseNearest := by
  induction sentences with
  | nil => simp [Sentence.treeAll, ElseNearestAll]
  | cons first rest ih =>
      rw [Sentence.treeAll, ElseNearestAll, ih, List.forall_mem_cons]

/-- At the outermost level the limits are those for the program as a whole. -/
theorem Composition.fits_unused_iff {composition : Composition} :
    Language.composition.Fits Budget.unused composition ↔
    Stmt.ElseNearestAll composition.tree.body ∧
    ∀ sentence ∈ composition.sentences, sentence.nest ≤ maxNesting ∧
      sentence.peak ≤ maxChain := by
  change (∀ sentence ∈ composition.sentences, sentence.height ≤ maxNesting ∧
      (0 + sentence.nest ≤ maxNesting ∧ 0 + sentence.peak ≤ maxChain) ∧
      sentence.tree.ElseNearest) ↔ _
  rw [Composition.tree, ← Sentence.treeAll_eq_map, Stmt.elseNearestAll_treeAll_iff]
  simp only [Nat.zero_add]
  constructor
  · intro fits
    exact ⟨fun sentence isPart => (fits sentence isPart).2.2,
      fun sentence isPart => (fits sentence isPart).2.1⟩
  · intro holds sentence isPart
    rcases holds with ⟨nearest, within⟩
    exact ⟨Nat.le_trans sentence.height_le_nest (within sentence isPart).1,
      within sentence isPart, nearest sentence isPart⟩

/-! ### In either mode -/

theorem outcome_readUnit (source : String) (strict : Bool) :
    (readUnit source strict).outcome = (Lexed.read source.toList strict).outcome.bind
        fun lexed => (CompilationUnit.parse lexed.tokens source.toList).map fun unit =>
            (unit, lexed.skipped) := by
  rw [readUnit, Traced.outcome_bind]
  cases (Lexed.read source.toList strict).outcome with
  | error diagnostic => rfl
  | ok lexed =>
      change (Traced.ofExcept (CompilationUnit.parse lexed.tokens source.toList) >>=
        fun unit =>
        pure (unit, lexed.skipped)).outcome =
          (CompilationUnit.parse lexed.tokens source.toList).map _
      rw [Traced.outcome_bind]
      cases parsed : CompilationUnit.parse lexed.tokens source.toList <;> rfl

/-- What is read of a source in either mode is read of its tokens. -/
theorem readUnit_cases {source : String} {strict : Bool} {unit : CompilationUnit}
    {skipped : List SkippedChar}
    (reads : (readUnit source strict).outcome = .ok (unit, skipped)) :
    CompilationUnit.ofTokens? (Lexed.ofSource source.toList).tokens = .ok unit ∧
    skipped = (Lexed.ofSource source.toList).skipped := by
  rw [outcome_readUnit] at reads
  cases lexed : (Lexed.read source.toList strict).outcome with
  | error diagnostic =>
      rw [lexed] at reads
      contradiction
  | ok found =>
      rw [lexed] at reads
      obtain rfl := Lexed.eq_ofSource_of_read lexed
      change (CompilationUnit.parse _ source.toList).map _ = _ at reads
      cases parsed :
        CompilationUnit.parse (Lexed.ofSource source.toList).tokens source.toList with
      | error diagnostic =>
          rw [parsed] at reads
          contradiction
      | ok other =>
          rw [parsed] at reads
          obtain ⟨rfl, rfl⟩ := Prod.mk.inj (Except.ok.inj reads)
          exact ⟨CompilationUnit.parse_eq_ok_iff.1 parsed, rfl⟩

/-- Whatever was read in either mode has a derivation. -/
theorem exists_composition_of_readUnit {source : String} {strict : Bool}
    {unit : CompilationUnit} {skipped : List SkippedChar}
    (reads : (readUnit source strict).outcome = .ok (unit, skipped)) :
    ∃ composition : Composition, composition.tree = unit ∧
      Language.composition.Fits Budget.unused composition ∧
      composition.lexemes = (Lexed.ofSource source.toList).lexemes :=
  CompilationUnit.ofTokens?_ofSource_eq_ok_iff.1 (readUnit_cases reads).1

/-- A source whose lexemes are those of a composition that the limits allow is read. -/
theorem readUnit_of_composition {source : String} {composition : Composition}
    (fits : Language.composition.Fits Budget.unused composition)
    (written : composition.lexemes = (Lexed.ofSource source.toList).lexemes) :
    (readUnit source false).outcome =
      .ok (composition.tree, (Lexed.ofSource source.toList).skipped) := by
  have read :=
    CompilationUnit.ofTokens?_ofSource_eq_ok_iff.2 ⟨composition, rfl, fits, written⟩
  have parsed :
      CompilationUnit.parse (Lexed.ofSource source.toList).tokens source.toList =
        .ok composition.tree :=
    CompilationUnit.parse_eq_ok_iff.2 read
  rw [outcome_readUnit]
  change (CompilationUnit.parse (Lexed.ofSource source.toList).tokens
    source.toList).map _ = _
  rw [parsed]
  rfl

/-- The lexemes of a composition that the limits allow are read if they are
written with spaces. -/
theorem readUnit_spaced {composition : Composition}
    (fits : Language.composition.Fits Budget.unused composition)
    (lexical : ∀ lexeme ∈ composition.lexemes, lexeme.Fits) :
    (readUnit (Lexeme.spaced composition.lexemes) false).outcome =
      .ok (composition.tree, []) := by
  rw [readUnit_of_composition fits (Lexed.lexemes_spaced lexical).symm,
    Lexed.skipped_spaced lexical]

/-- A source reads as a program if and only if its lexemes are those of a
composition that derives it, every `else` belongs to the nearest conditional,
and the limits are kept. -/
theorem parse_iff_composition (source : String) (unit : CompilationUnit) :
    ∃ lexed, (Lexed.read source.toList false).outcome = .ok lexed ∧
      (CompilationUnit.parse lexed.tokens source.toList = .ok unit ↔
        ∃ composition : Composition, composition.lexemes = lexed.lexemes ∧
          composition.tree = unit ∧
          Stmt.ElseNearestAll unit.body ∧
          ∀ sentence ∈ composition.sentences,
            sentence.nest ≤ maxNesting ∧ sentence.peak ≤ maxChain) := by
  refine ⟨Lexed.ofSource source.toList, rfl, ?_⟩
  rw [CompilationUnit.parse_eq_ok_iff, CompilationUnit.ofTokens?_ofSource_eq_ok_iff]
  constructor
  · intro accepted
    rcases accepted with ⟨composition, rfl, fits, written⟩
    exact ⟨composition, written, rfl, Composition.fits_unused_iff.1 fits⟩
  · intro derived
    rcases derived with ⟨composition, written, rfl, fits⟩
    exact ⟨composition, rfl, Composition.fits_unused_iff.2 fits, written⟩

end StackCompiler
