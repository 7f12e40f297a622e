import StackCompiler.Proofs.Reading.Declarations
import StackCompiler.Proofs.Reading.Statements

/-!
# Programs are read by the grammar

A sequence of tokens forms a program if it spells a composition up to its end,
every sentence of the composition stays within the limits, and every `else`
belongs to the nearest conditional. At the outermost level nothing of the limits
is in use, so what the limits allow no longer depends on what was read before.
-/

namespace StackCompiler

open StackCompiler.Parser

/-- Whether the tokens are at their end before `next`. -/
def Lexeme.Ends (next : Option Lexeme) : Prop :=
  ∀ lexeme ∈ next, lexeme.kind = .endOfInput

theorem Lexeme.Ends.ne {next : Option Lexeme} (ends : Ends next) {lexeme : Lexeme}
    (written : lexeme.kind ≠ .endOfInput) : next ≠ some lexeme := by
  intro equal
  subst equal
  exact written (ends lexeme rfl)

theorem all_isEnd_iff {cursor : Cursor} :
    cursor.rest.head?.all Token.isEnd = true ↔ Lexeme.Ends cursor.next? := by
  rw [Lexeme.Ends, Cursor.next?]
  cases cursor.rest.head? with
  | none => simp
  | some token => simp [Token.isEnd, Token.lexeme]

namespace Stmt

theorem readsOn_another? : another?.ReadsOn (.sentence maxNesting) [] Lexeme.Ends := by
  apply ReadsOn.of_stays
  · intro before result after
    simp only [another?, bind_eq_ok_iff, Bool.exists_bool, Bool.false_eq_true, if_false,
      if_true, atEnd_eq_ok_iff, reads_read.iff, pure_eq_ok_iff, reduceCtorEq, false_and,
      and_false, exists_false, or_false, Option.some.injEq]
    constructor
    · intro accepted
      rcases accepted with ⟨_, ⟨_, rfl⟩, _, _, spans, rfl, rfl⟩
      exact spans
    · intro spans
      obtain ⟨sentence, next⟩ := opening_of_spans spans
      exact ⟨before, ⟨not_atEnd_of_next? next sentence.kind_opening_ne_endOfInput, rfl⟩,
        result, after, spans, rfl, rfl⟩
  · intro before after
    simp only [another?, bind_eq_ok_iff, Bool.exists_bool, Bool.false_eq_true, if_false,
      if_true, atEnd_eq_ok_iff, pure_eq_ok_iff, reduceCtorEq, false_and, and_false,
      exists_false, false_or, true_and, all_isEnd_iff]
    constructor
    · intro accepted
      rcases accepted with ⟨_, ⟨stops, rfl⟩, rfl⟩
      exact ⟨stops, rfl⟩
    · intro derived
      rcases derived with ⟨stops, rfl⟩
      exact ⟨before, ⟨stops, rfl⟩, rfl⟩

end Stmt

/-- Programs, up to the end of the tokens. -/
def Language.composition : Language CompilationUnit where
  Form := Composition
  lexemes := Composition.lexemes
  tree := Composition.tree
  Fits budget composition :=
    ∀ form ∈ composition.sentences, (sentence maxNesting).Fits budget form
  Closed _ := Lexeme.Ends

namespace CompilationUnit

theorem reads_read : CompilationUnit.read.Reads .composition := by
  have another :=
    Stmt.readsOn_another?.many (Stmt.lexemes_ne_nil _) (Stmt.closed_of_sentence _)
  intro before result after
  simp only [CompilationUnit.read, Stmt.readAll, bind_eq_ok_iff,
    Declaration.reads_readAll.iff, Stmt.reads_read.iff, another.iff, pure_eq_ok_iff]
  constructor
  · intro accepted
    rcases accepted with
      ⟨_, _, ⟨sameLines, lines, rfl, _, spellsLines, _⟩, _, _,
        ⟨_, _, ⟨sameFirst, first, rfl, fitsFirst, spellsFirst, _⟩, _, _,
          ⟨same, others, rfl, fits, spells, ends, _⟩, rfl, rfl⟩, rfl, rfl⟩
    rw [sameFirst, sameLines] at fits
    rw [sameLines] at fitsFirst
    refine ⟨same.trans (sameFirst.trans sameLines), ⟨lines, first, others⟩, rfl,
      ?_, ?_, ends⟩
    · exact List.forall_mem_cons.2 ⟨fitsFirst, fits⟩
    · exact Spells.append_iff.2 ⟨_, spellsLines, Spells.append_iff.2 ⟨_, spellsFirst,
        Language.spells_many_nil_iff.1 spells⟩⟩
  · intro derived
    rcases derived with ⟨same, composition, rfl, fits, spells, ends⟩
    obtain ⟨lines, first, others⟩ := composition
    obtain ⟨fitsFirst, fitsOthers⟩ := List.forall_mem_cons.1 fits
    obtain ⟨behindLines, spellsLines, spells⟩ := Spells.append_iff.1 spells
    obtain ⟨behindFirst, spellsFirst, spellsRest⟩ := Spells.append_iff.1 spells
    have spellsOthers :
        Spells (others.flatMap Sentence.lexemes) behindFirst after.rest := spellsRest
    have afterLines : Cursor.next? ⟨behindLines, before.budget⟩ = some first.opening :=
      spellsFirst.map_lexeme_head?.trans (first.head?_lexemes _)
    have afterFirst :
        Cursor.next? ⟨behindFirst, before.budget⟩ ≠ some (.keyword "else") := by
      rw [Cursor.next?, spellsOthers.map_lexeme_head?]
      cases others with
      | nil =>
          rw [List.flatMap_nil, List.nil_append, List.head?_map]
          exact ends.ne (by simp)
      | cons second others =>
          rw [List.flatMap_cons, List.append_assoc, second.head?_lexemes, ne_eq,
            Option.some.injEq]
          exact second.opening_ne_else
    refine ⟨lines.flatMap Line.tree, ⟨behindLines, before.budget⟩,
      ⟨rfl, lines, rfl, trivial, spellsLines, ?_⟩, _, after,
      ⟨first.tree, ⟨behindFirst, before.budget⟩, ⟨rfl, first, rfl, fitsFirst,
          spellsFirst, fun _ => afterFirst⟩, _, after, ⟨same, others, rfl, fitsOthers,
          Language.spells_many_nil_iff.2 spellsOthers, ends, ?_⟩, rfl, rfl⟩, rfl, rfl⟩
    · intro type
      rw [afterLines, ne_eq, Option.some.injEq]
      exact first.opening_ne_type (by cases type <;> simp [TypeTag.keyword])
    · intro last _ _
      exact ends.ne (by simp)

/-- Tokens form a program if and only if they spell a composition that
the limits allow. -/
theorem ofTokens?_eq_ok_iff {tokens : List Token} {unit : CompilationUnit} :
    ofTokens? tokens = .ok unit ↔
    ∃ (composition : Composition) (rest : List Token), composition.tree = unit ∧
      Language.composition.Fits Budget.unused composition ∧
      Spells composition.lexemes tokens rest ∧
      Lexeme.Ends (rest.head?.map Token.lexeme) := by
  rw [ofTokens?]
  constructor
  · intro forms
    cases reads : CompilationUnit.read ⟨tokens, Budget.unused⟩ with
    | error problem cursor =>
        rw [reads] at forms
        contradiction
    | ok result after =>
        rw [reads] at forms
        obtain rfl := Except.ok.inj forms
        obtain ⟨_, composition, tree, fits, spells, ends⟩ := reads_read.iff.1 reads
        exact ⟨composition, after.rest, tree, fits, spells, ends⟩
  · intro accepted
    rcases accepted with ⟨composition, rest, tree, fits, spells, ends⟩
    have reads := reads_read.iff.2
      (show Language.composition.Spans ⟨tokens, Budget.unused⟩ unit
        ⟨rest, Budget.unused⟩ from ⟨rfl, composition, tree, fits, spells, ends⟩)
    rw [reads]

end CompilationUnit

end StackCompiler
