import StackCompiler.CompilationUnit.Basic
import StackCompiler.Proofs.Grammar.Sentence
import StackCompiler.Proofs.Text.Decimal

/-!
# The grammar of programs

A composition is a derivation of a program: lines of declarations, then
one sentence or more. The dimensions of arrays are the only numbers
whose value matters.
-/

namespace StackCompiler

/-- The dimension of an array as it is written, a number of 64 bits. -/
structure Extent where
  text : String
  value : Int
  denotes : Text.Decimal.Denotes text.toList value

/-- A dimension in brackets. -/
def Extent.lexemes (extent : Extent) : List Lexeme :=
  [.mark "[", .integer extent.text, .mark "]"]

/-- A name that is declared, with the dimensions of an array if it has any. -/
structure Declarator where
  name : String
  extents : List Extent

namespace Declarator

/-- The name, and behind it the dimensions. -/
def lexemes (declarator : Declarator) : List Lexeme :=
  .identifier declarator.name :: declarator.extents.flatMap Extent.lexemes

/-- The declaration that a declarator behind a type derives. -/
def tree (type : TypeTag) (declarator : Declarator) : Declaration :=
  ⟨type, declarator.name, declarator.extents.map Extent.value⟩

end Declarator

/-- A line of declarations for one type. -/
structure Line where
  type : TypeTag
  first : Declarator
  others : List Declarator

namespace Line

/-- The type, and behind it the declarators, with commas between them. -/
def lexemes (line : Line) : List Lexeme :=
  .keyword line.type.keyword :: (line.first.lexemes ++
    (line.others.flatMap (fun other => .mark "," :: other.lexemes) ++ [.mark ";"]))

/-- The declarations that a line derives. -/
def tree (line : Line) : List Declaration :=
  line.first.tree line.type :: line.others.map (Declarator.tree line.type)

end Line

/-- The derivations of programs. -/
structure Composition where
  lines : List Line
  first : Sentence
  others : List Sentence

namespace Composition

/-- The sentences of a composition, of which there is at least one. -/
def sentences (composition : Composition) : List Sentence :=
  composition.first :: composition.others

/-- The lines, and behind them the sentences. -/
def lexemes (composition : Composition) : List Lexeme :=
  composition.lines.flatMap Line.lexemes ++
    composition.sentences.flatMap Sentence.lexemes

/-- The program that a composition derives. -/
def tree (composition : Composition) : CompilationUnit where
  declarations := composition.lines.flatMap Line.tree
  body := composition.sentences.map Sentence.tree

end Composition

/-! ### How compositions end -/

/-- A sentence ends with a punctuation mark. -/
theorem Sentence.exists_last (sentence : Sentence) :
    ∃ initial symbol, sentence.lexemes = initial ++ [.mark symbol] := by
  cases sentence with
  | block body =>
      refine ⟨.mark Stmt.openBrace :: lexemesAll body, Stmt.closeBrace, ?_⟩
      rw [lexemes]
      rfl
  | ifThen condition consequence =>
      obtain ⟨initial, symbol, last⟩ := consequence.exists_last
      exact ⟨.keyword "if" :: (condition.enclosed ++ initial), symbol, by
          simp [lexemes, last]⟩
  | ifElse condition consequence alternative =>
      obtain ⟨initial, symbol, last⟩ := alternative.exists_last
      exact ⟨.keyword "if" ::
          (condition.enclosed ++ (consequence.lexemes ++ .keyword "else" :: initial)),
        symbol, by simp [lexemes, last]⟩
  | loop condition body =>
      obtain ⟨initial, symbol, last⟩ := body.exists_last
      exact ⟨.keyword "while" :: (condition.enclosed ++ initial), symbol, by
          simp [lexemes, last]⟩
  | print value => exact ⟨.keyword "print" :: value.lexemes, ";", by simp [lexemes]⟩
  | assign target value =>
      exact ⟨target.lexemes ++ .mark "=" :: value.lexemes, ";", by simp [lexemes]⟩

theorem Composition.exists_last (composition : Composition) :
    ∃ initial symbol, composition.lexemes = initial ++ [.mark symbol] := by
  obtain ⟨sentences, final, split⟩ :=
    List.eq_nil_or_concat composition.sentences |>.resolve_left
    (List.cons_ne_nil _ _)
  obtain ⟨initial, symbol, last⟩ := final.exists_last
  refine ⟨composition.lines.flatMap Line.lexemes ++
      (sentences.flatMap Sentence.lexemes ++ initial), symbol, ?_⟩
  rw [lexemes, split, List.concat_eq_append, List.flatMap_append,
    List.flatMap_singleton, last]
  simp only [List.append_assoc]

end StackCompiler
