import StackCompiler.Proofs.Expr.Forms
import StackCompiler.Proofs.Reading.Sources

/-!
# Well-formed programs

A program is well-formed if its names and numbers fit into the lexical grammar,
its dimensions are numbers of 64 bits, it has a statement, and every `else`
belongs to the nearest conditional. Whatever is read is well-formed
(`CompilationUnit.wellFormed_of_readUnit`).
-/

namespace StackCompiler

/-! ### Texts that fit -/

/-- Whether the text in a subscript fits into the lexical grammar. -/
def Subscript.Fits : Subscript → Prop
  | literal text =>
      SignedNumeral (fun numeral => Piece.Fits (.lexeme .integer numeral)) text
  | identifier name => (Lexeme.identifier name).Fits

/-- Whether the texts in a designator fit into the lexical grammar. -/
def Designator.Fits (designator : Designator) : Prop :=
  (Lexeme.identifier designator.name).Fits ∧
    ∀ subscript ∈ designator.subscripts, subscript.Fits

/-- Whether the texts in an expression fit into the lexical grammar. -/
def Expr.Fits : Expr → Prop
  | number text =>
    SignedNumeral (fun numeral =>
      Piece.Fits (.lexeme .integer numeral) ∨ Piece.Fits (.lexeme .double numeral)) text
  | designator target => target.Fits
  | unary _ operand => operand.Fits
  | binary _ left right => left.Fits ∧ right.Fits

namespace Stmt

mutual

/-- Whether the texts in a statement fit into the lexical grammar. -/
def Fits : Stmt → Prop
  | block body => FitsAll body
  | ifThen condition consequence => condition.Fits ∧ consequence.Fits
  | ifElse condition consequence alternative =>
      condition.Fits ∧ consequence.Fits ∧ alternative.Fits
  | loop condition body => condition.Fits ∧ body.Fits
  | print value => value.Fits
  | assign target value => target.Fits ∧ value.Fits

/-- Whether the texts in some statements fit into the lexical grammar. -/
def FitsAll : List Stmt → Prop
  | [] => True
  | first :: rest => first.Fits ∧ FitsAll rest

end

end Stmt

/-- Whether the name in a declaration fits into the lexical grammar, and the
dimensions are numbers of 64 bits without a sign. -/
def Declaration.Fits (declaration : Declaration) : Prop :=
  (Lexeme.identifier declaration.name).Fits ∧ ∀ dim ∈ declaration.dims, 0 ≤ dim ∧
      dim ≤ Text.Decimal.maxWord

/-! ### What is written with lexemes that fit -/

theorem Index.fits_tree {index : Index} (fits : ∀ lexeme ∈ index.lexemes, lexeme.Fits) :
    index.tree.Fits := by
  cases index with
  | literal text =>
      exact ⟨text.toList, fits (.integer text) (by simp [lexemes, content]), .inl rfl⟩
  | negative text =>
      refine ⟨text.toList, fits (.integer text) (by simp [lexemes, content]), .inr ?_⟩
      simp
  | identifier name => exact fits (.identifier name) (by simp [lexemes, content])

theorem Target.fits_tree {target : Target}
    (fits : ∀ lexeme ∈ target.lexemes, lexeme.Fits) : target.tree.Fits := by
  rcases List.forall_mem_cons.1 fits with ⟨fitsName, fitsIndices⟩
  refine ⟨fitsName,
    List.forall_mem_map.2 fun index isIndex => Index.fits_tree fun lexeme found => ?_⟩
  exact fitsIndices lexeme (List.mem_flatMap_of_mem isIndex found)

theorem Literal.fits_text {literal : Literal} (fits : literal.lexeme.Fits) :
    Piece.Fits (.lexeme .integer literal.text.toList) ∨
    Piece.Fits (.lexeme .double literal.text.toList) := by
  cases literal with
  | integer text => exact .inl fits
  | double text => exact .inr fits

theorem Phrase.fits_tree {rank : Rank} {phrase : Phrase rank}
    (fits : ∀ lexeme ∈ phrase.lexemes, lexeme.Fits) : phrase.tree.Fits := by
  induction phrase with
  | number literal =>
      exact ⟨_,
        Literal.fits_text (fits literal.lexeme (List.mem_singleton_self _)), .inl rfl⟩
  | designator target => exact Target.fits_tree fits
  | prefixed operator operand ih =>
      have fitsOperand := (List.forall_mem_cons.1 fits).2
      cases folded : folded? operator operand with
      | none =>
          rw [tree_of_not_folded folded]
          exact ih fitsOperand
      | some literal =>
          cases operator with
          | not => contradiction
          | negate =>
              rcases eq_number_of_literal? folded with rfl
              refine ⟨_, Literal.fits_text
                  (fitsOperand literal.lexeme (List.mem_singleton_self _)), .inr ?_⟩
              simp
  | parens content ih =>
      rw [lexemes, List.forall_mem_cons, List.forall_mem_append] at fits
      exact ih fits.2.1
  | single only ih => exact ih fits
  | link grouped left operator ofLevel right ihLeft ihRight
  | compare left operator ofLevel right ihLeft ihRight =>
      rw [lexemes, List.forall_mem_append, List.forall_mem_cons] at fits
      exact ⟨ihLeft fits.1, ihRight fits.2.2⟩

theorem Phrase.fits_tree_of_enclosed {condition : Phrase .whole}
    (fits : ∀ lexeme ∈ condition.enclosed, lexeme.Fits) : condition.tree.Fits := by
  rw [enclosed, List.forall_mem_cons, List.forall_mem_append] at fits
  exact fits_tree fits.2.1

namespace Sentence

mutual

theorem fits_tree :
    (sentence : Sentence) → (∀ lexeme ∈ sentence.lexemes, lexeme.Fits) →
    sentence.tree.Fits
  | block body, fits => by
      rw [lexemes, List.forall_mem_cons, List.forall_mem_append] at fits
      exact fitsAll_treeAll body fits.2.1
  | ifThen condition consequence, fits => by
      rw [lexemes, List.forall_mem_cons, List.forall_mem_append] at fits
      exact ⟨Phrase.fits_tree_of_enclosed fits.2.1, fits_tree consequence fits.2.2⟩
  | ifElse condition consequence alternative, fits => by
      rw [lexemes, List.forall_mem_cons, List.forall_mem_append, List.forall_mem_append,
        List.forall_mem_cons] at fits
      rcases fits with ⟨_, fitsCondition, fitsConsequence, _, fitsAlternative⟩
      exact ⟨Phrase.fits_tree_of_enclosed fitsCondition,
        fits_tree consequence fitsConsequence, fits_tree alternative fitsAlternative⟩
  | loop condition body, fits => by
      rw [lexemes, List.forall_mem_cons, List.forall_mem_append] at fits
      exact ⟨Phrase.fits_tree_of_enclosed fits.2.1, fits_tree body fits.2.2⟩
  | print value, fits => by
      rw [lexemes, List.forall_mem_cons, List.forall_mem_append] at fits
      exact Phrase.fits_tree fits.2.1
  | assign target value, fits => by
      rw [lexemes, List.forall_mem_append, List.forall_mem_cons, List.forall_mem_append]
        at fits
      exact ⟨Target.fits_tree fits.1, Phrase.fits_tree fits.2.2.1⟩

theorem fitsAll_treeAll :
    (sentences : List Sentence) → (∀ lexeme ∈ lexemesAll sentences, lexeme.Fits) →
    Stmt.FitsAll (treeAll sentences)
  | [], _ => trivial
  | first :: rest, fits => by
      rw [lexemesAll, List.forall_mem_append] at fits
      exact ⟨fits_tree first fits.1, fitsAll_treeAll rest fits.2⟩

end

end Sentence

/-- What is written with digits only denotes a number without a sign. -/
theorem Text.Decimal.Denotes.bounds {digits : List Char} {value : Int}
    (denotes : Denotes digits value) (allDigits : ∀ char ∈ digits, char.isDigit) :
    0 ≤ value ∧ value ≤ maxWord := by
  cases denotes with
  | unsigned _ _ small => exact ⟨Int.natCast_nonneg _, Int.ofNat_le.2 small⟩
  | positive => exact absurd (allDigits '+' List.mem_cons_self) (by decide)
  | negative => exact absurd (allDigits '-' List.mem_cons_self) (by decide)

theorem Extent.bounds {extent : Extent} (fits : (Lexeme.integer extent.text).Fits) :
    0 ≤ extent.value ∧ extent.value ≤ Text.Decimal.maxWord := by
  apply extent.denotes.bounds
  cases fits with
  | integer isNumeral => exact isNumeral.isDigit

theorem Declarator.fits_tree {declarator : Declarator} (type : TypeTag)
    (fits : ∀ lexeme ∈ declarator.lexemes, lexeme.Fits) :
    (declarator.tree type).Fits := by
  rcases List.forall_mem_cons.1 fits with ⟨fitsName, fitsExtents⟩
  refine ⟨fitsName, List.forall_mem_map.2 fun extent isExtent => Extent.bounds ?_⟩
  exact fitsExtents _ (List.mem_flatMap_of_mem isExtent (by simp [Extent.lexemes]))

theorem Line.fits_tree {line : Line} (fits : ∀ lexeme ∈ line.lexemes, lexeme.Fits) :
    ∀ declaration ∈ line.tree, declaration.Fits := by
  rw [lexemes, List.forall_mem_cons, List.forall_mem_append, List.forall_mem_append]
    at fits
  rcases fits with ⟨_, fitsFirst, fitsOthers, _⟩
  refine List.forall_mem_cons.2
    ⟨Declarator.fits_tree _ fitsFirst, List.forall_mem_map.2 fun other isOther => ?_⟩
  exact Declarator.fits_tree _ fun lexeme found =>
    fitsOthers lexeme (List.mem_flatMap_of_mem isOther (List.mem_cons_of_mem _ found))

/-! ### Programs that are read -/

/-- Whether a program can have been read. -/
structure CompilationUnit.WellFormed (unit : CompilationUnit) : Prop where
  some_body : unit.body ≠ []
  declarations_fit : ∀ declaration ∈ unit.declarations, declaration.Fits
  body_fits : Stmt.FitsAll unit.body
  else_nearest : Stmt.ElseNearestAll unit.body

theorem Composition.wellFormed_tree {composition : Composition}
    (fits : ∀ lexeme ∈ composition.lexemes, lexeme.Fits)
    (nearest : Stmt.ElseNearestAll composition.tree.body) :
    composition.tree.WellFormed := by
  rw [lexemes, List.forall_mem_append] at fits
  refine ⟨List.cons_ne_nil _ _, ?_, ?_, nearest⟩
  · intro declaration found
    rcases List.mem_flatMap.1 found with ⟨line, isLine, found⟩
    exact Line.fits_tree (fun lexeme isPart =>
        fits.1 lexeme (List.mem_flatMap_of_mem isLine isPart)) _ found
  · rw [tree, ← Sentence.treeAll_eq_map]
    apply Sentence.fitsAll_treeAll
    rw [Sentence.lexemesAll_eq_flatMap]
    exact fits.2

/-- Whatever is read in either mode is well-formed. -/
theorem CompilationUnit.wellFormed_of_readUnit {source : String} {strict : Bool}
    {unit : CompilationUnit} {skipped : List SkippedChar}
    (reads : (readUnit source strict).outcome = .ok (unit, skipped)) :
    unit.WellFormed := by
  rcases exists_composition_of_readUnit reads with ⟨composition, rfl, fits, written⟩
  refine Composition.wellFormed_tree ?_ (Composition.fits_unused_iff.1 fits).1
  rw [written, Lexed.lexemes_ofSource]
  exact fun lexeme found => Lexeme.fits_of_mem_pieces found

end StackCompiler
