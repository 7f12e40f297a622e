import StackCompiler.Code.Instruction
import StackCompiler.Proofs.Text.Decimal
import StackCompiler.Proofs.Token.Numerals

/-!
# Declarations with dimensions of any size

Lines of declarations as they are written, whether or not their dimensions are
numbers of 64 bits. What such a line declares has the dimensions that are
written, and in its written form these stand without leading zeros
(`LooseLine.map_render_declarations`).
-/

namespace StackCompiler

/-- Whether a lexeme is an integer literal for a number that is too large for a
signed word of 64 bits. -/
def Lexeme.isTooLarge (lexeme : Lexeme) : Bool :=
  lexeme.kind == .integer &&
    decide (Text.Decimal.maxWord < Text.Decimal.value lexeme.text.toList)

/-- Zero is not too large. -/
theorem Lexeme.isTooLarge_zeroed (lexeme : Lexeme) :
    lexeme.zeroed.isTooLarge = false := by
  have zero : Lexeme.isTooLarge (.integer "0") = false := by decide +kernel
  obtain ⟨kind, text⟩ := lexeme
  cases kind with
  | integer => exact zero
  | _ => rfl

/-- An integer literal of any length. -/
structure Numeral where
  text : String
  isNumeral : Piece.IsNumeral text.toList

namespace Numeral

/-- The number that a numeral stands for. -/
def value (numeral : Numeral) : Nat := Text.Decimal.value numeral.text.toList

/-- A numeral without leading zeros. -/
def trimmed (numeral : Numeral) : String :=
  String.ofList (Text.Decimal.trimZeros numeral.text.toList)

/-- A numeral in brackets. -/
def lexemes (numeral : Numeral) : List Lexeme :=
  [.mark "[", .integer numeral.text, .mark "]"]

/-- The numeral `0`. -/
def zero : Numeral := ⟨"0", Piece.isNumeral_zero⟩

theorem toString_value (numeral : Numeral) :
    toString (numeral.value : Int) = numeral.trimmed := by
  rw [← String.toList_inj, Text.Decimal.toList_toString, trimmed, String.toList_ofList]
  exact Text.Decimal.toDigits_value numeral.isNumeral.ne_nil numeral.isNumeral.isDigit

theorem readWord_text (numeral : Numeral) : Text.Decimal.readWord numeral.text.toList =
    if numeral.value ≤ Text.Decimal.maxWord then .ok ↑numeral.value
    else .error .tooLarge :=
  Text.Decimal.readWord_numeral numeral.isNumeral.ne_nil numeral.isNumeral.isDigit

theorem forall_small_iff (numeral : Numeral) :
    (∀ lexeme ∈ numeral.lexemes, lexeme.isTooLarge = false) ↔
    numeral.value ≤ Text.Decimal.maxWord := by
  simp [lexemes, Lexeme.isTooLarge, value]

end Numeral

/-- A name that is declared, with dimensions of any size. -/
structure LooseDeclarator where
  name : String
  dims : List Numeral

namespace LooseDeclarator

/-- The name, and behind it the dimensions. -/
def lexemes (declarator : LooseDeclarator) : List Lexeme :=
  .identifier declarator.name :: declarator.dims.flatMap Numeral.lexemes

/-- What is declared with a type, if the dimensions are the numbers that are written. -/
def declaration (type : TypeTag) (declarator : LooseDeclarator) : Declaration :=
  ⟨type, declarator.name, declarator.dims.map fun dim => dim.value⟩

/-- The written form of what is declared with a type. -/
def render (type : TypeTag) (declarator : LooseDeclarator) : String :=
  type.render ++ " " ++ declarator.name ++ String.join
      (declarator.dims.map fun dim => "[" ++ dim.trimmed ++ "]")

/-- The same name with zeros for its dimensions. -/
def zeroed (declarator : LooseDeclarator) : LooseDeclarator :=
  { declarator with dims := declarator.dims.map fun _ => .zero }

/-- A name with its dimensions holds a number that is too large only where
a dimension is. -/
theorem forall_small_iff (declarator : LooseDeclarator) :
    (∀ lexeme ∈ declarator.lexemes, lexeme.isTooLarge = false) ↔
      ∀ dim ∈ declarator.dims, dim.value ≤ Text.Decimal.maxWord := by
  have name : (Lexeme.identifier declarator.name).isTooLarge = false := rfl
  rw [lexemes, List.forall_mem_cons, List.forall_mem_flatMap, and_iff_right name]
  simp only [Numeral.forall_small_iff]

theorem lexemes_zeroed (declarator : LooseDeclarator) :
    declarator.zeroed.lexemes = declarator.lexemes.map Lexeme.zeroed := by
  rw [lexemes, lexemes, List.map_cons, List.map_flatMap, zeroed, List.flatMap_map]
  rfl

/-- In the written form of a declaration, dimensions are written
without leading zeros. -/
theorem render_declaration (type : TypeTag) (declarator : LooseDeclarator) :
    (declarator.declaration type).render = declarator.render type := by
  simp only [Declaration.render, declaration, render, List.map_map, Function.comp_def,
    Numeral.toString_value]
  rfl

end LooseDeclarator

/-- A line of declarations for one type, with dimensions of any size. -/
structure LooseLine where
  type : TypeTag
  first : LooseDeclarator
  others : List LooseDeclarator

namespace LooseLine

/-- All dimensions of a line. -/
def dims (line : LooseLine) : List Numeral :=
  (line.first :: line.others).flatMap LooseDeclarator.dims

/-- The type, and behind it the declarators, with commas between them. -/
def lexemes (line : LooseLine) : List Lexeme :=
  .keyword line.type.keyword :: (line.first.lexemes ++
    (line.others.flatMap (fun other => .mark "," :: other.lexemes) ++ [.mark ";"]))

/-- What is declared, if the dimensions are the numbers that are written. -/
def declarations (line : LooseLine) : List Declaration :=
  (line.first :: line.others).map (LooseDeclarator.declaration line.type)

/-- The written form of what is declared. -/
def render (line : LooseLine) : List String :=
  (line.first :: line.others).map (LooseDeclarator.render line.type)

/-- The same line with zeros for all dimensions. -/
def zeroed (line : LooseLine) : LooseLine :=
  ⟨line.type, line.first.zeroed, line.others.map LooseDeclarator.zeroed⟩

theorem forall_small_iff (line : LooseLine) :
    (∀ lexeme ∈ line.lexemes, lexeme.isTooLarge = false) ↔
      ∀ dim ∈ line.dims, dim.value ≤ Text.Decimal.maxWord := by
  simp only [lexemes, dims, List.forall_mem_cons, List.forall_mem_append,
    List.forall_mem_flatMap, List.not_mem_nil, LooseDeclarator.forall_small_iff]
  simp [Lexeme.isTooLarge]

/-- With zeros for all dimensions, a line is written with zeros for all
integer literals. -/
theorem lexemes_zeroed (line : LooseLine) :
    line.zeroed.lexemes = line.lexemes.map Lexeme.zeroed := by
  simp only [lexemes, zeroed, List.map_cons, List.map_append, List.map_flatMap,
    List.flatMap_map, LooseDeclarator.lexemes_zeroed]
  rfl

theorem map_render_declarations (line : LooseLine) :
    line.declarations.map Declaration.render = line.render := by
  simp only [declarations, render, List.map_map, Function.comp_def,
    LooseDeclarator.render_declaration]

end LooseLine

end StackCompiler
