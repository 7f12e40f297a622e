import StackCompiler.Proofs.Grammar.Phrase
import StackCompiler.Stmt.Parser

/-!
# The grammar of statements

A sentence is a derivation of a statement. The grammar leaves open which
conditional an `else` belongs to: it belongs to the nearest one before it that
has none, so a conditional without an alternative cannot be the end of what
stands between another condition and its `else`.
-/

namespace StackCompiler

/-- The derivations of statements. -/
inductive Sentence where
  | block (body : List Sentence)
  | ifThen (condition : Phrase .whole) (consequence : Sentence)
  | ifElse (condition : Phrase .whole) (consequence alternative : Sentence)
  | loop (condition : Phrase .whole) (body : Sentence)
  | print (value : Phrase .whole)
  | assign (target : Target) (value : Phrase .whole)

/-- A phrase in parentheses, as a condition is written. -/
def Phrase.enclosed (condition : Phrase .whole) : List Lexeme :=
  .mark "(" :: (condition.lexemes ++ [.mark ")"])

namespace Sentence

mutual

/-- The lexemes of a sentence, from left to right. -/
def lexemes : Sentence → List Lexeme
  | block body => .mark Stmt.openBrace :: (lexemesAll body ++ [.mark Stmt.closeBrace])
  | ifThen condition consequence =>
      .keyword "if" :: (condition.enclosed ++ consequence.lexemes)
  | ifElse condition consequence alternative =>
    .keyword "if" ::
      (condition.enclosed ++
        (consequence.lexemes ++ .keyword "else" :: alternative.lexemes))
  | loop condition body => .keyword "while" :: (condition.enclosed ++ body.lexemes)
  | print value => .keyword "print" :: (value.lexemes ++ [.mark ";"])
  | assign target value => target.lexemes ++ .mark "=" :: (value.lexemes ++ [.mark ";"])

/-- The lexemes of sentences, one after the other. -/
def lexemesAll : List Sentence → List Lexeme
  | [] => []
  | first :: rest => first.lexemes ++ lexemesAll rest

end

mutual

/-- The statement that a sentence derives. -/
def tree : Sentence → Stmt
  | block body => .block (treeAll body)
  | ifThen condition consequence => .ifThen condition.tree consequence.tree
  | ifElse condition consequence alternative =>
    .ifElse condition.tree consequence.tree alternative.tree
  | loop condition body => .loop condition.tree body.tree
  | print value => .print value.tree
  | assign target value => .assign target.tree value.tree

/-- The statements that sentences derive. -/
def treeAll : List Sentence → List Stmt
  | [] => []
  | first :: rest => first.tree :: treeAll rest

end

mutual

/-- How many statements and operands are open within each other. -/
def nest : Sentence → Nat
  | block body => nestAll body + 1
  | ifThen condition consequence => max condition.nest consequence.nest + 1
  | ifElse condition consequence alternative =>
    max condition.nest (max consequence.nest alternative.nest) + 1
  | loop condition body => max condition.nest body.nest + 1
  | print value => value.nest + 1
  | assign _ value => value.nest + 1

/-- How deeply the deepest of some sentences nests. -/
def nestAll : List Sentence → Nat
  | [] => 0
  | first :: rest => max first.nest (nestAll rest)

end

mutual

/-- How many operators link operands at the same time in some expression, at most. -/
def peak : Sentence → Nat
  | block body => peakAll body
  | ifThen condition consequence => max condition.peak consequence.peak
  | ifElse condition consequence alternative =>
    max condition.peak (max consequence.peak alternative.peak)
  | loop condition body => max condition.peak body.peak
  | print value => value.peak
  | assign _ value => value.peak

/-- How many operators link operands at the same time in some of the
sentences, at most. -/
def peakAll : List Sentence → Nat
  | [] => 0
  | first :: rest => max first.peak (peakAll rest)

end

mutual

/-- How many statements are open within each other, whatever their expressions hold. -/
def height : Sentence → Nat
  | block body => heightAll body + 1
  | ifThen _ consequence => consequence.height + 1
  | ifElse _ consequence alternative => max consequence.height alternative.height + 1
  | loop _ body => body.height + 1
  | print _ => 1
  | assign _ _ => 1

/-- How high the highest of some sentences is. -/
def heightAll : List Sentence → Nat
  | [] => 0
  | first :: rest => max first.height (heightAll rest)

end

mutual

theorem height_le_nest : (sentence : Sentence) → sentence.height ≤ sentence.nest
  | block body => by
      have inner := heightAll_le_nestAll body
      rw [height, nest]
      omega
  | ifThen condition consequence => by
      have inner := consequence.height_le_nest
      rw [height, nest]
      omega
  | ifElse condition consequence alternative => by
      have inner := consequence.height_le_nest
      have innerElse := alternative.height_le_nest
      rw [height, nest]
      omega
  | loop condition body => by
      have inner := body.height_le_nest
      rw [height, nest]
      omega
  | print value => by
      rw [height, nest]
      omega
  | assign target value => by
      rw [height, nest]
      omega

theorem heightAll_le_nestAll :
    (sentences : List Sentence) → heightAll sentences ≤ nestAll sentences
  | [] => Nat.le_refl _
  | first :: rest => by
      have inner := first.height_le_nest
      have innerRest := heightAll_le_nestAll rest
      rw [heightAll, nestAll]
      omega

end

theorem height_pos (sentence : Sentence) : 0 < sentence.height := by
  cases sentence <;> rw [height] <;> omega

theorem lexemesAll_eq_flatMap (sentences : List Sentence) :
    lexemesAll sentences = sentences.flatMap lexemes := by
  induction sentences with
  | nil => rfl
  | cons first rest ih => rw [lexemesAll, ih, List.flatMap_cons]

theorem treeAll_eq_map (sentences : List Sentence) :
    treeAll sentences = sentences.map tree := by
  induction sentences with
  | nil => rfl
  | cons first rest ih => rw [treeAll, ih, List.map_cons]

theorem tree_block (body : List Sentence) :
    (block body).tree = .block (body.map tree) := by
  rw [tree, treeAll_eq_map]

theorem spells_block_iff {body : List Sentence} {before after : List Token} :
    Spells (block body).lexemes before after ↔
      ∃ opened, Spells [.mark Stmt.openBrace] before opened ∧
        Spells (body.flatMap lexemes ++ [.mark Stmt.closeBrace]) opened after := by
  rw [lexemes, lexemesAll_eq_flatMap, Spells.uncons_iff]

theorem nest_pos (sentence : Sentence) : 0 < sentence.nest :=
  Nat.lt_of_lt_of_le sentence.height_pos sentence.height_le_nest

end Sentence

/-! ### The nearest conditional -/

namespace Stmt

/-- Whether an `else` behind a statement would belong to a conditional
at the end of it. -/
def EndsOpen : Stmt → Prop
  | ifThen _ _ => True
  | ifElse _ _ alternative => EndsOpen alternative
  | loop _ body => EndsOpen body
  | _ => False

mutual

/-- Whether every `else` belongs to the nearest conditional before it that has none. -/
def ElseNearest : Stmt → Prop
  | block body => ElseNearestAll body
  | ifThen _ consequence => ElseNearest consequence
  | ifElse _ consequence alternative =>
    ¬ EndsOpen consequence ∧ ElseNearest consequence ∧ ElseNearest alternative
  | loop _ body => ElseNearest body
  | _ => True

/-- Whether every `else` in some statements belongs to the nearest conditional. -/
def ElseNearestAll : List Stmt → Prop
  | [] => True
  | first :: rest => ElseNearest first ∧ ElseNearestAll rest

end

end Stmt

/-! ### How sentences begin -/

namespace Sentence

/-- The lexeme that a sentence begins with. -/
def opening : Sentence → Lexeme
  | block _ => .mark Stmt.openBrace
  | ifThen _ _ | ifElse _ _ _ => .keyword "if"
  | loop _ _ => .keyword "while"
  | print _ => .keyword "print"
  | assign target _ => .identifier target.name

theorem head?_lexemes (sentence : Sentence) (after : List Lexeme) :
    (sentence.lexemes ++ after).head? = some sentence.opening := by
  cases sentence <;> rw [lexemes] <;> rfl

theorem opening_ne_else (sentence : Sentence) : sentence.opening ≠ .keyword "else" := by
  cases sentence <;> simp [opening]

theorem opening_ne_type (sentence : Sentence) {word : String}
    (isType : word = "int" ∨ word = "double") : sentence.opening ≠ .keyword word := by
  rcases isType with rfl | rfl <;> cases sentence <;> simp [opening]

theorem opening_ne_closeBrace (sentence : Sentence) :
    sentence.opening ≠ .mark Stmt.closeBrace := by
  cases sentence <;> simp [opening, Stmt.openBrace, Stmt.closeBrace]

theorem kind_opening_ne_endOfInput (sentence : Sentence) :
    sentence.opening.kind ≠ .endOfInput := by
  cases sentence <;> simp [opening]

end Sentence

end StackCompiler
