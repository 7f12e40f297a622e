import StackCompiler.Proofs.Grammar.Composition

/-!
# Every program can be grouped by the nearest conditional

Whatever is written as sentences can be derived such that every `else` belongs
to the nearest conditional before it that has none. An `else` behind a sentence
that ends openly is taken over by a conditional at the end of that sentence.
-/

namespace StackCompiler

namespace Sentence

/-- An alternative behind a sentence that ends openly belongs to the last open
conditional in it. -/
theorem exists_attached {alternative : Sentence}
    (nearestElse : alternative.tree.ElseNearest) :
    (sentence : Sentence) → sentence.tree.ElseNearest → sentence.tree.EndsOpen →
    ∃ attached : Sentence, attached.lexemes =
        sentence.lexemes ++ .keyword "else" :: alternative.lexemes ∧
      attached.tree.ElseNearest
  | ifThen condition consequence, nearest, _ => by
      rw [tree, Stmt.ElseNearest] at nearest
      by_cases endsOpen : consequence.tree.EndsOpen
      next =>
        rcases exists_attached nearestElse consequence nearest endsOpen with
          ⟨attached, written, nearestInside⟩
        refine ⟨ifThen condition attached, ?_, ?_⟩
        · simp [lexemes, written]
        · rwa [tree, Stmt.ElseNearest]
      next =>
        refine ⟨ifElse condition consequence alternative, ?_, ?_⟩
        · simp [lexemes]
        · rw [tree, Stmt.ElseNearest]
          exact ⟨endsOpen, nearest, nearestElse⟩
  | ifElse condition consequence other, nearest, endsOpen => by
      rw [tree, Stmt.ElseNearest] at nearest
      rcases nearest with ⟨notOpen, nearestInside, nearestOther⟩
      rcases exists_attached nearestElse other nearestOther endsOpen with
        ⟨attached, written, nearestBehind⟩
      refine ⟨ifElse condition consequence attached, ?_, ?_⟩
      · simp [lexemes, written]
      · rw [tree, Stmt.ElseNearest]
        exact ⟨notOpen, nearestInside, nearestBehind⟩
  | loop condition body, nearest, endsOpen => by
      rw [tree, Stmt.ElseNearest] at nearest
      rcases exists_attached nearestElse body nearest endsOpen with
        ⟨attached, written, nearestInside⟩
      refine ⟨loop condition attached, ?_, ?_⟩
      · simp [lexemes, written]
      · rwa [tree, Stmt.ElseNearest]
  | block _, _, endsOpen | print _, _, endsOpen | assign _ _, _, endsOpen => by
      rw [tree] at endsOpen
      exact endsOpen.elim

mutual

/-- What is written as a sentence is written as one in which every `else`
belongs to the nearest conditional. -/
theorem exists_nearest :
    (sentence : Sentence) →
    ∃ regrouped : Sentence, regrouped.lexemes = sentence.lexemes ∧
      regrouped.tree.ElseNearest
  | block body => by
      rcases exists_nearestAll body with ⟨regrouped, written, nearest⟩
      refine ⟨block regrouped, ?_, ?_⟩
      · rw [lexemes, lexemes, written]
      · rwa [tree, Stmt.ElseNearest]
  | ifThen condition consequence => by
      rcases consequence.exists_nearest with ⟨regrouped, written, nearest⟩
      refine ⟨ifThen condition regrouped, ?_, ?_⟩
      · rw [lexemes, lexemes, written]
      · rwa [tree, Stmt.ElseNearest]
  | ifElse condition consequence alternative => by
      rcases consequence.exists_nearest with ⟨regrouped, written, nearest⟩
      rcases alternative.exists_nearest with ⟨regroupedElse, writtenElse, nearestElse⟩
      by_cases endsOpen : regrouped.tree.EndsOpen
      next =>
        rcases exists_attached nearestElse regrouped nearest endsOpen with
          ⟨attached, writtenAll, nearestAll⟩
        refine ⟨ifThen condition attached, ?_, ?_⟩
        · simp [lexemes, writtenAll, written, writtenElse]
        · rwa [tree, Stmt.ElseNearest]
      next =>
        refine ⟨ifElse condition regrouped regroupedElse, ?_, ?_⟩
        · rw [lexemes, lexemes, written, writtenElse]
        · rw [tree, Stmt.ElseNearest]
          exact ⟨endsOpen, nearest, nearestElse⟩
  | loop condition body => by
      rcases body.exists_nearest with ⟨regrouped, written, nearest⟩
      refine ⟨loop condition regrouped, ?_, ?_⟩
      · rw [lexemes, lexemes, written]
      · rwa [tree, Stmt.ElseNearest]
  | print value => ⟨print value, rfl, by rw [tree]; trivial⟩
  | assign target value => ⟨assign target value, rfl, by rw [tree]; trivial⟩

theorem exists_nearestAll : (sentences : List Sentence) →
    ∃ regrouped : List Sentence, lexemesAll regrouped = lexemesAll sentences ∧
      Stmt.ElseNearestAll (treeAll regrouped)
  | [] => ⟨[], rfl, trivial⟩
  | first :: rest => by
      rcases first.exists_nearest with ⟨regrouped, written, nearest⟩
      rcases exists_nearestAll rest with ⟨regroupedRest, writtenRest, nearestRest⟩
      refine ⟨regrouped :: regroupedRest, ?_, ?_⟩
      · rw [lexemesAll, lexemesAll, written, writtenRest]
      · exact ⟨nearest, nearestRest⟩

end

end Sentence

theorem Composition.exists_nearest (composition : Composition) :
    ∃ regrouped : Composition, regrouped.lexemes = composition.lexemes ∧
      Stmt.ElseNearestAll regrouped.tree.body := by
  rcases composition.first.exists_nearest with ⟨first, written, nearest⟩
  rcases Sentence.exists_nearestAll composition.others with
    ⟨others, writtenOthers, nearestOthers⟩
  refine ⟨⟨composition.lines, first, others⟩, ?_, ?_⟩
  · rw [Sentence.lexemesAll_eq_flatMap, Sentence.lexemesAll_eq_flatMap] at writtenOthers
    simp only [lexemes, sentences, List.flatMap_cons, written, writtenOthers]
  · rw [Sentence.treeAll_eq_map] at nearestOthers
    exact ⟨nearest, nearestOthers⟩

end StackCompiler
