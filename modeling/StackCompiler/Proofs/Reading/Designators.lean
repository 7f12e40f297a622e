import StackCompiler.Expr.Parser
import StackCompiler.Proofs.Grammar.Phrase
import StackCompiler.Proofs.Reading.Language

/-!
# Designators are read by the grammar

A designator takes nothing of the limits. It is at its end where no bracket follows.
-/

namespace StackCompiler

namespace Language

/-- What stands between the brackets of a subscript. -/
def content : Language Subscript where
  Form := Index
  lexemes := Index.content
  tree := Index.tree
  Fits _ _ := True
  Closed _ _ := True

/-- Subscripts in brackets. -/
def index : Language Subscript := { content with lexemes := Index.lexemes }

/-- Identifiers with their subscripts. -/
def target : Language Designator where
  Form := Target
  lexemes := Target.lexemes
  tree := Target.tree
  Fits _ _ := True
  Closed _ next := next ≠ some (.mark "[")

end Language

namespace Expr

open StackCompiler.Parser

theorem reads_subscript : subscript.Reads Language.content := by
  intro before result after
  simp only [subscript, bind_eq_ok_iff, Bool.exists_bool, Option.exists,
    Bool.false_eq_true, if_false, if_true, acceptPunctuator_eq_false_iff,
    acceptPunctuator_eq_true_iff, Token.integer?, Token.identifier?,
    takeIf?_textOf?_eq_some_iff, takeIf?_textOf?_eq_none_iff, take_textOf?_eq_ok_iff,
    pure_eq_ok_iff]
  constructor
  · intro accepted
    rcases accepted with
      ⟨_, ⟨_, rfl⟩,
        ⟨_, ⟨_, rfl⟩, name, _, ⟨same, spells⟩, rfl, rfl⟩ |
        ⟨text, _, ⟨same, spells⟩, rfl, rfl⟩⟩ |
      ⟨between, ⟨sameSign, spellsSign⟩, text, _, ⟨same, spells⟩, rfl, rfl⟩
    · exact ⟨same, .identifier name, rfl, trivial, spells, trivial⟩
    · exact ⟨same, .literal text, rfl, trivial, spells, trivial⟩
    · refine ⟨same.trans sameSign, .negative text, rfl, trivial, ?_, trivial⟩
      exact Spells.append_iff.2 ⟨_, spellsSign, spells⟩
  · intro derived
    rcases derived with ⟨same, index, rfl, _, spells, _⟩
    have next : before.next? = index.content.head? := by
      rw [Cursor.next?, spells.map_lexeme_head?]
      cases index <;> rfl
    cases index with
    | literal text =>
        refine .inl ⟨before, ⟨?_, rfl⟩, .inr ⟨text, after, ⟨same, spells⟩, rfl, rfl⟩⟩
        simp [next, Index.content]
    | negative text =>
        obtain ⟨between, spellsSign, spellsText⟩ := Spells.uncons_iff.1 spells
        exact .inr ⟨⟨between, before.budget⟩, ⟨rfl, spellsSign⟩, text, after,
          ⟨same, spellsText⟩, rfl, rfl⟩
    | identifier name =>
        refine .inl ⟨before, ⟨?_, rfl⟩,
          .inl ⟨before, ⟨?_, rfl⟩, name, after, ⟨same, spells⟩, rfl, rfl⟩⟩
        · simp [next, Index.content]
        · simp [next, Index.content]

theorem readsOn_subscript? :
    subscript?.ReadsOn Language.index [] (· ≠ some (.mark "[")) := by
  rw [subscript?]
  apply ReadsOn.of_acceptPunctuator
  · intro before result after
    simp only [bind_eq_ok_iff, Bool.exists_bool, Bool.false_eq_true, if_false, if_true,
      acceptPunctuator_eq_true_iff, punctuator_eq_ok_iff, reads_subscript.iff,
      pure_eq_ok_iff, reduceCtorEq, false_and, and_false, exists_false, false_or,
      Option.some.injEq]
    constructor
    · intro accepted
      rcases accepted with
        ⟨opened, ⟨sameOpened, spellsOpen⟩, _, between, ⟨same, index, rfl, _, spells, _⟩,
          _, _, ⟨sameClosed, spellsClose⟩, rfl, rfl⟩
      refine ⟨sameClosed.trans (same.trans sameOpened), index, rfl, trivial,
        ?_, trivial⟩
      exact Spells.uncons_iff.2
        ⟨_, spellsOpen, Spells.append_iff.2 ⟨_, spells, spellsClose⟩⟩
    · intro derived
      rcases derived with ⟨same, index, rfl, _, spells, _⟩
      obtain ⟨opened, spellsOpen, spells⟩ := Spells.uncons_iff.1 spells
      obtain ⟨closed, spellsContent, spellsClose⟩ := Spells.append_iff.1 spells
      exact ⟨⟨opened, before.budget⟩, ⟨rfl, spellsOpen⟩, index.tree,
        ⟨closed, before.budget⟩, ⟨rfl, index, rfl, trivial, spellsContent, trivial⟩, ⟨⟩,
        after, ⟨same, spellsClose⟩, rfl, rfl⟩
  · intro before after
    simp only [ne_eq, bind_eq_ok_iff, pure_eq_ok_iff, reduceCtorEq, false_and,
      and_false, exists_false, not_false_eq_true]

theorem reads_readDesignator : readDesignator.Reads Language.target := by
  have reads :=
    readsOn_subscript?.many (fun _ => List.cons_ne_nil _ _) (fun _ _ => trivial)
  intro before result after
  simp only [readDesignator, bind_eq_ok_iff, Token.identifier?, take_textOf?_eq_ok_iff,
    reads.iff, pure_eq_ok_iff]
  constructor
  · intro accepted
    rcases accepted with
      ⟨name, between, ⟨sameName, spellsName⟩, _, _,
        ⟨same, indices, rfl, _, spells, stops, _⟩, rfl, rfl⟩
    refine ⟨same.trans sameName, ⟨name, indices⟩, rfl, trivial, ?_, stops⟩
    exact Spells.uncons_iff.2 ⟨_, spellsName, Language.spells_many_nil_iff.1 spells⟩
  · intro derived
    rcases derived with ⟨same, target, rfl, _, spells, stops⟩
    obtain ⟨between, spellsName, spells⟩ := Spells.uncons_iff.1 spells
    refine ⟨target.name, ⟨between, before.budget⟩, ⟨rfl, spellsName⟩, _, after,
      ?_, rfl, rfl⟩
    exact ⟨same, target.indices, rfl, fun _ _ => trivial,
      Language.spells_many_nil_iff.2 spells, stops, fun _ _ => trivial⟩

/-- A designator begins with an identifier. -/
theorem next?_of_readDesignator {before after : Cursor} {target : Designator}
    (reads : readDesignator before = .ok target after) :
    ∃ name, before.next? = some (.identifier name) := by
  obtain ⟨_, written, _, _, spells, _⟩ := reads_readDesignator.iff.1 reads
  exact ⟨written.name, spells.map_lexeme_head?⟩

end Expr

end StackCompiler
