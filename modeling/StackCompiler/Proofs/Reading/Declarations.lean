import StackCompiler.CompilationUnit.Parser
import StackCompiler.Proofs.Grammar.Composition
import StackCompiler.Proofs.Reading.Language

/-!
# Declarations are read by the grammar

Declarations take nothing of the limits. A dimension is read if it denotes a
number of 64 bits.
-/

namespace StackCompiler

namespace Language

/-- Dimensions in brackets. -/
def extent : Language Int where
  Form := Extent
  lexemes := Extent.lexemes
  tree := Extent.value
  Fits _ _ := True
  Closed _ _ := True

/-- Names that are declared with a type. -/
def declarator (type : TypeTag) : Language Declaration where
  Form := Declarator
  lexemes := Declarator.lexemes
  tree := Declarator.tree type
  Fits _ _ := True
  Closed _ next := next ≠ some (.mark "[")

/-- Further names, each behind a comma. -/
def anotherDeclarator (type : TypeTag) : Language Declaration :=
  { declarator type with
    lexemes := fun other : Declarator => .mark "," :: other.lexemes }

/-- Lines of declarations. -/
def line : Language (List Declaration) where
  Form := Line
  lexemes := Line.lexemes
  tree := Line.tree
  Fits _ _ := True
  Closed _ _ := True

/-- All lines of declarations, where `Stops` holds behind the last one. -/
def lines : Language (List Declaration) where
  Form := List Line
  lexemes lines := lines.flatMap Line.lexemes
  tree lines := lines.flatMap Line.tree
  Fits _ _ := True
  Closed _ next := ∀ type : TypeTag, next ≠ some (.keyword type.keyword)

end Language

namespace Declaration

open StackCompiler.Parser

theorem readDim_eq_ok_iff {before after : Cursor} {result : Int} :
    readDim before = .ok result after ↔
      after.budget = before.budget ∧ ∃ extent : Extent, extent.value = result ∧
        Spells [.integer extent.text] before.rest after.rest := by
  rw [readDim, bind_eq_ok_iff]
  constructor
  · intro accepted
    rcases accepted with ⟨_, _, peeked, rest⟩
    obtain ⟨rfl, rfl⟩ := peek?_eq_ok_iff.1 peeked
    cases next : before.rest.head?.bind Token.integer? with
    | none =>
        rw [next] at rest
        exact absurd rest throw_eq_ok_iff.1
    | some text =>
        rw [next] at rest
        cases reads : Text.Decimal.readWord text.toList with
        | error fault =>
            simp only [reads] at rest
            exact absurd rest throw_eq_ok_iff.1
        | ok value =>
            simp only [reads, bind_eq_ok_iff, discard_eq_ok_iff, pure_eq_ok_iff] at rest
            obtain ⟨_, _, ⟨found, taken⟩, rfl, rfl⟩ := rest
            cases found with
            | none =>
                rw [(takeIf?_eq_none_iff.1 taken).1] at next
                contradiction
            | some taken' =>
                obtain ⟨same, token, isNext, written⟩ := takeIf?_eq_some_iff.1 taken
                rw [isNext, List.head?_cons, Option.bind_some] at next
                refine ⟨same,
                  ⟨text, value, Text.Decimal.readWord_eq_ok_iff.1 reads⟩, rfl, ?_⟩
                exact ⟨token, _, isNext, Token.integer?_eq_some_iff.1 next, rfl⟩
  · intro derived
    rcases derived with ⟨same, extent, rfl, spells⟩
    refine ⟨_, before, peek?_eq_ok_iff.2 ⟨rfl, rfl⟩, ?_⟩
    have taken := takeIf?_textOf?_eq_some_iff.2 ⟨same, spells⟩
    obtain ⟨token, rest, isNext, written, _⟩ := spells
    have reads := Text.Decimal.readWord_eq_ok_iff.2 extent.denotes
    rw [isNext, List.head?_cons, Option.bind_some, Token.integer?_eq_some_iff.2 written]
    simp only [reads, bind_eq_ok_iff, discard_eq_ok_iff, pure_eq_ok_iff]
    exact ⟨⟨⟩, after, ⟨_, taken⟩, trivial, rfl⟩

theorem readsOn_dim? : dim?.ReadsOn Language.extent [] (· ≠ some (.mark "[")) := by
  rw [dim?]
  apply ReadsOn.of_acceptPunctuator
  · intro before result after
    simp only [bind_eq_ok_iff, Bool.exists_bool, Bool.false_eq_true, if_false, if_true,
      acceptPunctuator_eq_true_iff, punctuator_eq_ok_iff, readDim_eq_ok_iff,
      pure_eq_ok_iff, reduceCtorEq, false_and, and_false, exists_false, false_or,
      Option.some.injEq]
    constructor
    · intro accepted
      rcases accepted with ⟨_, ⟨sameOpen, spellsOpen⟩, _, _,
        ⟨same, extent, rfl, spells⟩, _, _, ⟨sameClose, spellsClose⟩, rfl, rfl⟩
      refine ⟨sameClose.trans (same.trans sameOpen), extent, rfl, trivial, ?_, trivial⟩
      exact Spells.uncons_iff.2
        ⟨_, spellsOpen, Spells.uncons_iff.2 ⟨_, spells, spellsClose⟩⟩
    · intro derived
      rcases derived with ⟨same, extent, rfl, _, spells, _⟩
      obtain ⟨opened, spellsOpen, spells⟩ := Spells.uncons_iff.1 spells
      obtain ⟨closed, spellsText, spellsClose⟩ := Spells.uncons_iff.1 spells
      exact ⟨⟨opened, before.budget⟩, ⟨rfl, spellsOpen⟩, extent.value,
        ⟨closed, before.budget⟩, ⟨rfl, extent, rfl, spellsText⟩, ⟨⟩, after,
        ⟨same, spellsClose⟩, rfl, rfl⟩
  · intro before after
    simp only [ne_eq, bind_eq_ok_iff, pure_eq_ok_iff, reduceCtorEq, false_and,
      and_false, exists_false, not_false_eq_true]

theorem reads_readOne (type : TypeTag) : (readOne type).Reads (.declarator type) := by
  have reads := readsOn_dim?.many (fun _ => List.cons_ne_nil _ _) (fun _ _ => trivial)
  intro before result after
  simp only [readOne, bind_eq_ok_iff, Token.identifier?, take_textOf?_eq_ok_iff,
    reads.iff, pure_eq_ok_iff]
  constructor
  · intro accepted
    rcases accepted with
      ⟨name, _, ⟨sameName, spellsName⟩, _, _,
        ⟨same, extents, rfl, _, spells, stops, _⟩, rfl, rfl⟩
    refine ⟨same.trans sameName, ⟨name, extents⟩, rfl, trivial, ?_, stops⟩
    exact Spells.uncons_iff.2 ⟨_, spellsName, Language.spells_many_nil_iff.1 spells⟩
  · intro derived
    rcases derived with ⟨same, declarator, rfl, _, spells, stops⟩
    obtain ⟨between, spellsName, spells⟩ := Spells.uncons_iff.1 spells
    refine ⟨declarator.name, ⟨between, before.budget⟩, ⟨rfl, spellsName⟩, _, after,
      ?_, rfl, rfl⟩
    exact ⟨same, declarator.extents, rfl, fun _ _ => trivial,
      Language.spells_many_nil_iff.2 spells, stops, fun _ _ => trivial⟩

theorem readsOn_another? (type : TypeTag) :
    (another? type).ReadsOn (.anotherDeclarator type) [] (· ≠ some (.mark ",")) := by
  rw [another?]
  apply ReadsOn.of_acceptPunctuator
  · intro before result after
    simp only [bind_eq_ok_iff, Bool.exists_bool, Bool.false_eq_true, if_false, if_true,
      acceptPunctuator_eq_true_iff, (reads_readOne type).iff, pure_eq_ok_iff,
      reduceCtorEq, false_and, and_false, exists_false, false_or, Option.some.injEq]
    constructor
    · intro accepted
      rcases accepted with
        ⟨_, ⟨sameComma, spellsComma⟩, _, _,
          ⟨same, declarator, rfl, _, spells, stops⟩, rfl, rfl⟩
      exact ⟨same.trans sameComma, declarator, rfl, trivial,
        Spells.uncons_iff.2 ⟨_, spellsComma, spells⟩, stops⟩
    · intro derived
      rcases derived with ⟨same, declarator, rfl, _, spells, stops⟩
      obtain ⟨between, spellsComma, spells⟩ := Spells.uncons_iff.1 spells
      exact ⟨⟨between, before.budget⟩, ⟨rfl, spellsComma⟩, declarator.tree type, after,
        ⟨same, declarator, rfl, trivial, spells, stops⟩, rfl, rfl⟩
  · intro before after
    simp only [ne_eq, bind_eq_ok_iff, pure_eq_ok_iff, reduceCtorEq, false_and,
      and_false, exists_false, not_false_eq_true]

theorem type?_eq_some_iff {token : Token} {type : TypeTag} :
    type? token = some type ↔ token.lexeme = .keyword type.keyword := by
  simp only [type?, Option.bind_eq_some_iff, Token.keyword?_eq_some_iff]
  constructor
  · intro accepted
    rcases accepted with ⟨word, written, found⟩
    have same := List.find?_some found
    rw [written, eq_of_beq same]
  · intro written
    refine ⟨_, written, ?_⟩
    cases type <;> decide

theorem takeIf?_type?_eq_some_iff {before after : Cursor} {type : TypeTag} :
    takeIf? type? before = .ok (some type) after ↔
    after.budget = before.budget ∧
    Spells [.keyword type.keyword] before.rest after.rest := by
  simp only [takeIf?_eq_some_iff, type?_eq_some_iff, Spells.cons_iff, Spells.nil_iff]
  constructor
  · intro accepted
    rcases accepted with ⟨same, token, taken, written⟩
    exact ⟨same, token, _, taken, written, rfl⟩
  · intro derived
    rcases derived with ⟨same, token, _, taken, written, rfl⟩
    exact ⟨same, token, taken, written⟩

theorem takeIf?_type?_eq_none_iff {before after : Cursor} :
    takeIf? type? before = .ok none after ↔
    (∀ type : TypeTag, before.next? ≠ some (.keyword type.keyword)) ∧
    before = after := by
  rw [takeIf?_eq_none_iff, Cursor.next?]
  cases before.rest.head? with
  | none => simp
  | some token =>
      simp [Option.eq_none_iff_forall_ne_some, type?_eq_some_iff]

theorem readsOn_line? :
    line?.ReadsOn Language.line []
      (fun next => ∀ type : TypeTag, next ≠ some (.keyword type.keyword)) := by
  have others (type : TypeTag) :=
    (readsOn_another? type).many (fun _ => List.cons_ne_nil _ _)
      (fun _ _ => by simp [Language.anotherDeclarator, Language.declarator])
  apply ReadsOn.of_stays
  · intro before result after
    simp only [line?, bind_eq_ok_iff, Option.exists, takeIf?_type?_eq_some_iff,
      (reads_readOne _).iff, (others _).iff, punctuator_eq_ok_iff, pure_eq_ok_iff,
      reduceCtorEq, false_and, and_false, exists_false, false_or, Option.some.injEq]
    constructor
    · intro accepted
      rcases accepted with
        ⟨type, _, ⟨sameType, spellsType⟩, _, _,
          ⟨sameFirst, first, rfl, _, spellsFirst, _⟩, _, _,
          ⟨same, others, rfl, _, spells, _⟩, _, _, ⟨sameEnd, spellsEnd⟩, rfl, rfl⟩
      refine ⟨sameEnd.trans (same.trans (sameFirst.trans sameType)),
        ⟨type, first, others⟩, rfl, trivial, ?_, trivial⟩
      exact Spells.uncons_iff.2 ⟨_, spellsType, Spells.append_iff.2 ⟨_, spellsFirst,
        Spells.append_iff.2 ⟨_, Language.spells_many_nil_iff.1 spells, spellsEnd⟩⟩⟩
    · intro derived
      rcases derived with ⟨same, line, rfl, _, spells, _⟩
      obtain ⟨first, spellsType, spells⟩ := Spells.uncons_iff.1 spells
      obtain ⟨second, spellsFirst, spells⟩ := Spells.append_iff.1 spells
      obtain ⟨third, spellsOthers, spellsEnd⟩ := Spells.append_iff.1 spells
      have afterFirst : Cursor.next? ⟨second, before.budget⟩ ≠ some (.mark "[") := by
        rw [Cursor.next?, spells.map_lexeme_head?]
        cases line.others <;> simp
      have afterOthers : Cursor.next? ⟨third, before.budget⟩ = some (.mark ";") :=
        spellsEnd.map_lexeme_head?
      refine ⟨line.type, ⟨first, before.budget⟩, ⟨rfl, spellsType⟩,
        line.first.tree line.type, ⟨second, before.budget⟩,
        ⟨rfl, line.first, rfl, trivial, spellsFirst, afterFirst⟩, line.others.map
          (Declarator.tree line.type), ⟨third, before.budget⟩, ⟨rfl, line.others, rfl,
          fun _ _ => trivial, Language.spells_many_nil_iff.2 spellsOthers, ?_, ?_⟩,
        ⟨⟩, after, ⟨same, spellsEnd⟩, rfl, rfl⟩
      · simp [afterOthers]
      · intro other _
        simp [afterOthers, Language.anotherDeclarator, Language.declarator]
  · intro before after
    simp only [line?, bind_eq_ok_iff, Option.exists, takeIf?_type?_eq_none_iff,
      pure_eq_ok_iff, reduceCtorEq, false_and, and_false, exists_false,
      or_false, true_and]
    constructor
    · intro accepted
      rcases accepted with ⟨_, ⟨stops, rfl⟩, rfl⟩
      exact ⟨stops, rfl⟩
    · intro derived
      rcases derived with ⟨stops, rfl⟩
      exact ⟨before, ⟨stops, rfl⟩, rfl⟩

/-- Lines of declarations are read until one does not begin with a type. -/
theorem reads_readAll : readAll.Reads Language.lines := by
  have reads := readsOn_line?.many (fun _ => List.cons_ne_nil _ _) (fun _ _ => trivial)
  intro before result after
  simp only [readAll, bind_eq_ok_iff, reads.iff, pure_eq_ok_iff]
  constructor
  · intro accepted
    rcases accepted with ⟨_, _, ⟨same, lines, rfl, _, spells, stops, _⟩, rfl, rfl⟩
    exact ⟨same, lines, (List.flatMap_def ..).symm, trivial,
      Language.spells_many_nil_iff.1 spells, stops⟩
  · intro derived
    rcases derived with ⟨same, lines, rfl, _, spells, stops⟩
    exact ⟨_, after, ⟨same, lines, rfl, fun _ _ => trivial,
        Language.spells_many_nil_iff.2 spells, stops, fun _ _ => trivial⟩,
      (List.flatMap_def ..).symm, rfl⟩

end Declaration

end StackCompiler
