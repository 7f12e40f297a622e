import StackCompiler.Proofs.Grammar.Nearest
import StackCompiler.Proofs.Reading.Beginnings
import StackCompiler.Proofs.Reading.Crowding
import StackCompiler.Proofs.Reading.Building
import StackCompiler.Proofs.Reading.Sources

/-!
# The first offending token

If no limit is reached, what keeps a source from being a program is reported at
the first token with which no program goes on
(`CompilationUnit.parse_first_offender`). What was read before is the beginning
of a program. If the token could follow it, a program that begins with both
would have to be read, and since the parser looks at nothing behind the token,
it would fail on the program as well.
-/

namespace StackCompiler

/-! ### The end of the input -/

/-- What a program consists of, with the end of the input behind it. -/
def Composition.ended (composition : Composition) : List Lexeme :=
  composition.lexemes ++ [⟨.endOfInput, ""⟩]

/-- Whether a lexeme can stand before the end of the input. -/
def Lexeme.Inner (lexeme : Lexeme) : Prop := lexeme.kind ≠ .endOfInput

namespace Index

theorem inner (index : Index) : ∀ lexeme ∈ index.lexemes, lexeme.Inner := by
  cases index <;> simp [lexemes, content, Lexeme.Inner]

end Index

namespace Target

theorem inner (target : Target) : ∀ lexeme ∈ target.lexemes, lexeme.Inner := by
  refine List.forall_mem_cons.2 ⟨by simp [Lexeme.Inner], ?_⟩
  exact List.forall_mem_flatMap.2 fun index _ => index.inner

end Target

namespace Phrase

variable {rank : Rank}

theorem inner (phrase : Phrase rank) : ∀ lexeme ∈ phrase.lexemes, lexeme.Inner := by
  induction phrase with
  | number literal => cases literal <;> simp [lexemes, Literal.lexeme, Lexeme.Inner]
  | designator target => exact target.inner
  | prefixed operator operand ih =>
      exact List.forall_mem_cons.2 ⟨by simp [Lexeme.Inner], ih⟩
  | parens content ih => simpa [lexemes, Lexeme.Inner, or_imp, forall_and] using ih
  | single only ih => exact ih
  | link grouped left operator ofLevel right ihLeft ihRight
  | compare left operator ofLevel right ihLeft ihRight =>
      refine List.forall_mem_append.2
        ⟨ihLeft, List.forall_mem_cons.2 ⟨by simp [Lexeme.Inner], ihRight⟩⟩

theorem inner_enclosed (condition : Phrase .whole) :
    ∀ lexeme ∈ condition.enclosed, lexeme.Inner := by
  simpa [enclosed, Lexeme.Inner, or_imp, forall_and] using condition.inner

end Phrase

namespace Sentence

mutual

theorem inner : (sentence : Sentence) → ∀ lexeme ∈ sentence.lexemes, lexeme.Inner
  | block body => by
      rw [lexemes, List.forall_mem_cons, List.forall_mem_append]
      exact ⟨by simp [Lexeme.Inner], innerAll body,
        List.forall_mem_singleton.2 (by simp [Lexeme.Inner])⟩
  | ifThen condition consequence => by
      rw [lexemes, List.forall_mem_cons, List.forall_mem_append]
      exact ⟨by simp [Lexeme.Inner], condition.inner_enclosed, consequence.inner⟩
  | ifElse condition consequence alternative => by
      rw [lexemes, List.forall_mem_cons, List.forall_mem_append, List.forall_mem_append,
        List.forall_mem_cons]
      exact ⟨by simp [Lexeme.Inner], condition.inner_enclosed, consequence.inner,
        by simp [Lexeme.Inner], alternative.inner⟩
  | loop condition body => by
      rw [lexemes, List.forall_mem_cons, List.forall_mem_append]
      exact ⟨by simp [Lexeme.Inner], condition.inner_enclosed, body.inner⟩
  | print value => by
      rw [lexemes, List.forall_mem_cons, List.forall_mem_append]
      exact ⟨by simp [Lexeme.Inner], value.inner,
        List.forall_mem_singleton.2 (by simp [Lexeme.Inner])⟩
  | assign target value => by
      rw [lexemes, List.forall_mem_append, List.forall_mem_cons, List.forall_mem_append]
      exact ⟨target.inner, by simp [Lexeme.Inner], value.inner,
        List.forall_mem_singleton.2 (by simp [Lexeme.Inner])⟩

theorem innerAll :
    (sentences : List Sentence) → ∀ lexeme ∈ lexemesAll sentences, lexeme.Inner
  | [] => List.forall_mem_nil _
  | first :: rest => by
      rw [lexemesAll, List.forall_mem_append]
      exact ⟨first.inner, innerAll rest⟩

end

end Sentence

theorem Declarator.inner (declarator : Declarator) :
    ∀ lexeme ∈ declarator.lexemes, lexeme.Inner := by
  refine List.forall_mem_cons.2 ⟨by simp [Lexeme.Inner], ?_⟩
  exact List.forall_mem_flatMap.2 fun extent _ => by simp [Extent.lexemes, Lexeme.Inner]

theorem Line.inner (line : Line) : ∀ lexeme ∈ line.lexemes, lexeme.Inner := by
  rw [lexemes, List.forall_mem_cons, List.forall_mem_append, List.forall_mem_append,
    List.forall_mem_flatMap]
  refine ⟨by simp [Lexeme.Inner], line.first.inner, fun other _ => ?_,
    List.forall_mem_singleton.2 (by simp [Lexeme.Inner])⟩
  exact List.forall_mem_cons.2 ⟨by simp [Lexeme.Inner], other.inner⟩

/-- The end of the input is no part of a program. -/
theorem Composition.inner (composition : Composition) :
    ∀ lexeme ∈ composition.lexemes, lexeme.Inner := by
  rw [lexemes, List.forall_mem_append, List.forall_mem_flatMap, List.forall_mem_flatMap]
  exact ⟨fun line _ => line.inner, fun sentence _ => sentence.inner⟩

/-! ### Where reading fails -/

/-- Whether a diagnostic says that a limit was reached. -/
def Diagnostic.IsLimit (diagnostic : Diagnostic) : Prop :=
  ∃ anchor, ∃ problem ∈ [Problem.tooDeep, .tooLong], diagnostic =
    .malformed anchor (Failure.message ⟨problem, none⟩)

theorem Failure.isLimit_diagnose {source : List Char} {failure : Failure}
    (isLimit : failure.problem ∈ [Problem.tooDeep, .tooLong]) :
    (failure.diagnose source).IsLimit := by
  rcases failure with ⟨problem, found⟩
  refine ⟨Text.Anchor.ofOffset source (Failure.loc source ⟨problem, found⟩), problem,
    isLimit, ?_⟩
  rcases List.mem_pair.1 isLimit with rfl | rfl <;> rfl

namespace CompilationUnit

/-- What is read of tokens before their end, if reading fails, is the beginning
of a program, and there is a token at which it fails. -/
theorem exists_begun_of_read {body : List Token} {ending : Token}
    (isEnd : ending.kind = .endOfInput) (fits : ∀ token ∈ body, token.lexeme.Fits)
    {budget : Budget} {problem : Problem} {stuck : Cursor}
    (fails : CompilationUnit.read ⟨body ++ [ending], budget⟩ = .error problem stuck) :
    ∃ seen token later, body ++ [ending] = seen ++ token :: later ∧
      stuck.rest = token :: later ∧
      ∃ composition : Composition, (∀ lexeme ∈ composition.lexemes, lexeme.Fits) ∧
        seen.map Token.lexeme <+: composition.lexemes := by
  rcases viable_read fails with ⟨composition, read, more, written, fitsMore, spells⟩
  rcases Spells.iff_exists_append.1 spells with ⟨seen, split, rfl⟩
  change body ++ [ending] = seen ++ stuck.rest at split
  change Composition.lexemes composition = seen.map Token.lexeme ++ more at written
  have inner : ∀ token ∈ seen, token.kind ≠ .endOfInput := by
    intro token found
    have isPart : token.lexeme ∈ Composition.lexemes composition := by
      rw [written]
      exact List.mem_append_left _ (List.mem_map_of_mem found)
    exact Composition.inner composition _ isPart
  cases left : stuck.rest with
  | nil =>
      rw [left, List.append_nil] at split
      have found : ending ∈ seen := by
        rw [← split]
        exact List.mem_append_right _ (List.mem_singleton_self _)
      exact absurd isEnd (inner ending found)
  | cons token later =>
      rw [left] at split
      refine ⟨seen, token, later, split, rfl, composition, ?_, ?_⟩
      · rw [written]
        refine List.forall_mem_append.2
          ⟨List.forall_mem_map.2 fun read found => ?_, fitsMore⟩
        have isToken : read ∈ body ++ [ending] := by
          rw [split]
          exact List.mem_append_left _ found
        rcases List.mem_append.1 isToken with inBody | isEnding
        · exact fits read inBody
        · rcases List.mem_singleton.1 isEnding with rfl
          exact absurd isEnd (inner read found)
      · rw [written]
        exact List.prefix_append _ _

/-- No program begins with what was read before a failure and the token at which
reading failed, unless a limit was reached. -/
theorem not_begins_of_read {seen later : List Token} {token : Token} {problem : Problem}
    {stuck : Cursor}
    (fails : CompilationUnit.read ⟨seen ++ token :: later, Budget.unused⟩ =
      .error problem stuck) (behind : stuck.rest = token :: later)
    (noLimit : problem ∉ [Problem.tooDeep, .tooLong]) (composition : Composition) :
    ¬ (seen ++ [token]).map Token.lexeme <+: composition.ended := by
  intro begins
  rcases composition.exists_nearest with ⟨regrouped, written, nearest⟩
  rcases begins with ⟨more, split⟩
  -- the program as tokens: those that were seen, and then others, which stand anywhere
  let other : List Token := more.map fun lexeme => ⟨lexeme.kind, lexeme.text, 0, 0⟩
  have spelled : ((seen ++ [token]) ++ other).map Token.lexeme =
      regrouped.lexemes ++ [⟨.endOfInput, ""⟩] := by
    rw [written]
    refine Eq.trans ?_ split
    rw [List.map_append, List.map_map]
    exact congrArg (_ ++ ·) (List.map_id more)
  rcases List.map_eq_append_iff.1 spelled with ⟨body, rest, tokens, isBody, isRest⟩
  have spells : Spells regrouped.lexemes ((seen ++ [token]) ++ other) rest :=
    Spells.iff_exists_append.2 ⟨body, tokens, isBody⟩
  have ends : Lexeme.Ends (rest.head?.map Token.lexeme) := by
    rw [← List.head?_map, isRest]
    exact fun lexeme found => by rw [← Option.some.inj found]
  rw [Composition.tree, ← Sentence.treeAll_eq_map, Stmt.elseNearestAll_treeAll_iff]
    at nearest
  have copes := copes_read nearest spells ends
  rw [← List.singleton_append, ← List.append_assoc] at fails
  have sameProblem :=
    local_read.same (List.cons_ne_nil token []) (by rw [fails]; exact behind) other
  rw [sameProblem, fails] at copes
  cases problem with
  | tooDeep | tooLong => simp at noLimit
  | _ => exact copes

end CompilationUnit

/-- What keeps a source from being a program is reported at the first token with
which no program goes on, unless it is that a limit was reached. The end of the
input counts as a token. -/
theorem CompilationUnit.parse_first_offender (source : String) (lexed : Lexed)
    (diagnostic : Diagnostic)
    (reads : (Lexed.read source.toList false).outcome = .ok lexed)
    (fails : CompilationUnit.parse lexed.tokens source.toList = .error diagnostic)
    (noLimit : ¬ diagnostic.IsLimit) :
    ∃ (k : Nat) (token : Token), lexed.tokens[k]? = some token ∧
      (∃ message, diagnostic = .malformedAt source.toList token.loc message) ∧
      (∃ composition : Composition, (∀ lexeme ∈ composition.lexemes, lexeme.Fits) ∧
        (lexed.tokens.take k).map Token.lexeme <+: composition.ended) ∧
      ∀ composition : Composition,
        ¬ (lexed.tokens.take (k + 1)).map Token.lexeme <+: composition.ended := by
  rcases Lexed.eq_ofSource_of_read reads with rfl
  rw [parse, ofTokens?] at fails
  cases run :
    CompilationUnit.read ⟨(Lexed.ofSource source.toList).tokens, Budget.unused⟩ with
  | ok unit after =>
      rw [run] at fails
      contradiction
  | error problem stuck =>
      rw [run] at fails
      have reported :
          Failure.diagnose source.toList ⟨problem, stuck.rest.head?⟩ = diagnostic :=
        Except.error.inj fails
      have inside : problem ∉ [Problem.tooDeep, .tooLong] := by
        intro isLimit
        rw [← reported] at noLimit
        exact noLimit (Failure.isLimit_diagnose isLimit)
      rw [Lexed.tokens_ofSource] at run ⊢
      rcases exists_begun_of_read rfl Lexed.fits_of_mem_survey run with
        ⟨seen, token, later, split, behind, composition, fits, begins⟩
      rw [split] at run ⊢
      refine ⟨seen.length, token, ?_, ⟨Failure.message ⟨problem, some token⟩, ?_⟩,
        ⟨composition, fits, ?_⟩, fun other => ?_⟩
      · simp
      · rw [← reported, behind]
        rfl
      · rw [List.take_left]
        exact begins.trans (List.prefix_append _ _)
      · rw [List.take_add_one, List.take_left,
          List.getElem?_append_right (Nat.le_refl _)]
        simpa using not_begins_of_read run behind inside other

/-- The second of two comparisons in a row is the first token that is wrong. -/
theorem CompilationUnit.parse_first_offender_comparison :
    ∃ (k : Nat) (token : Token), (Lexed.ofSource "x=a<b<c;".toList).tokens[k]? =
        some token ∧
      (∃ message, Diagnostic.malformedAt "x=a<b<c;".toList 5
          "relational operator \"<\" cannot be chained; add parentheses" =
        .malformedAt "x=a<b<c;".toList token.loc message) ∧
      (∃ composition : Composition, (∀ lexeme ∈ composition.lexemes, lexeme.Fits) ∧
        ((Lexed.ofSource "x=a<b<c;".toList).tokens.take k).map Token.lexeme <+:
          composition.ended) ∧
      ∀ composition : Composition,
        ¬ ((Lexed.ofSource "x=a<b<c;".toList).tokens.take (k + 1)).map Token.lexeme <+:
          composition.ended := by
  refine parse_first_offender "x=a<b<c;" (Lexed.ofSource "x=a<b<c;".toList) _ rfl
    (by decide +kernel) ?_
  intro isLimit
  rcases isLimit with ⟨anchor, problem, isLimit, same⟩
  have message := (Diagnostic.malformed.inj same).2
  rcases List.mem_pair.1 isLimit with rfl | rfl <;> contradiction

end StackCompiler
