import StackCompiler.Proofs.Faults
import StackCompiler.Proofs.Reading.Offenders
import StackCompiler.Proofs.Reading.Retelling

/-!
# Places do not matter to reading

What is read of some tokens, and where reading fails, does not depend on where
the tokens stand in a source (`CompilationUnit.placeless_read`): if the places
are erased, the parser of programs does the same, and what is left to be read is
the same without its places. So of tokens that spell the same, the same is read,
or reading fails at the same of them (`CompilationUnit.read_or_fails`), and the
layout of a source only shows in the places that diagnostics name
(`compile_layout`).
-/

namespace StackCompiler

/-- Without their places, tokens are what they spell. -/
theorem Token.map_erase_eq_iff {tokens others : List Token} :
    tokens.map Token.erase = others.map Token.erase ↔
    tokens.map Token.lexeme = others.map Token.lexeme := by
  constructor
  · intro same
    have spelled : Token.lexeme = Token.lexeme ∘ Token.erase := rfl
    rw [spelled, ← List.map_map, same, List.map_map]
  · intro same
    have placed : Token.erase =
        (fun lexeme => ⟨lexeme.kind, lexeme.text, 0, 0⟩) ∘ Token.lexeme := rfl
    rw [placed, ← List.map_map, same, List.map_map]

/-- Without their places, tokens are told in another way. -/
theorem retelling_erase : Retelling (List.map Token.erase) where
  head tokens := by
    rw [List.head?_map]
    cases tokens.head? with
    | none => rfl
    | some token =>
        rw [Option.map_some, Token.spelling?_some, Token.spelling?_some]
        rfl
  tail _ := rfl

/-- The cursor before tokens at no particular places. -/
def Cursor.erase (cursor : Cursor) : Cursor :=
  { cursor with rest := cursor.rest.map Token.erase }

/-- The same outcome before tokens at no particular places. -/
def Outcome.erase {α : Type} : Outcome α → Outcome α
  | .ok result after => .ok result after.erase
  | .error problem stuck => .error problem stuck.erase

namespace Parser

variable {α : Type}

/-- Whether a parser does the same without the places of the tokens. -/
def Placeless (parser : Parser α) : Prop :=
  ∀ start : Cursor, parser start.erase = Outcome.erase (parser start)

end Parser

namespace CompilationUnit

/-- Programs are read without regard to the places of their tokens. -/
theorem placeless_read : CompilationUnit.read.Placeless := by
  intro start
  apply (retold_read retelling_erase start).trans
  cases CompilationUnit.read start <;> rfl

/-- Of tokens that spell the same, the same is read, but for the places
of what is left. -/
theorem erase_read_eq {tokens others : List Token}
    (same : tokens.map Token.lexeme = others.map Token.lexeme) (budget : Budget) :
    Outcome.erase (CompilationUnit.read ⟨tokens, budget⟩) =
      Outcome.erase (CompilationUnit.read ⟨others, budget⟩) := by
  rw [← placeless_read, ← placeless_read, Cursor.erase, Cursor.erase,
    Token.map_erase_eq_iff.2 same]

/-- Tokens that spell the same are read as the same program, or reading fails
for the same reason, with as many tokens left. -/
theorem read_or_fails {tokens others : List Token}
    (same : tokens.map Token.lexeme = others.map Token.lexeme) (budget : Budget) :
    (∃ unit after afterToo, CompilationUnit.read ⟨tokens, budget⟩ = .ok unit after ∧
      CompilationUnit.read ⟨others, budget⟩ = .ok unit afterToo) ∨
    ∃ problem stuck stuckToo, CompilationUnit.read ⟨tokens, budget⟩ =
        .error problem stuck ∧
      CompilationUnit.read ⟨others, budget⟩ = .error problem stuckToo ∧
      stuck.rest.length = stuckToo.rest.length := by
  have outcome := erase_read_eq same budget
  cases run : CompilationUnit.read ⟨tokens, budget⟩ with
  | ok unit after =>
      cases runToo : CompilationUnit.read ⟨others, budget⟩ with
      | ok unitToo afterToo =>
          rw [run, runToo] at outcome
          rcases EStateM.Result.ok.inj outcome with ⟨rfl, _⟩
          exact .inl ⟨unit, after, afterToo, rfl, rfl⟩
      | error problem stuck =>
          rw [run, runToo] at outcome
          contradiction
  | error problem stuck =>
      cases runToo : CompilationUnit.read ⟨others, budget⟩ with
      | ok unit after =>
          rw [run, runToo] at outcome
          contradiction
      | error problemToo stuckToo =>
          rw [run, runToo] at outcome
          rcases EStateM.Result.error.inj outcome with ⟨rfl, left⟩
          have lengths := congrArg (fun cursor => cursor.rest.length) left
          simp only [Cursor.erase, List.length_map] at lengths
          exact .inr ⟨problem, stuck, stuckToo, rfl, rfl, lengths⟩

end CompilationUnit

/-- The wording of a failure does not depend on the place of the token at
which it is found. -/
theorem Failure.message_of_lexeme_eq {token other : Token}
    (same : token.lexeme = other.lexeme) (problem : Problem) :
    Failure.message ⟨problem, token⟩ = Failure.message ⟨problem, other⟩ := by
  cases token
  cases other
  obtain ⟨rfl, rfl⟩ := Lexeme.mk.inj same
  rfl

/-- A source that is not read as a program is reported to be wrong at the token
before which reading fails. -/
theorem exists_token_of_read {source : String} {problem : Problem} {stuck : Cursor}
    (fails : CompilationUnit.read
        ⟨(Lexed.ofSource source.toList).tokens, Budget.unused⟩ = .error problem stuck) :
    ∃ (k : Nat) (token : Token), (Lexed.ofSource source.toList).tokens[k]? =
        some token ∧
      k + stuck.rest.length = (Lexed.ofSource source.toList).tokens.length ∧
      (compile source false).outcome =
        .error (.malformedAt source.toList token.loc
          (Failure.message ⟨problem, token⟩)) := by
  have atToken := fails
  rw [Lexed.tokens_ofSource] at atToken
  rcases CompilationUnit.exists_begun_of_read rfl Lexed.fits_of_mem_survey atToken with
    ⟨seen, token, later, split, behind, _⟩
  rw [← Lexed.tokens_ofSource] at split
  refine ⟨seen.length, token, ?_, ?_, ?_⟩
  · rw [split, List.getElem?_append_right (Nat.le_refl _), Nat.sub_self]
    rfl
  · rw [split, behind, List.length_append]
  · rw [@outcome_compile_of_read source false _ rfl]
    change ((CompilationUnit.ofTokens? (Lexed.ofSource source.toList).tokens).mapError
      _).map _ = _
    rw [CompilationUnit.ofTokens?, fails]
    change Except.error (Failure.diagnose source.toList ⟨problem, stuck.rest.head?⟩) = _
    rw [behind]
    rfl

/-- Layout does not matter. Where the tokens of two sources have the same kinds
and texts, both sources compile, to the same program, or neither does, and the
same message is given, at the same token of both. -/
theorem compile_layout (source other : String) (lexed lexedToo : Lexed)
    (reads : (Lexed.read source.toList false).outcome = .ok lexed)
    (readsToo : (Lexed.read other.toList false).outcome = .ok lexedToo)
    (same : lexed.tokens.map (fun token => (token.kind, token.text)) =
      lexedToo.tokens.map (fun token => (token.kind, token.text))) :
    (∃ program, (compile source false).outcome = .ok ⟨program, lexed.skipped⟩ ∧
      (compile other false).outcome = .ok ⟨program, lexedToo.skipped⟩) ∨
    ∃ (k : Nat) (token tokenToo : Token) (message : String),
      lexed.tokens[k]? = some token ∧ lexedToo.tokens[k]? = some tokenToo ∧
      (compile source false).outcome =
        .error (.malformedAt source.toList token.loc message) ∧
      (compile other false).outcome =
        .error (.malformedAt other.toList tokenToo.loc message) := by
  rcases Lexed.eq_ofSource_of_read reads with rfl
  rcases Lexed.eq_ofSource_of_read readsToo with rfl
  have spelled : (Lexed.ofSource source.toList).tokens.map Token.lexeme =
      (Lexed.ofSource other.toList).tokens.map Token.lexeme := by
    have asPair : Token.lexeme =
        (fun pair => ⟨pair.1, pair.2⟩) ∘
          fun token : Token => (token.kind, token.text) := rfl
    rw [asPair, ← List.map_map, same, List.map_map]
  rcases CompilationUnit.read_or_fails spelled Budget.unused with
    ⟨unit, after, afterToo, run, runToo⟩ |
      ⟨problem, stuck, stuckToo, run, runToo, lengths⟩
  · left
    refine ⟨⟨unit.code⟩, ?_, ?_⟩
    · rw [outcome_compile_of_read reads, CompilationUnit.ofTokens?, run]
      rfl
    · rw [outcome_compile_of_read readsToo, CompilationUnit.ofTokens?, runToo]
      rfl
  · right
    rcases exists_token_of_read run with ⟨k, token, found, left, reported⟩
    rcases exists_token_of_read runToo with
      ⟨kToo, tokenToo, foundToo, leftToo, reportedToo⟩
    have sameLength := congrArg List.length spelled
    rw [List.length_map, List.length_map] at sameLength
    have sameIndex : kToo = k := by omega
    rw [sameIndex] at foundToo
    have sameLexeme := congrArg (·[k]?) spelled
    simp only [List.getElem?_map, found, foundToo, Option.map_some, Option.some.injEq]
      at sameLexeme
    rw [← Failure.message_of_lexeme_eq sameLexeme] at reportedToo
    exact ⟨k, token, tokenToo, _, found, foundToo, reported, reportedToo⟩

/-- The second comparison is wrong on whatever line it stands, and whatever is
skipped before it. -/
theorem compile_layout_comparison :
    ((Lexed.ofSource "x=a<b<c;".toList).tokens.map fun token =>
        (token.kind, token.text)) =
      ((Lexed.ofSource "x = a < b//\n  @< c;".toList).tokens.map fun token =>
        (token.kind, token.text)) ∧
    ((∃ program, (compile "x=a<b<c;" false).outcome =
        .ok ⟨program, (Lexed.ofSource "x=a<b<c;".toList).skipped⟩ ∧
      (compile "x = a < b//\n  @< c;" false).outcome =
        .ok ⟨program, (Lexed.ofSource "x = a < b//\n  @< c;".toList).skipped⟩) ∨
    ∃ (k : Nat) (token tokenToo : Token) (message : String),
      (Lexed.ofSource "x=a<b<c;".toList).tokens[k]? = some token ∧
      (Lexed.ofSource "x = a < b//\n  @< c;".toList).tokens[k]? = some tokenToo ∧
      (compile "x=a<b<c;" false).outcome =
        .error (.malformedAt "x=a<b<c;".toList token.loc message) ∧
      (compile "x = a < b//\n  @< c;" false).outcome =
        .error (.malformedAt "x = a < b//\n  @< c;".toList tokenToo.loc message)) := by
  have same :
      ((Lexed.ofSource "x=a<b<c;".toList).tokens.map fun token =>
        (token.kind, token.text)) =
      ((Lexed.ofSource "x = a < b//\n  @< c;".toList).tokens.map fun token =>
        (token.kind, token.text)) := by
    decide +kernel
  exact ⟨same, compile_layout _ _ _ _ rfl rfl same⟩

end StackCompiler
