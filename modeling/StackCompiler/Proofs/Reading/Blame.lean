import StackCompiler.Proofs.Reading.Steady

/-!
# Who is to blame

The limits are the same for every statement of a program and for every
expression of a statement, whatever comes before them. So where a program has
too many operators, it has one expression that has too many of them by itself
(`CompilationUnit.exists_expression_of_tooLong`), and where a program is not
read for any reason, it has one statement that is not read by itself
(`CompilationUnit.exists_statement_of_error`).
-/

namespace StackCompiler

/-- Whether an outcome keeps to the end of some tokens and to the operator links in use,
or has too many operators for an expression that has too many by itself. -/
def Outcome.Accountable {α : Type} (tokens : List Token) (links : Nat) :
    Outcome α → Prop
  | .ok _ after => after.rest <:+ tokens ∧ after.budget.chain = links
  | .error problem stuck => problem = .tooLong →
    ∃ start failed : Cursor, start.rest <:+ tokens ∧ start.budget.chain = links ∧
      Expr.read start = .error .tooLong failed ∧ failed.rest = stuck.rest

namespace Parser

variable {α β : Type} {tokens : List Token} {links : Nat}

/-- Whether a parser accounts for its outcomes, from wherever it starts. -/
def Accountable (tokens : List Token) (links : Nat) (parser : Parser α) : Prop :=
  ∀ start : Cursor, start.rest <:+ tokens → start.budget.chain = links →
    Outcome.Accountable tokens links (parser start)

namespace Accountable

theorem pure (value : α) : (Pure.pure value : Parser α).Accountable tokens links :=
  fun _ isSuffix chain => ⟨isSuffix, chain⟩

theorem throw {problem : Problem} (other : problem ≠ .tooLong) :
    (MonadExcept.throw problem : Parser α).Accountable tokens links :=
  fun _ _ _ tooLong => absurd tooLong other

theorem bind {parser : Parser α} {next : α → Parser β}
    (first : parser.Accountable tokens links)
    (second : ∀ result, (next result).Accountable tokens links) :
    (parser >>= next).Accountable tokens links := by
  intro start isSuffix chain
  have accounts := first start isSuffix chain
  change Outcome.Accountable tokens links (EStateM.bind parser next start)
  rw [EStateM.bind]
  cases reads : parser start with
  | error problem stuck => rwa [reads] at accounts
  | ok result between =>
      rw [reads] at accounts
      exact second result between accounts.1 accounts.2

theorem takeIf? (use? : Token → Option α) :
    (Parser.takeIf? use?).Accountable tokens links := by
  intro start isSuffix chain
  rcases takeIf?_eq_or use? start with unused | ⟨token, rest, result, split, _, taken⟩
  · rw [unused]
    exact ⟨isSuffix, chain⟩
  · rw [taken]
    rw [split] at isSuffix
    exact ⟨(List.suffix_cons token rest).trans isSuffix, chain⟩

theorem nested {body : Parser α} (inside : body.Accountable tokens links) :
    (Parser.nested body).Accountable tokens links := by
  intro start isSuffix chain
  rw [Parser.nested]
  cases opened : start.budget.deepen? with
  | none =>
      intro tooLong
      contradiction
  | some deeper =>
      have accounts := inside ⟨start.rest, deeper⟩ isSuffix
        ((Budget.deepen?_eq_some_iff.1 opened).2.trans chain)
      simp only
      cases reads : body ⟨start.rest, deeper⟩ with
      | ok result after =>
          rw [reads] at accounts
          exact accounts
      | error problem stuck =>
          rw [reads] at accounts
          exact accounts

theorem of_repeats {step? : Parser (Option α)} (each : step?.Accountable tokens links)
    {start last : Cursor} {results : List α}
    (repeated : Repeats step? start results last) (isSuffix : start.rest <:+ tokens)
    (chain : start.budget.chain = links) :
    last.rest <:+ tokens ∧ last.budget.chain = links := by
  induction repeated with
  | nil => exact ⟨isSuffix, chain⟩
  | cons reads _ ih =>
      have accounts := each _ isSuffix chain
      rw [reads] at accounts
      exact ih accounts.1 accounts.2

theorem many {step? : Parser (Option α)} (each : step?.Accountable tokens links)
    (progress : ∀ {start result after}, step? start = .ok (some result) after →
      after.rest.length < start.rest.length) :
    (Parser.many step?).Accountable tokens links := by
  intro start isSuffix chain
  cases outcome : Parser.many step? start with
  | ok results after =>
      obtain ⟨last, repeated, stops⟩ := (many_eq_ok_iff progress).1 outcome
      obtain ⟨isSuffixToo, chainToo⟩ := each.of_repeats repeated isSuffix chain
      have accounts := each last isSuffixToo chainToo
      rwa [stops] at accounts
  | error problem stuck =>
      obtain ⟨results, last, repeated, fails⟩ := (many_eq_error_iff progress).1 outcome
      obtain ⟨isSuffixToo, chainToo⟩ := each.of_repeats repeated isSuffix chain
      have accounts := each last isSuffixToo chainToo
      rwa [fails] at accounts

theorem sequential (tokens : List Token) (links : Nat) :
    Sequential (Accountable tokens links) where
  pure := .pure
  throw := .throw
  bind := .bind
  peek _ second := .bind (fun _ isSuffix chain => ⟨isSuffix, chain⟩) second
  takeIf? _ := .takeIf? _
  nested := .nested
  many := .many

end Accountable

end Parser

open StackCompiler.Parser

/-- An expression accounts for itself. -/
theorem Expr.accountable_read (tokens : List Token) (links : Nat) :
    Expr.read.Accountable tokens links := by
  intro start isSuffix chain
  cases outcome : Expr.read start with
  | ok result after =>
      obtain ⟨same, _⟩ := reads_read.iff.1 outcome
      exact ⟨(steady_read.leadsTo_of_ok outcome).isSuffix.trans isSuffix, by
          rw [same, chain]⟩
  | error problem stuck =>
      intro tooLong
      rw [tooLong] at outcome
      exact ⟨start, stuck, isSuffix, chain, outcome, rfl⟩

theorem Stmt.read_eq_error_of_another? {last stuck : Cursor} {problem : Problem}
    (fails : Stmt.another? last = .error problem stuck) :
    Stmt.read last = .error problem stuck := by
  simp only [Stmt.another?, bind_eq_error_iff, atEnd_eq_error_iff, atEnd_eq_ok_iff,
    Bool.exists_bool, Bool.false_eq_true, if_false, if_true, pure_eq_error_iff,
    and_false, exists_false, or_false, false_or] at fails
  obtain ⟨_, ⟨_, rfl⟩, fails⟩ := fails
  exact fails

namespace CompilationUnit

theorem accountable_read (tokens : List Token) (links : Nat) :
    CompilationUnit.read.Accountable tokens links :=
  holds_read_of_expressions (Parser.Accountable.sequential tokens links)
    (Expr.accountable_read tokens links)

theorem read_of_ofTokens?_eq_error {tokens : List Token} {failure : Failure}
    (fails : ofTokens? tokens = .error failure) :
    ∃ stuck, CompilationUnit.read ⟨tokens, Budget.unused⟩ =
        .error failure.problem stuck ∧
      stuck.rest.head? = failure.found := by
  rw [ofTokens?] at fails
  cases outcome : CompilationUnit.read ⟨tokens, Budget.unused⟩ with
  | ok unit after =>
      rw [outcome] at fails
      contradiction
  | error problem stuck =>
      rw [outcome] at fails
      obtain rfl := Except.error.inj fails
      exact ⟨stuck, rfl, rfl⟩

/-- Where a program has too many operators, an expression has too many by itself. -/
theorem exists_expression_of_tooLong {tokens : List Token} {failure : Failure}
    (fails : ofTokens? tokens = .error failure) (tooLong : failure.problem = .tooLong) :
    ∃ start stuck : Cursor, start.rest <:+ tokens ∧ start.budget.chain = 0 ∧
      Expr.read start = .error .tooLong stuck ∧ stuck.rest.head? = failure.found := by
  obtain ⟨stuck, outcome, found⟩ := read_of_ofTokens?_eq_error fails
  have accounts := accountable_read tokens 0 ⟨tokens, Budget.unused⟩ List.suffix_rfl rfl
  rw [outcome] at accounts
  obtain ⟨start, failed, isSuffix, chain, failsAlone, same⟩ := accounts tooLong
  exact ⟨start, failed, isSuffix, chain, failsAlone, by rw [same, found]⟩

/-- Where a program is not read, its declarations are not, or a statement is not
read by itself. -/
theorem exists_statement_of_error {tokens : List Token} {failure : Failure}
    (fails : ofTokens? tokens = .error failure) :
    (∃ stuck, Declaration.readAll ⟨tokens, Budget.unused⟩ =
        .error failure.problem stuck ∧
      stuck.rest.head? = failure.found) ∨
    ∃ rest stuck, rest <:+ tokens ∧
      Stmt.read ⟨rest, Budget.unused⟩ = .error failure.problem stuck ∧
      stuck.rest.head? = failure.found := by
  obtain ⟨stuck, outcome, found⟩ := read_of_ofTokens?_eq_error fails
  rcases bind_eq_error_iff.1 outcome with failsDeclared |
    ⟨declarations, start, declared, outcome⟩
  · exact .inl ⟨stuck, failsDeclared, found⟩
  right
  have startIsSuffix := (Declaration.steady_readAll.leadsTo_of_ok declared).isSuffix
  have startUnused : start.budget = Budget.unused :=
    (Declaration.reads_readAll.iff.1 declared).1
  have outcome := (bind_eq_error_iff.1 outcome).resolve_right fun ⟨_, _, _, returns⟩ =>
      pure_eq_error_iff.1 returns
  obtain ⟨rest, budget⟩ := start
  obtain rfl : budget = Budget.unused := startUnused
  rcases bind_eq_error_iff.1 outcome with failsFirst |
    ⟨first, between, readsFirst, outcome⟩
  · exact ⟨rest, stuck, startIsSuffix, failsFirst, found⟩
  have outcome := (bind_eq_error_iff.1 outcome).resolve_right fun ⟨_, _, _, returns⟩ =>
      pure_eq_error_iff.1 returns
  obtain ⟨results, last, repeated, failsLast⟩ :=
    (many_eq_error_iff (Stmt.readsOn_another?.shorter (Stmt.lexemes_ne_nil _))).1
      outcome
  have sameBudget : last.budget = Budget.unused :=
    (Stmt.readsOn_another?.spells_of_repeats repeated).1.trans
      (Stmt.reads_read.iff.1 readsFirst).1
  have lastIsSuffix :=
    ((Stmt.steady_readWithin maxNesting).leadsTo_of_ok readsFirst).trans
    (Stmt.steady_another?.leadsTo_of_repeats repeated)
  obtain ⟨restOfLast, budget⟩ := last
  obtain rfl : budget = Budget.unused := sameBudget
  exact ⟨restOfLast, stuck, lastIsSuffix.isSuffix.trans startIsSuffix,
    Stmt.read_eq_error_of_another? failsLast, found⟩

end CompilationUnit

end StackCompiler
