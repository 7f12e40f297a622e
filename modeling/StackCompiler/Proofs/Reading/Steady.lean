import StackCompiler.Proofs.Reading.Building

/-!
# Where reading leads

Wherever reading leads, be it to a result or to a problem, it has only taken
tokens that are not the end, and it has closed every nesting level that it has
opened (`Expr.steady_operandWithin`, `Stmt.steady_readWithin`).
-/

namespace StackCompiler

/-- Whether reading can lead from one cursor to another one. The tokens between
them are not the end, and as many nesting levels are open. -/
structure Cursor.LeadsTo (start after : Cursor) : Prop where
  depth : after.budget.depth = start.budget.depth
  taken : ∃ taken, start.rest = taken ++ after.rest ∧
    ∀ token ∈ taken, token.isEnd = false

namespace Cursor.LeadsTo

variable {start between after : Cursor}

theorem refl (cursor : Cursor) : cursor.LeadsTo cursor :=
  ⟨rfl, [], rfl, List.forall_mem_nil _⟩

theorem trans (first : start.LeadsTo between) (second : between.LeadsTo after) :
    start.LeadsTo after := by
  obtain ⟨taken, split, inner⟩ := first.taken
  obtain ⟨more, splitMore, innerMore⟩ := second.taken
  refine ⟨second.depth.trans first.depth, taken ++ more, ?_, ?_⟩
  · rw [split, splitMore, List.append_assoc]
  · exact List.forall_mem_append.2 ⟨inner, innerMore⟩

theorem isSuffix (leads : start.LeadsTo after) : after.rest <:+ start.rest := by
  obtain ⟨taken, split, _⟩ := leads.taken
  exact ⟨taken, split.symm⟩

theorem of_rest_eq (depth : after.budget.depth = start.budget.depth)
    (same : after.rest = start.rest) : start.LeadsTo after :=
  ⟨depth, [], same.symm, List.forall_mem_nil _⟩

end Cursor.LeadsTo

namespace Parser

variable {α β : Type}

/-- Whether a parser leads from every cursor to one that it may lead to. -/
def Steady (parser : Parser α) : Prop :=
  ∀ start : Cursor, start.LeadsTo (Outcome.cursor (parser start))

namespace Steady

theorem leadsTo_of_ok {parser : Parser α} (steady : parser.Steady)
    {start after : Cursor} {result : α} (reads : parser start = .ok result after) :
    start.LeadsTo after := by
  have leads := steady start
  rwa [reads] at leads

theorem leadsTo_of_error {parser : Parser α} (steady : parser.Steady)
    {start stuck : Cursor} {problem : Problem}
    (fails : parser start = .error problem stuck) : start.LeadsTo stuck := by
  have leads := steady start
  rwa [fails] at leads

theorem bind {parser : Parser α} {next : α → Parser β} (first : parser.Steady)
    (second : ∀ result, (next result).Steady) : (parser >>= next).Steady := by
  intro start
  have leads := first start
  change start.LeadsTo (Outcome.cursor (EStateM.bind parser next start))
  rw [EStateM.bind]
  cases reads : parser start with
  | error problem stuck => rwa [reads] at leads
  | ok result between =>
      rw [reads] at leads
      exact leads.trans (second result between)

theorem takeIf? {use? : Token → Option α}
    (spelled : Function.FactorsThrough
      (fun found : Option Token => found.bind use?) Token.spelling?) :
    (Parser.takeIf? use?).Steady := by
  intro start
  rcases takeIf?_eq_or use? start with unused |
    ⟨token, rest, result, split, used, taken⟩
  · rw [unused]
    exact .refl start
  · rw [taken]
    exact ⟨rfl, [token], split,
      List.forall_mem_singleton.2 (Token.isEnd_of_use spelled used)⟩

theorem cursor_nested {body : Parser α} {start : Cursor} {deeper : Budget}
    (opened : start.budget.deepen? = some deeper) :
    let inner := Outcome.cursor (body { start with budget := deeper })
    Outcome.cursor (Parser.nested body start) =
        { inner with budget := inner.budget.surface } := by
  rw [Parser.nested, opened]
  simp only
  cases body { start with budget := deeper } <;> rfl

/-- The level that is closed in the end is the one that was opened, so
one is open then. -/
theorem depth_inside {body : Parser α} (inside : body.Steady) (rest : List Token)
    {budget deeper : Budget} (opened : budget.deepen? = some deeper) :
    (Outcome.cursor (body ⟨rest, deeper⟩)).budget.depth = budget.depth + 1 :=
  (inside _).depth.trans (Budget.deepen?_eq_some_iff.1 opened).1

theorem nested {body : Parser α} (inside : body.Steady) :
    (Parser.nested body).Steady := by
  intro start
  cases opened : start.budget.deepen? with
  | none =>
      rw [Parser.nested, opened]
      exact .refl start
  | some deeper =>
      rw [cursor_nested opened]
      have closes := Nat.sub_eq_of_eq_add (inside.depth_inside start.rest opened)
      exact ⟨closes, (inside { start with budget := deeper }).taken⟩

theorem link : Parser.link.Steady := by
  intro start
  rw [Parser.link]
  cases used : start.budget.extend? with
  | none => exact .refl start
  | some longer => exact .of_rest_eq (Budget.extend?_eq_some_iff.1 used).1 rfl

variable {step? : Parser (Option α)}

theorem leadsTo_of_repeats (each : step?.Steady) {start last : Cursor}
    {results : List α} (repeated : Repeats step? start results last) :
    start.LeadsTo last := by
  induction repeated with
  | nil => exact .refl _
  | cons reads _ ih => exact (each.leadsTo_of_ok reads).trans ih

theorem many (each : step?.Steady)
    (progress : ∀ {start result after}, step? start = .ok (some result) after →
      after.rest.length < start.rest.length) : (Parser.many step?).Steady := by
  intro start
  cases outcome : Parser.many step? start with
  | ok results after =>
      obtain ⟨last, repeated, stops⟩ := (many_eq_ok_iff progress).1 outcome
      exact (each.leadsTo_of_repeats repeated).trans (each.leadsTo_of_ok stops)
  | error problem stuck =>
      obtain ⟨results, last, repeated, fails⟩ := (many_eq_error_iff progress).1 outcome
      exact (each.leadsTo_of_repeats repeated).trans (each.leadsTo_of_error fails)

theorem compositional : Compositional @Steady where
  pure _ _ := .refl _
  throw _ _ := .refl _
  bind := .bind
  peek _ next := .bind (fun _ => .refl _) next
  takeIf? := .takeIf?
  nested := .nested
  link := .link
  unlink _ _ := .of_rest_eq rfl rfl
  many := .many

end Steady

end Parser

/-! ### The parts of a program -/

section

open StackCompiler.Parser.Steady

theorem Expr.steady_readDesignator : Expr.readDesignator.Steady :=
  holds_readDesignator compositional.toSequential

theorem Expr.steady_operandWithin (levels : Nat) : (Expr.operandWithin levels).Steady :=
  holds_operandWithin compositional levels

theorem Expr.steady_read : Expr.read.Steady := holds_read compositional

theorem Stmt.steady_readWithin (levels : Nat) : (Stmt.readWithin levels).Steady :=
  holds_readWithin compositional.toSequential Expr.steady_read levels

theorem Stmt.steady_another? : Stmt.another?.Steady :=
  holds_another? compositional.toSequential Expr.steady_read

theorem Declaration.steady_readAll : Declaration.readAll.Steady :=
  holds_readAll compositional.toSequential

end

end StackCompiler
