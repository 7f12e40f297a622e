import StackCompiler.Proofs.Reading.Building

/-!
# Telling tokens in another way

Tokens are told in another way if, one by one, they still spell the same up to
their end, whatever becomes of their places and of what stands behind the end.
All that a parser finds out is what the tokens before it spell, so of tokens
told in another way it reads the same, and what is left to be read is told in
that way too (`CompilationUnit.retold_read`).
-/

namespace StackCompiler

/-- Whether tokens told in another way spell the same up to their end. -/
structure Retelling (tell : List Token → List Token) : Prop where
  head : ∀ tokens, Token.spelling? (tell tokens).head? = Token.spelling? tokens.head?
  tail : ∀ {token : Token} {rest : List Token}, token.isEnd = false →
    (tell (token :: rest)).tail = tell rest

/-- The cursor before tokens told in another way. -/
def Cursor.retell (tell : List Token → List Token) (cursor : Cursor) : Cursor :=
  { cursor with rest := tell cursor.rest }

/-- The same outcome before tokens told in another way. -/
def Outcome.retell {α : Type} (tell : List Token → List Token) : Outcome α → Outcome α
  | .ok result after => .ok result (after.retell tell)
  | .error problem stuck => .error problem (stuck.retell tell)

namespace Parser

variable {α β : Type} {tell : List Token → List Token}

/-- Whether a parser does the same before tokens told in another way. -/
def Retold (tell : List Token → List Token) (parser : Parser α) : Prop :=
  ∀ start : Cursor, parser (start.retell tell) = Outcome.retell tell (parser start)

/-- Where each step reads a token, no more steps than there are tokens make no
difference to a repetition. -/
theorem manyWithin_eq {step? : Parser (Option α)}
    (progress : ∀ {start result after}, step? start = .ok (some result) after →
      after.rest.length < start.rest.length) {start : Cursor} {bound other : List Token}
    (enough : start.rest.length ≤ bound.length)
    (enoughToo : start.rest.length ≤ other.length) (done : List α) :
    manyWithin step? done bound start = manyWithin step? done other start := by
  cases run : manyWithin step? done other start with
  | ok results after =>
      rw [manyWithin_eq_ok_iff progress enoughToo] at run
      exact (manyWithin_eq_ok_iff progress enough).2 run
  | error problem stuck =>
      rw [manyWithin_eq_error_iff progress enoughToo] at run
      exact (manyWithin_eq_error_iff progress enough).2 run

namespace Retold

theorem bind {parser : Parser α} {next : α → Parser β} (first : parser.Retold tell)
    (second : ∀ result, (next result).Retold tell) : (parser >>= next).Retold tell := by
  intro start
  simp only [Bind.bind, EStateM.bind]
  rw [first start]
  cases parser start with
  | error problem stuck => rfl
  | ok result between => exact second result between

theorem peek (told : Retelling tell) {next : Option Token → Parser α}
    (spelled : next.FactorsThrough Token.spelling?)
    (second : ∀ found, (next found).Retold tell) :
    (Parser.peek? >>= next).Retold tell := by
  intro start
  change next (tell start.rest).head? (start.retell tell) =
    Outcome.retell tell (next start.rest.head? start)
  rw [spelled (told.head start.rest)]
  exact second _ start

theorem takeIf? (told : Retelling tell) {use? : Token → Option α}
    (spelled : Function.FactorsThrough
      (fun found : Option Token => found.bind use?) Token.spelling?) :
    (Parser.takeIf? use?).Retold tell := by
  intro start
  have same : (tell start.rest).head?.bind use? = start.rest.head?.bind use? :=
    spelled (told.head start.rest)
  rw [Parser.takeIf?_eq, Parser.takeIf?_eq]
  simp only [Cursor.retell, same]
  cases used : start.rest.head?.bind use? with
  | none => rfl
  | some result =>
      obtain ⟨token, isNext, isUsed⟩ := Option.bind_eq_some_iff.1 used
      obtain ⟨rest, split⟩ := List.head?_eq_some_iff.1 isNext
      simp only [split, told.tail (Token.isEnd_of_use spelled isUsed)]
      rfl

theorem nested {body : Parser α} (inside : body.Retold tell) :
    (Parser.nested body).Retold tell := by
  intro start
  simp only [Parser.nested, Cursor.retell]
  cases start.budget.deepen? with
  | none => rfl
  | some deeper =>
      have same := inside ⟨start.rest, deeper⟩
      simp only [Cursor.retell] at same ⊢
      rw [same]
      cases body ⟨start.rest, deeper⟩ <;> rfl

theorem link : Parser.link.Retold tell := by
  intro start
  simp only [Parser.link, Cursor.retell]
  cases start.budget.extend? <;> rfl

/-- A repetition takes as many steps before tokens told in another way. -/
theorem manyWithin {step? : Parser (Option α)} (each : step?.Retold tell)
    (done : List α) (bound : List Token) :
    (Parser.manyWithin step? done bound).Retold tell := by
  induction bound generalizing done with
  | nil =>
      rw [Parser.manyWithin]
      apply bind each
      intro found
      cases found <;> exact fun _ => rfl
  | cons token bound ih =>
      rw [Parser.manyWithin]
      apply bind each
      intro found
      cases found with
      | none => exact fun _ => rfl
      | some result => exact ih (result :: done)

theorem many {step? : Parser (Option α)} (each : step?.Retold tell)
    (progress : ∀ {start result after}, step? start = .ok (some result) after →
      after.rest.length < start.rest.length) : (Parser.many step?).Retold tell := by
  intro start
  have enough : start.rest.length ≤ (start.rest ++ tell start.rest).length := by simp
  have enoughToo :
      (start.retell tell).rest.length ≤ (start.rest ++ tell start.rest).length := by
    simp [Cursor.retell]
  change Parser.manyWithin step? [] (start.retell tell).rest (start.retell tell) =
    Outcome.retell tell (Parser.manyWithin step? [] start.rest start)
  rw [manyWithin_eq progress (Nat.le_refl _) enoughToo, each.manyWithin,
    manyWithin_eq progress enough (Nat.le_refl _)]

theorem compositional (told : Retelling tell) : Compositional (Retold tell) where
  pure _ _ := rfl
  throw _ _ := rfl
  bind := .bind
  peek := .peek told
  takeIf? := .takeIf? told
  nested := .nested
  link := .link
  unlink _ _ := rfl
  many := .many

end Retold

end Parser

/-- Programs are read alike, however their tokens are told. -/
theorem CompilationUnit.retold_read {tell : List Token → List Token}
    (told : Retelling tell) : CompilationUnit.read.Retold tell :=
  holds_read (Parser.Retold.compositional told)

end StackCompiler
