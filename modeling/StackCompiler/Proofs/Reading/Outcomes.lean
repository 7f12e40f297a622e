import StackCompiler.Parsing.Cursor
import StackCompiler.Proofs.Grammar.Spelling

/-!
# When reading succeeds

For each primitive of the parsers, the results and the cursors it leads
to. What a parser made of these reads follows by taking its steps apart
with `bind_eq_ok_iff`.
-/

namespace StackCompiler

/-- The lexeme of the next token. -/
def Cursor.next? (cursor : Cursor) : Option Lexeme := cursor.rest.head?.map Token.lexeme

namespace Parser

variable {α β : Type} {before after : Cursor}

theorem bind_eq_ok_iff {parser : Parser α} {next : α → Parser β} {result : β} :
    (parser >>= next) before = .ok result after ↔
    ∃ first between, parser before = .ok first between ∧
      next first between = .ok result after := by
  simp only [bind, EStateM.bind]
  cases parser before with
  | ok first between => simp [and_assoc]
  | error problem between => simp

theorem pure_eq_ok_iff {value result : α} :
    (pure value : Parser α) before = .ok result after ↔
    value = result ∧ before = after := by
  change EStateM.Result.ok value before = .ok result after ↔ _
  rw [EStateM.Result.ok.injEq]

theorem throw_eq_ok_iff {problem : Problem} {result : α} :
    (throw problem : Parser α) before = .ok result after ↔ False := by
  change EStateM.Result.error problem before = .ok result after ↔ _
  simp

theorem discard_eq_ok_iff {parser : Parser α} {result : PUnit} :
    (discard parser : Parser PUnit) before = .ok result after ↔
      ∃ found, parser before = .ok found after := by
  change EStateM.map (Function.const α PUnit.unit) parser before = _ ↔ _
  rw [EStateM.map]
  cases parser before with
  | ok found between => simp
  | error problem between => simp

/-! ### Looking at the next token -/

theorem peek?_eq_ok_iff {result : Option Token} :
    peek? before = .ok result after ↔ before.rest.head? = result ∧ before = after := by
  change EStateM.Result.ok before.rest.head? before = .ok result after ↔ _
  rw [EStateM.Result.ok.injEq]

theorem atEnd_eq_ok_iff {result : Bool} :
    atEnd before = .ok result after ↔
      before.rest.head?.all Token.isEnd = result ∧ before = after := by
  change EStateM.Result.ok (before.rest.head?.all Token.isEnd) before =
      .ok result after ↔ _
  rw [EStateM.Result.ok.injEq]

/-- To look for an identifier first changes nothing where an identifier stands. -/
theorem peekIdentifier_eq_ok_iff {problem : Problem} {parser : Parser α} {result : α} :
    (do
      match (← peek?).bind Token.identifier? with
      | some _ => parser
      | none => throw problem : Parser α) before = .ok result after ↔
      (∃ name, before.next? = some (.identifier name)) ∧
          parser before = .ok result after := by
  simp only [bind_eq_ok_iff, peek?_eq_ok_iff, Cursor.next?, Option.map_eq_some_iff,
    ← Token.identifier?_eq_some_iff]
  constructor
  · intro accepted
    rcases accepted with ⟨_, _, ⟨rfl, rfl⟩, rest⟩
    cases next : before.rest.head?.bind Token.identifier? with
    | none =>
        rw [next] at rest
        exact absurd rest throw_eq_ok_iff.1
    | some name =>
        rw [next] at rest
        obtain ⟨token, isNext, isName⟩ := Option.bind_eq_some_iff.1 next
        exact ⟨⟨name, token, isNext, isName⟩, rest⟩
  · intro derived
    rcases derived with ⟨⟨name, token, isNext, isName⟩, reads⟩
    refine ⟨_, before, ⟨rfl, rfl⟩, ?_⟩
    rw [isNext, Option.bind_some, isName]
    exact reads

/-! ### Taking the next token -/

theorem takeIf?_eq {use? : Token → Option α} : takeIf? use? before =
    match before.rest.head?.bind use? with
    | none => .ok none before
    | some result => .ok (some result) { before with rest := before.rest.tail } := by
  cases before with
  | mk rest budget => cases rest <;> rfl

/-- Either nothing happens, or there is a token that is of use. -/
theorem takeIf?_eq_or (use? : Token → Option α) (start : Cursor) :
    takeIf? use? start = .ok none start ∨
    ∃ token rest result, start.rest = token :: rest ∧
      use? token = some result ∧
      takeIf? use? start = .ok (some result) ⟨rest, start.budget⟩ := by
  rw [takeIf?_eq]
  cases used : start.rest.head?.bind use? with
  | none => exact .inl rfl
  | some result =>
      obtain ⟨token, isNext, isUsed⟩ := Option.bind_eq_some_iff.1 used
      obtain ⟨rest, split⟩ := List.head?_eq_some_iff.1 isNext
      refine .inr ⟨token, rest, result, split, isUsed, ?_⟩
      simp only [split, List.tail_cons]

theorem takeIf?_eq_none_iff {use? : Token → Option α} :
    takeIf? use? before = .ok none after ↔
      before.rest.head?.bind use? = none ∧ before = after := by
  obtain ⟨rest, budget⟩ := before
  cases rest with
  | nil => simp [takeIf?]
  | cons token rest =>
      simp only [takeIf?, List.head?_cons, Option.bind_some]
      split
      next unused => simp [unused]
      next result used => simp [used]

theorem takeIf?_eq_some_iff {use? : Token → Option α} {result : α} :
    takeIf? use? before = .ok (some result) after ↔
      after.budget = before.budget ∧
        ∃ token, before.rest = token :: after.rest ∧ use? token = some result := by
  obtain ⟨rest, budget⟩ := before
  obtain ⟨left, kept⟩ := after
  cases rest with
  | nil => simp [takeIf?]
  | cons token rest =>
      simp only [takeIf?]
      split
      next unused => simp [unused]
      next other used =>
        simp only [EStateM.Result.ok.injEq, Option.some.injEq, Cursor.mk.injEq,
          List.cons.injEq]
        constructor
        · intro accepted
          rcases accepted with ⟨rfl, rfl, rfl⟩
          exact ⟨rfl, token, ⟨rfl, rfl⟩, used⟩
        · intro derived
          rcases derived with ⟨rfl, _, ⟨rfl, rfl⟩, useful⟩
          rw [used, Option.some.injEq] at useful
          exact ⟨useful, rfl, rfl⟩

theorem take_eq_ok_iff {wanted : Wanted} {use? : Token → Option α} {result : α} :
    take wanted use? before = .ok result after ↔
      after.budget = before.budget ∧
        ∃ token, before.rest = token :: after.rest ∧ use? token = some result := by
  simp only [take, bind_eq_ok_iff, Option.exists, throw_eq_ok_iff, and_false,
    exists_false, false_or, pure_eq_ok_iff]
  constructor
  · intro accepted
    rcases accepted with ⟨_, _, taken, rfl, rfl⟩
    exact takeIf?_eq_some_iff.1 taken
  · intro taken
    exact ⟨result, after, takeIf?_eq_some_iff.2 taken, rfl, rfl⟩

theorem takeIf?_textOf?_eq_some_iff {kind : Token.Kind} {text : String} :
    takeIf? (Token.textOf? kind) before = .ok (some text) after ↔
      after.budget = before.budget ∧ Spells [⟨kind, text⟩] before.rest after.rest := by
  simp only [takeIf?_eq_some_iff, Token.textOf?_eq_some_iff, Spells.cons_iff,
    Spells.nil_iff]
  constructor
  · intro accepted
    rcases accepted with ⟨same, token, taken, isText⟩
    exact ⟨same, token, _, taken, isText, rfl⟩
  · intro derived
    rcases derived with ⟨same, token, _, taken, isText, rfl⟩
    exact ⟨same, token, taken, isText⟩

theorem takeIf?_textOf?_eq_none_iff {kind : Token.Kind} :
    takeIf? (Token.textOf? kind) before = .ok none after ↔
      (∀ text, before.next? ≠ some ⟨kind, text⟩) ∧ before = after := by
  rw [takeIf?_eq_none_iff, Cursor.next?]
  cases before.rest.head? with
  | none => simp
  | some token =>
      simp [Option.eq_none_iff_forall_ne_some, Token.textOf?_eq_some_iff]

theorem take_textOf?_eq_ok_iff {wanted : Wanted} {kind : Token.Kind} {text : String} :
    take wanted (Token.textOf? kind) before = .ok text after ↔
      after.budget = before.budget ∧ Spells [⟨kind, text⟩] before.rest after.rest := by
  rw [take_eq_ok_iff, ← takeIf?_eq_some_iff, takeIf?_textOf?_eq_some_iff]

/-- A token that is filtered by its text is of use if it spells the lexeme. -/
theorem takeIf?_filter_eq_some_iff {kind : Token.Kind} {text found : String} :
    takeIf? (fun token => (token.textOf? kind).filter (· == text)) before =
      .ok (some found) after ↔
    found = text ∧ after.budget = before.budget ∧
    Spells [⟨kind, text⟩] before.rest after.rest := by
  simp only [takeIf?_eq_some_iff, Option.filter_eq_some_iff, Token.textOf?_eq_some_iff,
    beq_iff_eq, Spells.cons_iff, Spells.nil_iff]
  constructor
  · intro accepted
    rcases accepted with ⟨same, token, taken, isText, rfl⟩
    exact ⟨rfl, same, token, _, taken, isText, rfl⟩
  · intro derived
    rcases derived with ⟨rfl, same, token, _, taken, isText, rfl⟩
    exact ⟨same, token, taken, isText, rfl⟩

theorem takeIf?_filter_eq_none_iff {kind : Token.Kind} {text : String} :
    takeIf? (fun token => (token.textOf? kind).filter (· == text)) before =
      .ok none after ↔
    before.next? ≠ some ⟨kind, text⟩ ∧ before = after := by
  obtain ⟨rest, budget⟩ := before
  cases rest with
  | nil => simp [takeIf?_eq_none_iff, Cursor.next?]
  | cons token rest =>
      simp only [takeIf?_eq_none_iff, Cursor.next?, List.head?_cons, Option.bind_some,
        Option.map_some, Option.filter_eq_none_iff, Token.textOf?_eq_some_iff,
        beq_iff_eq, ne_eq, Option.some.injEq]
      constructor
      · intro accepted
        rcases accepted with ⟨other, rfl⟩
        exact ⟨fun same => other _ same rfl, rfl⟩
      · intro derived
        rcases derived with ⟨other, rfl⟩
        exact ⟨fun _ isText same => other (same ▸ isText), rfl⟩

theorem accept_eq_true_iff {kind : Token.Kind} {text : String} :
    (do return (← takeIf? fun token => (token.textOf? kind).filter (· == text)).isSome :
      Parser Bool) before = .ok true after ↔
      after.budget = before.budget ∧ Spells [⟨kind, text⟩] before.rest after.rest := by
  simp only [bind_eq_ok_iff, pure_eq_ok_iff, Option.exists, Option.isSome_none,
    Bool.false_eq_true, false_and, and_false, exists_false, false_or,
    Option.isSome_some, true_and]
  constructor
  · intro accepted
    rcases accepted with ⟨found, _, taken, rfl⟩
    exact (takeIf?_filter_eq_some_iff.1 taken).2
  · intro taken
    exact ⟨text, after, takeIf?_filter_eq_some_iff.2 ⟨rfl, taken⟩, rfl⟩

theorem accept_eq_false_iff {kind : Token.Kind} {text : String} :
    (do return (← takeIf? fun token => (token.textOf? kind).filter (· == text)).isSome :
      Parser Bool) before = .ok false after ↔
      before.next? ≠ some ⟨kind, text⟩ ∧ before = after := by
  simp only [bind_eq_ok_iff, pure_eq_ok_iff, Option.exists, Option.isSome_none,
    Option.isSome_some, Bool.true_eq_false, false_and, and_false, exists_false,
    or_false, true_and]
  constructor
  · intro accepted
    rcases accepted with ⟨_, taken, rfl⟩
    exact takeIf?_filter_eq_none_iff.1 taken
  · intro taken
    exact ⟨after, takeIf?_filter_eq_none_iff.2 taken, rfl⟩

theorem acceptPunctuator_eq_true_iff {symbol : String} :
    acceptPunctuator symbol before = .ok true after ↔
      after.budget = before.budget ∧ Spells [.mark symbol] before.rest after.rest :=
  accept_eq_true_iff

theorem acceptPunctuator_eq_false_iff {symbol : String} :
    acceptPunctuator symbol before = .ok false after ↔
      before.next? ≠ some (.mark symbol) ∧ before = after :=
  accept_eq_false_iff

theorem acceptKeyword_eq_true_iff {word : String} :
    acceptKeyword word before = .ok true after ↔
      after.budget = before.budget ∧ Spells [.keyword word] before.rest after.rest :=
  accept_eq_true_iff

theorem acceptKeyword_eq_false_iff {word : String} :
    acceptKeyword word before = .ok false after ↔
      before.next? ≠ some (.keyword word) ∧ before = after :=
  accept_eq_false_iff

theorem punctuator_eq_ok_iff {symbol : String} {result : PUnit} :
    punctuator symbol before = .ok result after ↔
      after.budget = before.budget ∧ Spells [.mark symbol] before.rest after.rest := by
  simp only [punctuator, bind_eq_ok_iff, Bool.exists_bool]
  simp only [Bool.false_eq_true, if_false, if_true, throw_eq_ok_iff, and_false,
    exists_false, false_or, pure_eq_ok_iff, acceptPunctuator_eq_true_iff]
  constructor
  · intro accepted
    rcases accepted with ⟨_, taken, _, rfl⟩
    exact taken
  · intro taken
    exact ⟨after, taken, trivial, rfl⟩

/-! ### Keeping account of the limits -/

theorem nested_eq_ok_iff {body : Parser α} {result : α} :
    nested body before = .ok result after ↔
      ∃ deeper inner, before.budget.deepen? = some deeper ∧
        body { before with budget := deeper } = .ok result inner ∧
        { inner with budget := inner.budget.surface } = after := by
  simp only [nested]
  cases before.budget.deepen? with
  | none => simp
  | some deeper =>
      cases reads : body { before with budget := deeper } with
      | ok first inner => simp [reads, and_assoc]
      | error problem inner => simp [reads]

theorem link_eq_ok_iff {result : PUnit} :
    link before = .ok result after ↔
      ∃ longer, before.budget.extend? = some longer ∧
          { before with budget := longer } = after := by
  simp only [link]
  cases before.budget.extend? with
  | none => simp
  | some longer => simp

theorem unlink_eq_ok_iff {links : Nat} {result : PUnit} :
    unlink links before = .ok result after ↔
      { before with budget := before.budget.release links } = after := by
  change EStateM.Result.ok PUnit.unit _ = .ok result after ↔ _
  simp

end Parser

end StackCompiler
