import StackCompiler.Proofs.Reading.Language

/-!
# When reading fails

For each primitive of the parsers, the problems that it finds and the cursors at
which it finds them. Work in two parts fails where its first part does, or where
the second one does behind what the first one has read.
-/

namespace StackCompiler.Parser

variable {α β : Type} {before stuck : Cursor} {problem : Problem}

theorem bind_eq_error_iff {parser : Parser α} {next : α → Parser β} :
    (parser >>= next) before = .error problem stuck ↔
      parser before = .error problem stuck ∨
        ∃ first between, parser before = .ok first between ∧
          next first between = .error problem stuck := by
  simp only [bind, EStateM.bind]
  cases parser before with
  | ok first between => simp [and_assoc]
  | error other between => simp

theorem pure_eq_error_iff {value : α} :
    (pure value : Parser α) before = .error problem stuck ↔ False := by
  change EStateM.Result.ok value before = .error problem stuck ↔ _
  simp

theorem throw_eq_error_iff {found : Problem} :
    (throw found : Parser α) before = .error problem stuck ↔
    found = problem ∧ before = stuck := by
  change EStateM.Result.error found before = .error problem stuck ↔ _
  rw [EStateM.Result.error.injEq]

theorem discard_eq_error_iff {parser : Parser α} :
    (discard parser : Parser PUnit) before = .error problem stuck ↔
    parser before = .error problem stuck := by
  change EStateM.map (Function.const α PUnit.unit) parser before = _ ↔ _
  rw [EStateM.map]
  cases parser before with
  | ok found between => simp
  | error other between => simp

/-! ### Tokens -/

theorem atEnd_eq_error_iff : atEnd before = .error problem stuck ↔ False := by
  change EStateM.Result.ok (before.rest.head?.all Token.isEnd) before =
      .error problem stuck ↔ _
  simp

theorem takeIf?_eq_error_iff {use? : Token → Option α} :
    takeIf? use? before = .error problem stuck ↔ False := by
  obtain ⟨rest, budget⟩ := before
  cases rest with
  | nil => simp [takeIf?]
  | cons token rest =>
      simp only [takeIf?]
      split <;> simp

theorem take_eq_error_iff {wanted : Wanted} {use? : Token → Option α} :
    take wanted use? before = .error problem stuck ↔
    before.rest.head?.bind use? = none ∧ .unexpected wanted = problem ∧
    before = stuck := by
  simp only [take, bind_eq_error_iff, Option.exists, throw_eq_error_iff,
    pure_eq_error_iff, takeIf?_eq_error_iff, takeIf?_eq_none_iff, and_false,
    exists_false, or_false, false_or]
  constructor
  · intro fails
    rcases fails with ⟨_, ⟨unused, rfl⟩, found⟩
    exact ⟨unused, found⟩
  · intro holds
    rcases holds with ⟨unused, found⟩
    exact ⟨before, ⟨unused, rfl⟩, found⟩

theorem acceptPunctuator_eq_error_iff {symbol : String} :
    acceptPunctuator symbol before = .error problem stuck ↔ False := by
  simp only [acceptPunctuator, bind_eq_error_iff, takeIf?_eq_error_iff,
    pure_eq_error_iff, and_false, exists_false, or_false]

theorem acceptKeyword_eq_error_iff {word : String} :
    acceptKeyword word before = .error problem stuck ↔ False := by
  simp only [acceptKeyword, bind_eq_error_iff, takeIf?_eq_error_iff, pure_eq_error_iff,
    and_false, exists_false, or_false]

theorem punctuator_eq_error_iff {symbol : String} :
    punctuator symbol before = .error problem stuck ↔
      before.next? ≠ some (.mark symbol) ∧ .unexpected (.punctuator symbol) = problem ∧
        before = stuck := by
  simp only [punctuator, bind_eq_error_iff, Bool.exists_bool, Bool.false_eq_true,
    if_false, if_true, acceptPunctuator_eq_error_iff, acceptPunctuator_eq_false_iff,
    throw_eq_error_iff, pure_eq_error_iff, and_false, exists_false, or_false, false_or]
  constructor
  · intro fails
    rcases fails with ⟨_, ⟨other, rfl⟩, found⟩
    exact ⟨other, found⟩
  · intro holds
    rcases holds with ⟨other, found⟩
    exact ⟨before, ⟨other, rfl⟩, found⟩

/-! ### Limits -/

theorem nested_eq_error_iff {body : Parser α} :
    nested body before = .error problem stuck ↔
      (before.budget.deepen? = none ∧ .tooDeep = problem ∧ before = stuck) ∨
        ∃ deeper inner, before.budget.deepen? = some deeper ∧
          body { before with budget := deeper } = .error problem inner ∧
          { inner with budget := inner.budget.surface } = stuck := by
  simp only [nested]
  cases before.budget.deepen? with
  | none => simp
  | some deeper =>
      cases reads : body { before with budget := deeper } with
      | ok first inner => simp [reads]
      | error other inner => simp [reads, and_assoc]

theorem link_eq_error_iff :
    link before = .error problem stuck ↔
      before.budget.extend? = none ∧ .tooLong = problem ∧ before = stuck := by
  simp only [link]
  cases before.budget.extend? with
  | none => simp
  | some longer => simp

theorem unlink_eq_error_iff {links : Nat} :
    unlink links before = .error problem stuck ↔ False := by
  change EStateM.Result.ok PUnit.unit _ = .error problem stuck ↔ _
  simp

/-! ### Repetitions -/

variable {step? : Parser (Option α)}

theorem manyWithin_eq_error_iff
    (progress : ∀ {before result after}, step? before = .ok (some result) after →
      after.rest.length < before.rest.length)
    {done : List α} {bound : List Token} (enough : before.rest.length ≤ bound.length) :
    manyWithin step? done bound before = .error problem stuck ↔
      ∃ results middle, Repeats step? before results middle ∧
        step? middle = .error problem stuck := by
  induction bound generalizing done before with
  | nil =>
      unfold manyWithin
      simp only [bind_eq_error_iff, Option.exists, pure_eq_error_iff, and_false,
        exists_false, or_false, or_self]
      constructor
      · intro fails
        exact ⟨[], before, .nil, fails⟩
      · intro holds
        rcases holds with ⟨_, _, repeats, fails⟩
        cases repeats with
        | nil => exact fails
        | cons readsSome _ => exact absurd (progress readsSome) (by simp_all)
  | cons token bound ih =>
      unfold manyWithin
      simp only [bind_eq_error_iff, Option.exists, pure_eq_error_iff, and_false,
        exists_false, false_or]
      constructor
      · intro fails
        rcases fails with fails | ⟨first, between, readsSome, fails⟩
        · exact ⟨[], before, .nil, fails⟩
        · have shorter := progress readsSome
          rw [ih (by simp only [List.length_cons] at enough; omega)] at fails
          obtain ⟨results, middle, repeats, fails⟩ := fails
          exact ⟨first :: results, middle, .cons readsSome repeats, fails⟩
      · intro holds
        rcases holds with ⟨_, middle, repeats, fails⟩
        cases repeats with
        | nil => exact .inl fails
        | @cons _ between _ first rest readsSome repeats =>
            have shorter := progress readsSome
            refine .inr ⟨first, between, readsSome, ?_⟩
            rw [ih (by simp only [List.length_cons] at enough; omega)]
            exact ⟨rest, middle, repeats, fails⟩

/-- A repetition fails where one of its steps does. -/
theorem many_eq_error_iff
    (progress : ∀ {before result after}, step? before = .ok (some result) after →
      after.rest.length < before.rest.length) :
    many step? before = .error problem stuck ↔
      ∃ results middle, Repeats step? before results middle ∧
        step? middle = .error problem stuck := by
  change manyWithin step? [] before.rest before = _ ↔ _
  exact manyWithin_eq_error_iff progress (Nat.le_refl _)

end StackCompiler.Parser
