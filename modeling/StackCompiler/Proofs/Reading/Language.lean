import StackCompiler.Proofs.Reading.Outcomes

/-!
# Languages that parsers read

A language is given by its forms: how each is written, what it means, what it
takes of the limits, and before which tokens it is at its end. A parser reads a
language if it succeeds exactly where a form is written that fits into the
limits and is at its end there, with the meaning of the form as its result and
nothing more of the limits in use than before.
-/

namespace StackCompiler

/-- A language whose forms mean something of type `α`. -/
structure Language (α : Type) where
  Form : Type
  /-- How a form is written. -/
  lexemes : Form → List Lexeme
  /-- What a form means. -/
  tree : Form → α
  /-- Whether a form can be read when a part of the limits is in use. -/
  Fits : Budget → Form → Prop
  /-- Whether a form is at its end before `next`. -/
  Closed : Form → (next : Option Lexeme) → Prop

/-- Whether some form of a language is what stands between two cursors. -/
def Language.Spans {α : Type} (language : Language α) (before : Cursor) (result : α)
    (after : Cursor) : Prop :=
  after.budget = before.budget ∧
    ∃ form, language.tree form = result ∧ language.Fits before.budget form ∧
      Spells (language.lexemes form) before.rest after.rest ∧
      language.Closed form after.next?

/-- The language of the lists of forms of a language, with `stop` behind the
last one, where `Stops` holds of the lexeme behind the last one. -/
def Language.many {α : Type} (language : Language α) (stop : List Lexeme)
    (Stops : (next : Option Lexeme) → Prop) : Language (List α) where
  Form := List language.Form
  lexemes forms := forms.flatMap language.lexemes ++ stop
  tree forms := forms.map language.tree
  Fits budget forms := ∀ form ∈ forms, language.Fits budget form
  Closed forms next :=
    Stops (stop.head?.or next) ∧
      ∀ form ∈ forms.getLast?, language.Closed form (stop.head?.or next)

theorem Language.spells_many_nil_iff {α : Type} {language : Language α}
    {Stops : (next : Option Lexeme) → Prop} {forms : List language.Form}
    {before after : List Token} :
    Spells ((language.many [] Stops).lexemes forms) before after ↔
    Spells (forms.flatMap language.lexemes) before after := by
  change Spells (_ ++ []) before after ↔ _
  rw [List.append_nil]

namespace Parser

variable {α : Type}

/-- Whether a parser reads exactly the forms of a language. -/
def Reads (parser : Parser α) (language : Language α) : Prop :=
  ∀ (before : Cursor) (result : α) (after : Cursor),
    parser before = .ok result after ↔ language.Spans before result after

/-- Whether a parser reads exactly the forms of a language, and recognises
where there is none. -/
structure ReadsOn (step? : Parser (Option α)) (language : Language α)
    (stop : List Lexeme) (Stops : (next : Option Lexeme) → Prop) : Prop where
  some_iff : ∀ {before : Cursor} {result : α} {after : Cursor},
    step? before = .ok (some result) after ↔ language.Spans before result after
  none_iff : ∀ {before after : Cursor},
    step? before = .ok none after ↔
      after.budget = before.budget ∧ Spells stop before.rest after.rest ∧
      Stops before.next?

theorem Reads.iff {parser : Parser α} {language : Language α}
    (reads : parser.Reads language) {before : Cursor} {result : α} {after : Cursor} :
    parser before = .ok result after ↔ language.Spans before result after :=
  reads before result after

/-- Where nothing is read to recognise that there is no form, the cursor stays. -/
theorem ReadsOn.of_stays {step? : Parser (Option α)} {language : Language α}
    {Stops : (next : Option Lexeme) → Prop}
    (some_iff : ∀ {before : Cursor} {result : α} {after : Cursor},
      step? before = .ok (some result) after ↔ language.Spans before result after)
    (none_iff : ∀ {before after : Cursor},
      step? before = .ok none after ↔ Stops before.next? ∧ before = after) :
    step?.ReadsOn language [] Stops where
  some_iff := some_iff
  none_iff := by
    intro before after
    rw [none_iff]
    obtain ⟨rest, budget⟩ := before
    obtain ⟨left, kept⟩ := after
    simp only [Cursor.mk.injEq, Spells.nil_iff]
    constructor
    · intro accepted
      rcases accepted with ⟨stops, rfl, rfl⟩
      exact ⟨rfl, rfl, stops⟩
    · intro derived
      rcases derived with ⟨rfl, rfl, stops⟩
      exact ⟨stops, rfl, rfl⟩

/-- A form that begins with a punctuation mark is recognised by the mark. -/
theorem ReadsOn.of_acceptPunctuator {symbol : String} {content : Parser (Option α)}
    {language : Language α}
    (some_iff : ∀ {before : Cursor} {result : α} {after : Cursor},
      (do if ← acceptPunctuator symbol then content else return none :
          Parser (Option α)) before = .ok (some result) after ↔
        language.Spans before result after)
    (never : ∀ {before after : Cursor}, content before ≠ .ok none after) :
    (do if ← acceptPunctuator symbol then content else return none :
        Parser (Option α)).ReadsOn language []
      (· ≠ some (.mark symbol)) := by
  apply ReadsOn.of_stays some_iff
  intro before after
  simp only [bind_eq_ok_iff, Bool.exists_bool, Bool.false_eq_true, if_false, if_true,
    acceptPunctuator_eq_false_iff, pure_eq_ok_iff, never, and_false, exists_false,
    or_false, true_and]
  constructor
  · intro accepted
    rcases accepted with ⟨_, ⟨stops, rfl⟩, rfl⟩
    exact ⟨stops, rfl⟩
  · intro derived
    rcases derived with ⟨stops, rfl⟩
    exact ⟨before, ⟨stops, rfl⟩, rfl⟩

/-! ### Reading repeatedly -/

/-- Whether a parser gives a number of results, one after the other. -/
inductive Repeats (step? : Parser (Option α)) : Cursor → List α → Cursor → Prop where
  | nil {cursor : Cursor} : Repeats step? cursor [] cursor
  | cons {before between after : Cursor} {first : α} {rest : List α} :
      step? before = .ok (some first) between → Repeats step? between rest after →
      Repeats step? before (first :: rest) after

theorem Repeats.snoc {step? : Parser (Option α)} {before between after : Cursor}
    {results : List α} {last : α} (repeats : Repeats step? before results between)
    (reads : step? between = .ok (some last) after) :
    Repeats step? before (results ++ [last]) after := by
  induction repeats with
  | nil => exact .cons reads .nil
  | cons readsFirst _ ih => exact .cons readsFirst (ih reads)

variable {step? : Parser (Option α)} {before after : Cursor}

theorem manyWithin_eq_ok_iff
    (progress : ∀ {before result after}, step? before = .ok (some result) after →
      after.rest.length < before.rest.length) {done results : List α}
    {bound : List Token} (enough : before.rest.length ≤ bound.length) :
    manyWithin step? done bound before = .ok results after ↔
    ∃ more middle, results = done.reverse ++ more ∧ Repeats step? before more middle ∧
      step? middle = .ok none after := by
  induction bound generalizing done before with
  | nil =>
      unfold manyWithin
      simp only [bind_eq_ok_iff, Option.exists, pure_eq_ok_iff]
      constructor
      · intro accepted
        rcases accepted with ⟨_, readsNone, rfl, rfl⟩ | ⟨_, _, readsSome, _⟩
        · exact ⟨[], before, (List.append_nil _).symm, .nil, readsNone⟩
        · exact absurd (progress readsSome) (by simp_all)
      · intro derived
        rcases derived with ⟨more, middle, rfl, repeats, readsNone⟩
        cases repeats with
        | nil => exact .inl ⟨after, readsNone, (List.append_nil _).symm, rfl⟩
        | cons readsSome _ => exact absurd (progress readsSome) (by simp_all)
  | cons token bound ih =>
      unfold manyWithin
      simp only [bind_eq_ok_iff, Option.exists, pure_eq_ok_iff]
      constructor
      · intro accepted
        rcases accepted with ⟨_, readsNone, rfl, rfl⟩ |
          ⟨first, between, readsSome, rest⟩
        · exact ⟨[], before, (List.append_nil _).symm, .nil, readsNone⟩
        · have shorter := progress readsSome
          rw [ih (by simp only [List.length_cons] at enough; omega)] at rest
          obtain ⟨more, middle, rfl, repeats, readsNone⟩ := rest
          exact ⟨first :: more, middle, by simp, .cons readsSome repeats, readsNone⟩
      · intro derived
        rcases derived with ⟨more, middle, rfl, repeats, readsNone⟩
        cases repeats with
        | nil => exact .inl ⟨after, readsNone, (List.append_nil _).symm, rfl⟩
        | @cons _ between _ first rest readsSome repeats =>
            have shorter := progress readsSome
            refine .inr ⟨first, between, readsSome, ?_⟩
            rw [ih (by simp only [List.length_cons] at enough; omega)]
            exact ⟨rest, middle, by simp, repeats, readsNone⟩

/-- A parser that has to read a token to give something is repeated until
it gives nothing. -/
theorem many_eq_ok_iff
    (progress : ∀ {before result after}, step? before = .ok (some result) after →
      after.rest.length < before.rest.length) {results : List α} :
    many step? before = .ok results after ↔
    ∃ middle, Repeats step? before results middle ∧ step? middle = .ok none after := by
  change manyWithin step? [] before.rest before = _ ↔ _
  rw [manyWithin_eq_ok_iff progress (Nat.le_refl _)]
  simp

namespace ReadsOn

variable {language : Language α} {stop : List Lexeme}
  {Stops : (next : Option Lexeme) → Prop}

theorem spells_of_repeats (step : ReadsOn step? language stop Stops) {results : List α}
    (repeats : Repeats step? before results after) :
    after.budget = before.budget ∧
      ∃ forms : List language.Form, forms.map language.tree = results ∧
        (∀ form ∈ forms, language.Fits before.budget form) ∧
        Spells (forms.flatMap language.lexemes) before.rest after.rest ∧
        ∀ form ∈ forms.getLast?, language.Closed form after.next? := by
  induction repeats with
  | nil => exact ⟨rfl, [], rfl, by simp, rfl, by simp⟩
  | @cons before between after first rest reads _ ih =>
      obtain ⟨same, form, rfl, fits, spells, closed⟩ := step.some_iff.1 reads
      obtain ⟨sameLater, forms, rfl, fitsLater, spellsLater, closedLater⟩ := ih
      refine ⟨sameLater.trans same, form :: forms, rfl, ?_, ?_, ?_⟩
      · rw [same] at fitsLater
        simpa using ⟨fits, fitsLater⟩
      · rw [List.flatMap_cons, Spells.append_iff]
        exact ⟨_, spells, spellsLater⟩
      · cases forms with
        | nil =>
            have rest : between.rest = after.rest := spellsLater
            rw [Cursor.next?, rest, ← Cursor.next?] at closed
            simpa using closed
        | cons second forms =>
            rw [List.getLast?_cons_cons]
            exact closedLater

/-- A form that other forms follow is at its end before the first of them. -/
theorem repeats_of_spells (step : ReadsOn step? language stop Stops)
    (nonempty : ∀ form, language.lexemes form ≠ [])
    (apart : ∀ form other, language.Closed form (language.lexemes other).head?)
    {forms : List language.Form}
    (fits : ∀ form ∈ forms, language.Fits before.budget form)
    (spells : Spells (forms.flatMap language.lexemes) before.rest after.rest)
    (closed : ∀ form ∈ forms.getLast?, language.Closed form after.next?)
    (same : after.budget = before.budget) :
    Repeats step? before (forms.map language.tree) after := by
  induction forms generalizing before with
  | nil =>
      obtain ⟨rest, budget⟩ := before
      obtain rfl : rest = after.rest := spells
      obtain rfl : after.budget = budget := same
      exact .nil
  | cons form forms ih =>
      rw [List.flatMap_cons, Spells.append_iff] at spells
      obtain ⟨between, spellsFirst, spellsLater⟩ := spells
      simp only [List.mem_cons, forall_eq_or_imp] at fits
      have closedFirst :
          language.Closed form (Cursor.next? ⟨between, before.budget⟩) := by
        cases forms with
        | nil =>
            have rest : between = after.rest := spellsLater
            rw [rest]
            exact closed form rfl
        | cons second forms =>
            have next := apart form second
            obtain ⟨lexeme, others, written⟩ :=
              List.exists_cons_of_ne_nil (nonempty second)
            rw [Cursor.next?, spellsLater.map_lexeme_head?, List.flatMap_cons, written]
            rwa [written] at next
      have reads :
          step? before = .ok (some (language.tree form)) ⟨between, before.budget⟩ :=
        step.some_iff.2 ⟨rfl, form, rfl, fits.1, spellsFirst, closedFirst⟩
      refine .cons reads (@ih ⟨between, before.budget⟩ fits.2 spellsLater ?_ same)
      intro last isLast
      apply closed last
      cases forms with
      | nil => contradiction
      | cons second forms => exact isLast

theorem shorter (step : ReadsOn step? language stop Stops)
    (nonempty : ∀ form, language.lexemes form ≠ []) {result : α}
    (reads : step? before = .ok (some result) after) :
    after.rest.length < before.rest.length := by
  obtain ⟨_, form, _, _, spells, _⟩ := step.some_iff.1 reads
  have length := spells.length_eq
  have positive := List.length_pos_iff.2 (nonempty form)
  omega

/-- To read the forms of a language until there is none is to read the
lists of its forms. -/
theorem many (step : ReadsOn step? language stop Stops)
    (nonempty : ∀ form, language.lexemes form ≠ [])
    (apart : ∀ form other, language.Closed form (language.lexemes other).head?) :
    Reads (Parser.many step?) (language.many stop Stops) := by
  intro before results after
  have behind : ∀ middle : List Token, Spells stop middle after.rest →
      middle.head?.map Token.lexeme = stop.head?.or after.next? := by
    intro middle spells
    rw [spells.map_lexeme_head?, List.head?_append, List.head?_map]
    rfl
  rw [many_eq_ok_iff (step.shorter nonempty)]
  constructor
  · intro accepted
    rcases accepted with ⟨middle, repeats, readsNone⟩
    obtain ⟨same, forms, rfl, fits, spells, closed⟩ := step.spells_of_repeats repeats
    obtain ⟨sameLater, spellsStop, stops⟩ := step.none_iff.1 readsNone
    rw [Cursor.next?, behind _ spellsStop] at stops closed
    exact ⟨sameLater.trans same, forms, rfl, fits,
      Spells.append_iff.2 ⟨_, spells, spellsStop⟩, stops, closed⟩
  · intro derived
    rcases derived with ⟨same, forms, rfl, fits, spells, stops, closed⟩
    obtain ⟨middle, spellsForms, spellsStop⟩ := Spells.append_iff.1 spells
    rw [← behind _ spellsStop] at stops closed
    refine ⟨⟨middle, before.budget⟩, ?_, step.none_iff.2 ⟨same, spellsStop, stops⟩⟩
    exact step.repeats_of_spells nonempty apart fits spellsForms closed rfl

end ReadsOn

end Parser

end StackCompiler
