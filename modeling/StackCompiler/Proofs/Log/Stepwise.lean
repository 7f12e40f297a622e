import StackCompiler.Proofs.Code.InPlace
import StackCompiler.Proofs.Strictness

/-!
# Notes made on the way

The compiler writes its log while it works: a character is noted when it is
skipped, and a label when it is met for the first time. Here every note is made
in the step that it is about. The notes are the same, in the same order, whether
the work succeeds or is broken off (`compileNoting_eq`).
-/

namespace StackCompiler

namespace Traced

variable {α β : Type}

theorem bind_note (events : List Log.Event) (next : PUnit → Traced α) :
    note events >>= next = ⟨events ++ (next ⟨⟩).events, (next ⟨⟩).outcome⟩ := rfl

theorem andThen_pure (work : Traced α) :
    work.andThen (fun result => pure result) = work := by
  obtain ⟨events, outcome⟩ := work
  cases outcome with
  | error diagnostic => rfl
  | ok result => exact congrArg (mk · _) (List.append_nil events)

theorem andThen_assoc {γ : Type} (first : Traced α) (second : α → Traced β)
    (third : β → Traced γ) :
    (first.andThen second).andThen third =
      first.andThen fun result => (second result).andThen third := by
  obtain ⟨events, outcome⟩ := first
  cases outcome with
  | error diagnostic => rfl
  | ok result =>
      simp only [andThen]
      cases (second result).outcome with
      | error diagnostic => rfl
      | ok last => simp only [List.append_assoc]

/-- It does not matter how the parts of some work are taken together. -/
instance : LawfulMonad Traced :=
  LawfulMonad.mk' Traced andThen_pure (fun _ _ => rfl) andThen_assoc

/-- Steps that make no notes make none one after the other. -/
theorem foldlM_ofExcept (step : β → α → Except Diagnostic β) (start : β)
    (list : List α) :
    list.foldlM (fun state item => ofExcept (step state item)) start =
      ofExcept (list.foldlM step start) := by
  induction list generalizing start with
  | nil => rfl
  | cons item rest ih =>
      rw [List.foldlM_cons, List.foldlM_cons]
      cases taken : step start item with
      | error diagnostic => rfl
      | ok state => exact ih state

end Traced

namespace Lexed

/-- The note on a character that is left out. -/
def skipNote (skipped : SkippedChar) : Log.Event := .skipped skipped.line skipped.char

/-- The note on the tokens that a source is split into. -/
def summary (progress : Progress) : Log.Event :=
  .lexed progress.finish.tokens.length progress.line progress.finish.skipped.length

namespace Progress

/-- Takes in the next piece of the source. A character that is left out is noted
at once, but in strict mode it is an error instead. -/
def stepNoting (source : List Char) (strict : Bool) (progress : Progress)
    (piece : Piece) : Traced Progress :=
  match piece with
  | .stray char =>
    if strict then
      Traced.ofExcept (.error (.invalidCharacterAt source progress.loc char))
    else do
      Traced.note [skipNote ⟨char, progress.line, progress.loc⟩]
      return progress.step piece
  | _ => return progress.step piece

theorem stepNoting_strict (source : List Char) (progress : Progress) (piece : Piece) :
    progress.stepNoting source true piece =
      Traced.ofExcept (progress.stepStrictly source piece) := by
  cases piece <;> rfl

/-- In lenient mode there is a note on each character that is skipped, in order. -/
theorem foldlM_stepNoting_lenient {source : List Char} {progress : Progress}
    {pieces : List Piece} {found : List SkippedChar}
    (skips : (pieces.foldl step progress).skipped.reverse =
      progress.skipped.reverse ++ found) :
    pieces.foldlM (stepNoting source false) progress =
      ⟨found.map skipNote, .ok (pieces.foldl step progress)⟩ := by
  induction pieces generalizing progress found with
  | nil =>
      have none : found = [] := List.append_right_eq_self.1 skips.symm
      rw [none]
      rfl
  | cons piece rest ih =>
      rw [List.foldlM_cons]
      cases piece with
      | stray char =>
          rcases exists_skipped_foldl
            (progress.step (.stray char)) rest with ⟨later, split⟩
          have goesOn := ih split
          rw [List.foldl_cons, split] at skips
          change (_ :: progress.skipped).reverse ++ later = _ at skips
          rw [List.reverse_cons, List.append_assoc] at skips
          have noted : (progress.stepNoting source false (.stray char)).outcome =
              .ok (progress.step (.stray char)) :=
            rfl
          rw [← List.append_cancel_left skips, Traced.bind_of_ok noted, goesOn]
          rfl
      | _ => exact ih skips

end Progress

/-- Splits a source into tokens, and makes each note when there is
something to be noted. -/
def readNoting (source : List Char) (strict : Bool) : Traced Lexed := do
  let progress ← (pieces source).foldlM
    (Progress.stepNoting source strict) Progress.start
  Traced.note [summary progress]
  return progress.finish

theorem read_lenient (source : List Char) :
    read source false =
      ⟨(ofSource source).skipped.map skipNote ++ [summary (survey source)],
        .ok (ofSource source)⟩ := by
  have whole : read source false =
      ⟨[] ++ ((survey source).events ++ []), .ok (ofSource source)⟩ := rfl
  rw [whole, List.nil_append, List.append_nil]
  rfl

theorem readNoting_lenient (source : List Char) :
    readNoting source false = read source false := by
  have surveyed :
      (pieces source).foldlM (Progress.stepNoting source false) Progress.start =
      ⟨(ofSource source).skipped.map skipNote, .ok (survey source)⟩ :=
    Progress.foldlM_stepNoting_lenient (List.nil_append _).symm
  rw [readNoting, surveyed, read_lenient]
  rfl

/-- The notes on the tokens of a source are made on the way. -/
theorem readNoting_eq (source : List Char) (strict : Bool) :
    readNoting source strict = read source strict := by
  cases strict with
  | false => exact readNoting_lenient source
  | true =>
      have steps : Progress.stepNoting source true =
          fun progress piece =>
            Traced.ofExcept (progress.stepStrictly source piece) := by
        funext progress piece
        exact progress.stepNoting_strict source piece
      have surveyed := surveyStrictly_eq source
      rw [readNoting, steps, Traced.foldlM_ofExcept, ← surveyStrictly, surveyed]
      cases found : (ofSource source).skipped with
      | nil =>
          rw [read_strict_of_skipped_eq_nil found, read_lenient, found]
          rfl
      | cons first later =>
          rw [read_strict_of_skipped_eq_cons found]
          rfl

end Lexed

namespace Canonical

namespace Survey

/-- Takes in a label as mentioned. If it has not been mentioned before, it
receives a number, which is noted at once. -/
def mention (survey : Survey) (label : Label) : Traced Survey :=
  if survey.mentioned.contains label then return survey
  else do
    Traced.note [.renumbered label ⟨survey.mentioned.toList.length + 1⟩]
    return { survey with mentioned := survey.mentioned.add label }

/-- Takes in a label as defined, which must not be for the second time. -/
def define (survey : Survey) (label : Label) : Except Diagnostic Survey :=
  if survey.defined.contains label then .error (.duplicateLabel label)
  else .ok { survey with defined := survey.defined.add label }

/-- Takes in the label of an instruction, if it has one, as mentioned. -/
def mentionOf (survey : Survey) (instruction : Instruction) : Traced Survey :=
  match instruction.label? with
  | none => return survey
  | some label => survey.mention label

/-- Takes in the next instruction. -/
def stepNoting (survey : Survey) (instruction : Instruction) : Traced Survey := do
  let noted ← survey.mentionOf instruction
  match instruction.defined? with
  | none => return noted
  | some label => Traced.ofExcept (noted.define label)

theorem events_of_toList_concat {survey after : Survey} {label : Label}
    (appends : after.mentioned.toList = survey.mentioned.toList ++ [label]) :
    after.events =
      survey.events ++ [.renumbered label ⟨survey.mentioned.toList.length + 1⟩] := by
  rw [events, events, appends, List.zipIdx_append, List.map_append, Nat.add_comm]
  rfl

theorem mention_eq (survey : Survey) (label : Label) :
    ∃ notes, survey.mention label =
      ⟨notes, .ok { survey with mentioned := survey.mentioned.add label }⟩ ∧
      { survey with mentioned := survey.mentioned.add label }.events =
          survey.events ++ notes := by
  have added := survey.mentioned.toList_add label
  cases known : survey.mentioned.contains label with
  | true =>
      have same : survey.mentioned.add label = survey.mentioned := by
        rw [Numbering.add, dif_neg (by simp [known])]
      rw [mention, if_pos known, same]
      exact ⟨[], rfl, (List.append_nil _).symm⟩
  | false =>
      have fresh : label ∉ survey.mentioned.toList := by
        rw [← Numbering.contains_iff, known]
        exact Bool.false_ne_true
      rw [if_neg fresh] at added
      rw [mention, known, if_neg Bool.false_ne_true]
      exact ⟨_, rfl, events_of_toList_concat added⟩

theorem mentionOf_eq (survey : Survey) (instruction : Instruction) :
    ∃ notes, survey.mentionOf instruction = ⟨notes, .ok (survey.note instruction)⟩ ∧
      (survey.note instruction).events = survey.events ++ notes := by
  rw [mentionOf, note]
  cases instruction.label? with
  | none => exact ⟨[], rfl, (List.append_nil _).symm⟩
  | some label => exact survey.mention_eq label

/-- A step takes in an instruction as a survey does, and makes the notes that
the survey has more of behind it. -/
theorem stepNoting_eq (survey : Survey) (instruction : Instruction) :
    ∃ notes, survey.stepNoting instruction =
        ⟨notes, outcome (survey.extend [instruction])⟩ ∧
      (survey.extend [instruction]).1.events = survey.events ++ notes := by
  obtain ⟨notes, mentions, events⟩ := survey.mentionOf_eq instruction
  refine ⟨notes, ?_, ?_⟩
  · rw [stepNoting, mentions, Traced.bind_of_ok rfl, extend]
    cases instruction.defined? with
    | none => exact congrArg (Traced.mk · _) (List.append_nil notes)
    | some label =>
        have silent :
            (Traced.ofExcept ((survey.note instruction).define label)).events = [] :=
          rfl
        simp only [silent, List.append_nil]
        rw [define]
        split
        next => rfl
        next => rfl
  · rw [← events, extend]
    cases instruction.defined? with
    | none => rfl
    | some label =>
        simp only
        split
        next => rfl
        next => rfl

/-- The notes made step by step are those of the survey, and the survey stops
where it should. -/
theorem foldlM_stepNoting (survey : Survey) (code : Code) :
    ∃ notes, code.foldlM stepNoting survey = ⟨notes, outcome (survey.extend code)⟩ ∧
      (survey.extend code).1.events = survey.events ++ notes := by
  induction code generalizing survey with
  | nil => exact ⟨[], rfl, (List.append_nil _).symm⟩
  | cons instruction rest ih =>
      obtain ⟨notes, step, events⟩ := survey.stepNoting_eq instruction
      rw [List.foldlM_cons, survey.extend_cons, step]
      cases taken : survey.extend [instruction] with
      | mk after repeated? =>
          rw [taken] at events
          cases repeated? with
          | some label => exact ⟨notes, rfl, events⟩
          | none =>
              obtain ⟨later, goesOn, laterEvents⟩ := ih after
              refine ⟨notes ++ later, ?_, ?_⟩
              · rw [Traced.bind_of_ok rfl, goesOn]
              · rw [laterEvents, events, List.append_assoc]

end Survey

/-- Numbers the labels of code, and notes each of them when it receives its number. -/
def canonicalizeNoting (code : Code) : Traced Code := do
  let survey ← code.foldlM Survey.stepNoting Survey.start
  match survey.undefined? with
  | some label => Traced.ofExcept (.error (.undefinedLabel label))
  | none => return renumber survey.mentioned code

/-- The notes on the labels of code are made on the way. -/
theorem canonicalizeNoting_eq (code : Code) :
    canonicalizeNoting code = canonicalize code := by
  obtain ⟨notes, steps, events⟩ := Survey.start.foldlM_stepNoting code
  have noted : notes = (survey code).1.events := events.symm
  rw [canonicalizeNoting, steps, noted, ← survey, canonicalize]
  cases survey code with
  | mk after repeated? =>
      cases repeated? with
      | some label => rfl
      | none =>
          rw [Traced.bind_of_ok rfl]
          cases found : after.undefined? with
          | some label =>
              simp only [found]
              exact congrArg (Traced.mk · _) (List.append_nil _)
          | none =>
              simp only [found]
              exact congrArg (Traced.mk · _) (List.append_nil _)

end Canonical

/-- Compiles a source, and makes each note when there is something to be noted. -/
def compileNoting (source : String) (strict : Bool) : Traced Compiled := do
  let lexed ← Lexed.readNoting source.toList strict
  let unit ← Traced.ofExcept (CompilationUnit.parse lexed.tokens source.toList)
  Traced.note [.parsed unit.declarations.length unit.body.length]
  let (code, supply) := unit.lower.run LabelSupply.fresh
  Traced.note [.lowered code.length supply.allocated]
  return ⟨⟨← Canonical.canonicalizeNoting code⟩, lexed.skipped⟩

/-- The notes of a compilation are made on the way. -/
theorem compileNoting_eq (source : String) (strict : Bool) :
    compileNoting source strict = compile source strict := by
  simp only [compileNoting, Lexed.readNoting_eq, Canonical.canonicalizeNoting_eq,
    compile, readUnit, bind_assoc]
  rfl

end StackCompiler
