import StackCompiler.Proofs.Faults

/-!
# Strict mode

In strict mode a source is split into tokens exactly as in lenient mode, up to
the first character that lenient mode skips. If there is none, the two modes do
the same (`Lexed.surveyStrictly_eq`). If there is one, it is reported, whatever
else is wrong with the source (`compile_strict`): the tokens are found before
any of them is read.
-/

namespace StackCompiler

namespace Lexed

namespace Progress

/-- What has been skipped stays skipped. -/
theorem exists_skipped_foldl (progress : Progress) (pieces : List Piece) :
    ∃ later, (pieces.foldl step progress).skipped.reverse =
      progress.skipped.reverse ++ later := by
  induction pieces generalizing progress with
  | nil => exact ⟨[], (List.append_nil _).symm⟩
  | cons piece rest ih =>
      have behind := ih (progress.step piece)
      cases piece with
      | stray char =>
          rcases behind with ⟨later, split⟩
          refine ⟨⟨char, progress.line, progress.loc⟩ :: later, ?_⟩
          rw [List.foldl_cons, split, List.append_cons, ← List.reverse_cons]
          rfl
      | _ => exact behind

/-- What strict mode makes of the characters that lenient mode skips on
its way to `last`. -/
def refuseFirst (last : Progress) (source : List Char) :
    List SkippedChar → Except Diagnostic Progress
  | [] => .ok last
  | first :: _ => .error (.invalidCharacterAt source first.loc first.char)

/-- The strict run keeps in step with the lenient one, up to the first character
that is skipped on the way. -/
theorem foldlM_stepStrictly {source : List Char} {progress : Progress}
    {pieces : List Piece} {found : List SkippedChar}
    (skips : (pieces.foldl step progress).skipped.reverse =
      progress.skipped.reverse ++ found) :
    pieces.foldlM (stepStrictly source) progress =
      (pieces.foldl step progress).refuseFirst source found := by
  induction pieces generalizing progress with
  | nil =>
      have none : found = [] := List.append_right_eq_self.1 skips.symm
      rw [none]
      rfl
  | cons piece rest ih =>
      cases piece with
      | stray char =>
          rcases exists_skipped_foldl
            (progress.step (.stray char)) rest with ⟨later, split⟩
          rw [List.foldl_cons, split] at skips
          change (_ :: progress.skipped).reverse ++ later = _ at skips
          rw [List.reverse_cons, List.append_assoc] at skips
          have first := List.append_cancel_left skips
          rw [← first]
          rfl
      | _ => exact ih skips

end Progress

/-- What is found in strict mode is what is found in lenient mode, or the first
character that is skipped there is in the way. -/
theorem surveyStrictly_eq (source : List Char) :
    surveyStrictly source =
      (survey source).refuseFirst source (ofSource source).skipped :=
  Progress.foldlM_stepStrictly (List.nil_append _).symm

theorem read_strict_of_skipped_eq_nil {source : List Char}
    (none : (ofSource source).skipped = []) : read source true = read source false := by
  have surveyed := surveyStrictly_eq source
  rw [none] at surveyed
  rw [read, read, if_pos rfl, surveyed, if_neg Bool.false_ne_true]
  rfl

theorem read_strict_of_skipped_eq_cons {source : List Char} {first : SkippedChar}
    {later : List SkippedChar} (some : (ofSource source).skipped = first :: later) :
    read source true =
      .ofExcept (.error (.invalidCharacterAt source first.loc first.char)) := by
  have surveyed := surveyStrictly_eq source
  rw [some] at surveyed
  rw [read, if_pos rfl, surveyed]
  rfl

/-- In lenient mode every source is split into tokens, in strict mode every one
of which nothing is skipped. -/
theorem outcome_read_eq_ok_iff {source : List Char} {strict : Bool} :
    (read source strict).outcome = .ok (ofSource source) ↔
    (strict → (ofSource source).skipped = []) := by
  cases strict with
  | false => exact ⟨fun _ => (absurd · Bool.false_ne_true), fun _ => rfl⟩
  | true =>
      cases found : (ofSource source).skipped with
      | nil =>
          rw [read_strict_of_skipped_eq_nil found]
          exact ⟨fun _ _ => rfl, fun _ => rfl⟩
      | cons first later =>
          rw [read_strict_of_skipped_eq_cons found]
          constructor
          · intro reads
            contradiction
          · intro none
            exact absurd (none rfl) (List.cons_ne_nil _ _)

end Lexed

/-- Strict mode does what lenient mode does, unless a character is skipped there. Then
the first of them is reported at its place, whatever the tokens form. -/
theorem compile_strict (source : String) :
    ∃ lexed, (Lexed.read source.toList false).outcome = .ok lexed ∧
      match lexed.skipped with
      | [] =>
          compile source true = compile source false ∧
          ∀ strict compiled, (compile source strict).outcome = .ok compiled →
            compiled.skipped = []
      | first :: _ =>
          ∃ anchor,
            (∀ message, Diagnostic.malformedAt source.toList first.loc message =
              .malformed anchor message) ∧
            (compile source true).outcome =
              .error (.invalidCharacter anchor first.char) := by
  refine ⟨Lexed.ofSource source.toList, rfl, ?_⟩
  split
  next none =>
    constructor
    · rw [compile, compile, readUnit, readUnit,
        Lexed.read_strict_of_skipped_eq_nil none]
    · intro strict compiled compiles
      rcases readUnit_of_compile compiles with ⟨unit, reads, _⟩
      exact (readUnit_cases reads).2.trans none
  next first later some =>
    refine ⟨Text.Anchor.ofOffset source.toList first.loc, fun _ => rfl, ?_⟩
    rw [outcome_compile, outcome_readUnit, Lexed.read_strict_of_skipped_eq_cons some]
    rfl

/-- The character is reported, although the program goes wrong before it. -/
example :
    (compile "+ @" true).outcome = .error (.invalidCharacter ⟨1, 3, "+ @"⟩ '@') := by
  decide +kernel

end StackCompiler
