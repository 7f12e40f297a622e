import Mathlib.Data.List.Induction
import Mathlib.Data.List.Nodup
import StackCompiler.Proofs.Code.Renumbering

/-!
# Code that can be numbered

Code has a canonical form if and only if it is linked: every label that it
mentions is defined exactly once (`Canonical.outcome_canonicalize_eq_ok_iff`).
Otherwise a label is defined for a second time, and the survey of the code stops
there, or else some label is mentioned but never defined.
-/

namespace StackCompiler

namespace Code

/-- Whether every label that code mentions is defined exactly once. -/
def Linked (code : Code) : Prop :=
  ∀ label ∈ labels code, (definitions code).count label = 1

instance (code : Code) : Decidable (Linked code) :=
  inferInstanceAs
    (Decidable (∀ label ∈ labels code, (definitions code).count label = 1))

theorem linked_iff {code : Code} :
    Linked code ↔
    (definitions code).Nodup ∧ ∀ label ∈ labels code, label ∈ definitions code := by
  constructor
  · intro linked
    constructor
    · rw [List.nodup_iff_count_le_one]
      intro label
      by_cases defined : label ∈ definitions code
      · exact Nat.le_of_eq (linked label (mem_labels_iff.2 (.inl defined)))
      · rw [List.count_eq_zero.2 defined]
        exact Nat.zero_le 1
    · intro label mentioned
      rw [← List.count_pos_iff, linked label mentioned]
      exact Nat.one_pos
  · intro holds label mentioned
    rcases holds with ⟨unique, closed⟩
    exact List.count_eq_one_of_mem unique (closed label mentioned)

/-- Where some label is defined for a second time, some label is the first for
which that happens. -/
theorem exists_first_repeated {code : Code} (repeated : ¬ (definitions code).Nodup) :
    ∃ before label rest, code = before ++ .label label :: rest ∧
      (definitions before).Nodup ∧
      label ∈ definitions before := by
  induction code using List.reverseRecOn with
  | nil => exact absurd List.nodup_nil repeated
  | append_singleton seen instruction ih =>
      by_cases unique : (definitions seen).Nodup
      · cases instruction with
        | label name =>
            refine ⟨seen, name, [], rfl, unique, ?_⟩
            by_contra fresh
            apply repeated
            rw [definitions_append]
            exact unique.append (List.nodup_singleton name)
              (by simpa [Instruction.defined?] using fresh)
        | _ => exact absurd unique (by simpa [Instruction.defined?] using repeated)
      · obtain ⟨before, label, rest, rfl, uniqueBefore, member⟩ := ih unique
        exact ⟨before, label, rest ++ [instruction], by simp, uniqueBefore, member⟩

end Code

namespace Canonical

namespace Survey

/-- A survey that has come to the end of some code goes on with the
code that follows. -/
theorem extend_append {survey after : Survey} {front : Code}
    (ends : survey.extend front = (after, none)) (back : Code) :
    survey.extend (front ++ back) = after.extend back := by
  induction front generalizing survey with
  | nil =>
      obtain rfl := congrArg Prod.fst ends
      rfl
  | cons instruction rest ih =>
      rw [extend] at ends
      rw [List.cons_append, extend]
      cases definition : instruction.defined? with
      | none =>
          simp only [definition] at ends ⊢
          exact ih ends
      | some label =>
          simp only [definition] at ends ⊢
          by_cases known : (survey.note instruction).defined.contains label
          · rw [if_pos known] at ends
            exact absurd (congrArg Prod.snd ends) (Option.some_ne_none label)
          · rw [if_neg known] at ends ⊢
            exact ih ends

end Survey

/-- A label that is defined for a second time stands in the way of a canonical form. -/
theorem outcome_canonicalize_of_repeated {before rest : Code} {label : Label}
    (unique : (Code.definitions before).Nodup)
    (repeated : label ∈ Code.definitions before) :
    (canonicalize (before ++ .label label :: rest)).outcome =
      .error (.duplicateLabel label) := by
  obtain ⟨after, surveyed, covers⟩ := Survey.covers_start.extend unique
  have known : (after.note (.label label)).defined.contains label := by
    rw [after.defined_note, Numbering.contains_iff, covers.defined]
    exact repeated
  have stops : survey (before ++ .label label :: rest) =
      (after.note (.label label), some label) := by
    rw [survey, Survey.extend_append surveyed, Survey.extend]
    exact if_pos known
  rw [canonicalize, stops]

/-- Just the code that is linked has a canonical form. -/
theorem outcome_canonicalize_eq_ok_iff {code new : Code} :
    (canonicalize code).outcome = .ok new ↔
    code.Linked ∧ new = Code.canonical code := by
  constructor
  · intro succeeds
    have unique : (Code.definitions code).Nodup := by
      by_contra repeated
      obtain ⟨before, label, rest, rfl, uniqueBefore, member⟩ :=
        Code.exists_first_repeated repeated
      rw [outcome_canonicalize_of_repeated uniqueBefore member] at succeeds
      contradiction
    rw [outcome_canonicalize_of_unique unique] at succeeds
    split at succeeds
    next => contradiction
    next found =>
      refine ⟨Code.linked_iff.2 ⟨unique, ?_⟩, (Except.ok.inj succeeds).symm⟩
      intro label mentioned
      simpa using List.find?_eq_none.1 found label (List.mem_eraseDups.2 mentioned)
  · intro holds
    rcases holds with ⟨linked, rfl⟩
    obtain ⟨unique, closed⟩ := Code.linked_iff.1 linked
    exact outcome_canonicalize unique closed

end Canonical

end StackCompiler
