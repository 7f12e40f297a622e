import StackCompiler.Proofs.Code.InPlace
import StackCompiler.Proofs.Code.Positions

/-!
# Code that is rejected

Code without a canonical form has a label that is at fault. If some
label is defined more than once, it is the one for which this comes to
light first, read from the beginning, no matter what is jumped to
before. Otherwise it is the label that is the first to be jumped to in
vain (`Canonical.canonicalize_rejects`). Numbering in place leaves
such code as it was.
-/

namespace StackCompiler

namespace Code

/-- Whether a label is defined for the second time at a position. -/
def DefinesAgain (code : Code) (label : Label) (position : Nat) : Prop :=
  code[position]? = some (.label label) ∧
    (definitions (code.take position)).count label = 1

/-- Whether a label that is never defined is jumped to at a position, for
the first time. -/
def JumpsAstray (code : Code) (label : Label) (position : Nat) : Prop :=
  label ∉ definitions code ∧ targetAt? code position = some label ∧
    label ∉ targets (code.take position)

/-- Whether something happens to a label before it happens to any other. -/
def First (happens : Label → Nat → Prop) (label : Label) : Prop :=
  ∃ position, happens label position ∧
    ∀ other otherPosition, happens other otherPosition → position ≤ otherPosition

/-- What happens to one label at a time happens to one label first. -/
theorem First.unique {happens : Label → Nat → Prop} {label other : Label}
    (first : First happens label) (firstToo : First happens other)
    (single : ∀ position, happens label position → happens other position →
      label = other) : label = other := by
  obtain ⟨position, here, before⟩ := first
  obtain ⟨otherPosition, there, beforeToo⟩ := firstToo
  obtain rfl :=
    Nat.le_antisymm (before other otherPosition there) (beforeToo label position here)
  exact single position here there

theorem DefinesAgain.single {code : Code} {label other : Label} {position : Nat}
    (again : DefinesAgain code label position)
    (againToo : DefinesAgain code other position) : label = other := by
  have same := again.1.symm.trans againToo.1
  exact Instruction.label.inj (Option.some.inj same)

theorem JumpsAstray.single {code : Code} {label other : Label} {position : Nat}
    (astray : JumpsAstray code label position)
    (astrayToo : JumpsAstray code other position) : label = other := by
  have same := astray.2.1.symm.trans astrayToo.2.1
  exact Option.some.inj same

variable {before rest : Code} {label : Label}

/-- The first label that is found to be defined already is the one of which the
second definition comes first. -/
theorem first_definesAgain (unique : (definitions before).Nodup)
    (defined : label ∈ definitions before) :
    First (DefinesAgain (before ++ .label label :: rest)) label := by
  refine ⟨before.length, ⟨by simp, ?_⟩, ?_⟩
  · rw [List.take_left]
    exact List.count_eq_one_of_mem unique defined
  · intro other position again
    by_contra earlier
    rw [Nat.not_le] at earlier
    obtain ⟨here, once⟩ := again
    rw [List.getElem?_append_left earlier] at here
    rw [List.take_append_of_le_length (Nat.le_of_lt earlier)] at once
    -- The label is defined once before the position and once at the position,
    -- so twice before the end.
    have split :
        before =
          before.take position ++ .label other :: before.drop (position + 1) := by
      obtain ⟨_, same⟩ := List.getElem?_eq_some_iff.1 here
      rw [← same, List.getElem_cons_drop, List.take_append_drop]
    have twice : (definitions before).count other ≤ 1 :=
      List.nodup_iff_count_le_one.1 unique other
    rw [split, definitions_append, definitions_cons, List.count_append,
      List.count_append, once] at twice
    simp only [Instruction.defined?, Option.toList_some, List.count_singleton_self]
      at twice
    omega

/-- The first label mentioned that is not defined is the one of which the first
jump comes first. -/
theorem first_jumpsAstray {instruction : Instruction}
    (mentions : instruction.label? = some label)
    (undefined : label ∉ definitions (before ++ instruction :: rest))
    (defined : ∀ other ∈ labels before, other ∈
      definitions (before ++ instruction :: rest)) :
    First (JumpsAstray (before ++ instruction :: rest)) label := by
  have fresh : label ∉ labels before :=
    fun mentioned => undefined (defined label mentioned)
  have jumps : instruction.target? = some label := by
    apply (Instruction.label?_eq_some_iff.1 mentions).resolve_left
    intro defines
    apply undefined
    rw [definitions_append, definitions_cons, defines]
    simp
  refine ⟨before.length, ⟨undefined, ?_, ?_⟩, ?_⟩
  · rw [targetAt?, List.getElem?_append_right (Nat.le_refl _), Nat.sub_self]
    exact jumps
  · rw [List.take_left]
    exact fun target => fresh (mem_labels_iff.2 (.inr target))
  · intro other position astray
    by_contra earlier
    rw [Nat.not_le] at earlier
    obtain ⟨undefinedToo, here, _⟩ := astray
    rw [targetAt?, List.getElem?_append_left earlier] at here
    have target : other ∈ targets before := mem_targets_of_targetAt? here
    exact undefinedToo (defined other (mem_labels_iff.2 (.inr target)))

/-- Repetitions do not matter to a search. -/
theorem find?_eraseDups (wanted : Label → Bool) (labels : List Label) :
    labels.eraseDups.find? wanted = labels.find? wanted := by
  induction labels using List.reverseRecOn with
  | nil => rfl
  | append_singleton seen label ih =>
      rw [eraseDups_concat, List.find?_append, ← ih]
      split
      next known =>
        cases found : seen.eraseDups.find? wanted with
        | some other => rfl
        | none =>
            have unwanted :=
              List.find?_eq_none.1 found label (List.mem_eraseDups.2 known)
            simp [unwanted]
      next => rw [List.find?_append]

/-- Where a label is mentioned that is not defined, some label is the first for
which that happens. -/
theorem first_jumpsAstray_of_find? {code : Code}
    (found : (labels code).eraseDups.find? (· ∉ definitions code) = some label) :
    First (JumpsAstray code) label := by
  rw [find?_eraseDups, labels, List.find?_filterMap] at found
  obtain ⟨instruction, foundHere, mentions⟩ := Option.bind_eq_some_iff.1 found
  obtain ⟨undefined, before, rest, rfl, others⟩ :=
    List.find?_eq_some_iff_append.1 foundHere
  rw [mentions] at undefined
  refine first_jumpsAstray mentions (by simpa using undefined) ?_
  intro other mentioned
  obtain ⟨earlier, isEarlier, mentionsOther⟩ := List.mem_filterMap.1 mentioned
  have notWanted := others earlier isEarlier
  rw [mentionsOther] at notWanted
  simpa using notWanted

end Code

namespace Canonical

/-- Code without a canonical form is left as it was. Reported is the label of which a
second definition comes first, or else, of the labels that are never defined, the one
that is jumped to first. -/
theorem canonicalize_rejects {code : Code} {diagnostic : Diagnostic}
    (fails : (canonicalize code).outcome = .error diagnostic) :
    renumberInPlace.on code = (.error diagnostic, code) ∧
    ((∃ label, 1 < (Code.definitions code).count label) →
      ∃ label, (∀ other, Code.First code.DefinesAgain other ↔ other = label) ∧
        diagnostic = .duplicateLabel label) ∧
    ((∀ label, (Code.definitions code).count label ≤ 1) →
      ∃ label, (∀ other, Code.First code.JumpsAstray other ↔ other = label) ∧
        diagnostic = .undefinedLabel label) := by
  refine ⟨?_, ?_, ?_⟩
  · rw [on_renumberInPlace, fails]
  · rintro ⟨repeatedly, moreThanOnce⟩
    have repeated : ¬ (Code.definitions code).Nodup := by
      rw [List.nodup_iff_count_le_one]
      exact fun once => Nat.not_le.2 moreThanOnce (once repeatedly)
    obtain ⟨before, label, rest, rfl, unique, defined⟩ :=
      Code.exists_first_repeated repeated
    have first :
        Code.First (Code.DefinesAgain (before ++ .label label :: rest)) label :=
      Code.first_definesAgain unique defined
    refine ⟨label, fun other => ⟨fun firstToo => ?_, fun same => same ▸ first⟩, ?_⟩
    · exact firstToo.unique first fun _ => Code.DefinesAgain.single
    · rw [outcome_canonicalize_of_repeated unique defined] at fails
      exact (Except.error.inj fails).symm
  · intro once
    rw [outcome_canonicalize_of_unique (List.nodup_iff_count_le_one.2 once)] at fails
    split at fails
    next label found =>
      have first := Code.first_jumpsAstray_of_find? found
      refine ⟨label, fun other => ⟨fun firstToo => ?_, fun same => same ▸ first⟩, ?_⟩
      · exact firstToo.unique first fun _ => Code.JumpsAstray.single
      · exact (Except.error.inj fails).symm
    next => contradiction

/-- A jump in vain comes before two labels that are defined twice, and the one
that is repeated first is at fault. -/
theorem canonicalize_rejects_interleaved :
    let code : Code :=
      [.goto ⟨9⟩, .label ⟨1⟩, .label ⟨2⟩, .gotoFalse ⟨1⟩, .label ⟨2⟩, .label ⟨1⟩]
    (canonicalize code).outcome = .error (.duplicateLabel ⟨2⟩) ∧
      renumberInPlace.on code = (.error (.duplicateLabel ⟨2⟩), code) ∧
          Code.First code.DefinesAgain ⟨2⟩ := by
  intro code
  have fails : (canonicalize code).outcome = .error (.duplicateLabel ⟨2⟩) := by
    decide +kernel
  obtain ⟨kept, repeated, _⟩ := canonicalize_rejects fails
  obtain ⟨label, first, same⟩ := repeated ⟨⟨1⟩, by decide⟩
  obtain rfl := Diagnostic.duplicateLabel.inj same
  exact ⟨fails, kept, (first ⟨2⟩).2 rfl⟩

end Canonical

end StackCompiler
