import Mathlib.Data.List.Induction
import Mathlib.Data.List.Nodup
import StackCompiler.Code.Canonical
import StackCompiler.Proofs.Code.Labels

/-!
# The canonical form of code

What numbering labels by their first mention amounts to, said without the tables
that are kept on the way: `Code.canonical` replaces every label by its place
among the labels mentioned. Code that defines each label once and mentions no
others has this canonical form (`Canonical.outcome_canonicalize`). It does not
change when labels are renamed without being merged, and the form of code in two
parts without common labels is that of its parts, the second of which continues
the numbers of the first.
-/

namespace StackCompiler

/-! ### Lists without repetitions -/

theorem eraseDups_concat (seen : List Label) (label : Label) :
    (seen ++ [label]).eraseDups =
      if label ∈ seen then seen.eraseDups else seen.eraseDups ++ [label] := by
  have single : [label].eraseDups = [label] := rfl
  rw [List.eraseDups_append]
  split
  next known => simp [List.removeAll, known]
  next fresh => simp [List.removeAll, fresh, single]

theorem eraseDups_map_of_injOn {rename : Label → Label} {labels : List Label}
    (injective : ∀ left ∈ labels, ∀ right ∈ labels, rename left = rename right →
      left = right) : (labels.map rename).eraseDups = labels.eraseDups.map rename := by
  induction labels using List.reverseRecOn with
  | nil => rfl
  | append_singleton seen label ih =>
      have known : rename label ∈ seen.map rename ↔ label ∈ seen := by
        constructor
        · intro member
          obtain ⟨other, otherSeen, equal⟩ := List.mem_map.1 member
          have same : other = label :=
            injective other (by simp [otherSeen]) label (by simp) equal
          rwa [← same]
        · exact List.mem_map_of_mem
      have restInjective : ∀ left ∈ seen, ∀ right ∈ seen, rename left = rename right →
          left = right := by
        intro left leftSeen right rightSeen
        exact injective left (List.mem_append_left _ leftSeen) right
          (List.mem_append_left _ rightSeen)
      rw [List.map_append, List.map_singleton, eraseDups_concat, eraseDups_concat,
        ih restInjective]
      simp only [known]
      split
      next => rfl
      next => rw [List.map_append, List.map_singleton]

theorem eraseDups_append_of_disjoint {first second : List Label}
    (disjoint : ∀ label ∈ second, label ∉ first) :
    (first ++ second).eraseDups = first.eraseDups ++ second.eraseDups := by
  have nothingRemoved : second.removeAll first = second := by
    apply List.filter_eq_self.2
    intro label member
    simpa using disjoint label member
  rw [List.eraseDups_append, nothingRemoved]

theorem idxOf_map_of_injOn {α β : Type} [BEq α] [LawfulBEq α] [BEq β] [LawfulBEq β]
    {rename : α → β} {labels : List α} {label : α}
    (injective : ∀ other ∈ labels, rename other = rename label → other = label) :
    (labels.map rename).idxOf (rename label) = labels.idxOf label := by
  induction labels with
  | nil => rfl
  | cons first rest ih =>
      have restInjective : ∀ other ∈ rest, rename other = rename label →
          other = label := by
        intro other member
        exact injective other (List.mem_cons_of_mem _ member)
      have same : (rename first == rename label) = (first == label) := by
        rw [Bool.eq_iff_iff, beq_iff_eq, beq_iff_eq]
        exact ⟨injective first List.mem_cons_self, congrArg rename⟩
      rw [List.map_cons, List.idxOf_cons, List.idxOf_cons, ih restInjective, same]

namespace Code

/-- The place of a label among the labels that code mentions, counted from one. -/
def placeOf (code : Code) (label : Label) : Label :=
  ⟨(labels code).eraseDups.idxOf label + 1⟩

/-- Code with every label replaced by its place among the labels mentioned. -/
def canonical (code : Code) : Code := relabel (placeOf code) code

/-- The number of different labels that code mentions. -/
def labelCount (code : Code) : Nat := (labels code).eraseDups.length

theorem placeOf_injOn {code : Code} {left right : Label}
    (leftMentioned : left ∈ labels code)
    (equal : placeOf code left = placeOf code right) : left = right := by
  have places :
      (labels code).eraseDups.idxOf left = (labels code).eraseDups.idxOf right := by
    simpa [placeOf] using equal
  exact (List.idxOf_inj (List.mem_eraseDups.2 leftMentioned)).1 places

/-- Different labels have different places. -/
theorem placeOf_injective (code : Code) : ∀ left ∈ labels code, ∀ right ∈ labels code,
    placeOf code left = placeOf code right → left = right :=
  fun _ leftMentioned _ _ equal => placeOf_injOn leftMentioned equal

theorem labels_canonical (code : Code) :
    labels (canonical code) = (labels code).map (placeOf code) := labels_relabel _ code

theorem nodup_definitions_canonical {code : Code} (unique : (definitions code).Nodup) :
    (definitions (canonical code)).Nodup := by
  rw [canonical, definitions_relabel]
  apply unique.map_on
  intro left leftDefined right _ equal
  exact placeOf_injOn (mem_labels_iff.2 (Or.inl leftDefined)) equal

/-- As many labels are mentioned in the canonical form as in the code itself. -/
theorem labelCount_canonical (code : Code) :
    labelCount (canonical code) = labelCount code := by
  rw [labelCount, labels_canonical, eraseDups_map_of_injOn (placeOf_injective code),
    List.length_map, labelCount]

/-- The canonical form does not depend on the names of labels. -/
theorem canonical_relabel {rename : Label → Label} {code : Code}
    (injective : ∀ left ∈ labels code, ∀ right ∈ labels code,
      rename left = rename right → left = right) :
    canonical (relabel rename code) = canonical code := by
  rw [canonical, relabel_relabel, canonical]
  apply relabel_congr
  intro label mentioned
  have injectiveAt : ∀ other ∈ (labels code).eraseDups, rename other = rename label →
      other = label := by
    intro other member
    exact injective other (List.mem_eraseDups.1 member) label mentioned
  simp only [Function.comp_apply, placeOf, labels_relabel,
    eraseDups_map_of_injOn injective, idxOf_map_of_injOn injectiveAt]

/-- Where two pieces of code have no label in common, the second continues the
numbering of the first. -/
theorem canonical_append {first second : Code}
    (disjoint : ∀ label ∈ labels second, label ∉ labels first) :
    canonical (first ++ second) =
      canonical first ++
        relabel (Label.shift (labelCount first)) (canonical second) := by
  have places : (labels (first ++ second)).eraseDups =
      (labels first).eraseDups ++ (labels second).eraseDups := by
    rw [labels_append, eraseDups_append_of_disjoint disjoint]
  rw [canonical, relabel_append, canonical, canonical, relabel_relabel]
  congr 1
  · apply relabel_congr
    intro label mentioned
    rw [placeOf, places, List.idxOf_append,
      if_pos (List.mem_eraseDups.2 mentioned), placeOf]
  · apply relabel_congr
    intro label mentioned
    have elsewhere : label ∉ (labels first).eraseDups :=
      fun member => disjoint label mentioned (List.mem_eraseDups.1 member)
    rw [placeOf, places, List.idxOf_append, if_neg elsewhere]
    simp only [Function.comp_apply, placeOf, Label.shift, labelCount]
    congr 1
    omega

end Code

namespace Canonical

/-- A survey has taken in some code if it lists the labels mentioned and the
labels defined there. -/
structure Survey.Covers (survey : Survey) (seen : Code) : Prop where
  mentioned : survey.mentioned.toList = (Code.labels seen).eraseDups
  defined : survey.defined.toList = Code.definitions seen

namespace Survey

theorem covers_start : start.Covers [] := ⟨rfl, rfl⟩

theorem mentioned_note (survey : Survey) (instruction : Instruction) :
    (survey.note instruction).mentioned.toList =
      match instruction.label? with
      | none => survey.mentioned.toList
      | some label =>
        if label ∈ survey.mentioned.toList then survey.mentioned.toList
        else survey.mentioned.toList ++ [label] := by
  rw [note]
  cases instruction.label? with
  | none => rfl
  | some label => exact survey.mentioned.toList_add label

theorem defined_note (survey : Survey) (instruction : Instruction) :
    (survey.note instruction).defined = survey.defined := by
  rw [note]
  cases instruction.label? <;> rfl

theorem Covers.mentioned_note {survey : Survey} {seen : Code}
    (covers : survey.Covers seen) (instruction : Instruction) :
    (survey.note instruction).mentioned.toList =
      (Code.labels (seen ++ [instruction])).eraseDups := by
  rw [survey.mentioned_note, covers.mentioned, Code.labels_append, Code.labels_cons,
    Code.labels_nil, List.append_nil]
  cases instruction.label? with
  | none => simp
  | some label => simp [eraseDups_concat]

/-- A survey goes over code to its end if that defines no label for a second time. -/
theorem Covers.extend {survey : Survey} {seen code : Code} (covers : survey.Covers seen)
    (unique : (Code.definitions (seen ++ code)).Nodup) :
    ∃ after, survey.extend code = (after, none) ∧ after.Covers (seen ++ code) := by
  induction code generalizing survey seen with
  | nil => exact ⟨survey, rfl, by simpa using covers⟩
  | cons instruction rest ih =>
      have mentioned := covers.mentioned_note instruction
      have defined := survey.defined_note instruction
      rw [List.append_cons] at unique ⊢
      rw [Survey.extend]
      cases definition : instruction.defined? with
      | none =>
          apply ih ⟨mentioned, ?_⟩ unique
          rw [defined, covers.defined]
          simp [definition]
      | some label =>
          have fresh : label ∉ (survey.note instruction).defined.toList := by
            rw [defined, covers.defined]
            intro member
            rw [Code.definitions_append, Code.definitions_append, Code.definitions_cons,
              definition] at unique
            have parts := (List.nodup_append.1 unique).1
            exact (List.nodup_append.1 parts).2.2 label member label (by simp) rfl
          have unknown : (survey.note instruction).defined.contains label = false := by
            rw [Bool.eq_false_iff]
            intro known
            exact fresh (Numbering.contains_iff.1 known)
          have extended : ((survey.note instruction).defined.add label).toList =
              Code.definitions (seen ++ [instruction]) := by
            rw [Numbering.toList_add, if_neg fresh, defined, covers.defined]
            simp [definition]
          simp only [unknown, Bool.false_eq_true, if_false]
          exact @ih ⟨_, _⟩ _ ⟨mentioned, extended⟩ unique

theorem Covers.undefined?_eq {survey : Survey} {code : Code}
    (covers : survey.Covers code) :
    survey.undefined? =
      (Code.labels code).eraseDups.find? (· ∉ Code.definitions code) := by
  rw [undefined?, covers.mentioned]
  congr 1
  funext label
  have known :
      survey.defined.contains label = decide (label ∈ Code.definitions code) := by
    rw [Bool.eq_iff_iff, Numbering.contains_iff, covers.defined, decide_eq_true_iff]
  rw [known, decide_not]

theorem Covers.rename_eq {survey : Survey} {code : Code} (covers : survey.Covers code)
    {label : Label} (member : label ∈ Code.labels code) :
    rename survey.mentioned label = Code.placeOf code label := by
  have listed : label ∈ (Code.labels code).eraseDups := List.mem_eraseDups.2 member
  have inside := List.idxOf_lt_length_of_mem listed
  have place : survey.mentioned.number? label =
      some ((Code.labels code).eraseDups.idxOf label + 1) := by
    rw [Numbering.number?_eq_some_iff, covers.mentioned,
      List.getElem?_eq_getElem inside, List.getElem_idxOf]
  rw [rename, place, Code.placeOf]

end Survey

/-- Where no label is defined for a second time, only a label that is not
defined at all can be wrong. -/
theorem outcome_canonicalize_of_unique {code : Code}
    (unique : (Code.definitions code).Nodup) :
    (canonicalize code).outcome =
      match (Code.labels code).eraseDups.find? (· ∉ Code.definitions code) with
      | some label => .error (.undefinedLabel label)
      | none => .ok (Code.canonical code) := by
  obtain ⟨after, surveyed, covers⟩ := Survey.covers_start.extend unique
  have renumbered : renumber after.mentioned code = Code.canonical code := by
    apply Code.relabel_congr
    intro label member
    exact covers.rename_eq member
  rw [List.nil_append] at covers
  rw [← covers.undefined?_eq]
  simp only [canonicalize, survey, surveyed, renumbered]
  cases after.undefined? <;> rfl

/-- Code that defines each label once and mentions no others has a canonical form. -/
theorem outcome_canonicalize {code : Code} (unique : (Code.definitions code).Nodup)
    (closed : ∀ label ∈ Code.labels code, label ∈ Code.definitions code) :
    (canonicalize code).outcome = .ok (Code.canonical code) := by
  have allDefined :
      (Code.labels code).eraseDups.find? (· ∉ Code.definitions code) = none := by
    rw [List.find?_eq_none]
    intro label member
    simpa using closed label (List.mem_eraseDups.1 member)
  rw [outcome_canonicalize_of_unique unique, allDefined]

end Canonical

end StackCompiler
