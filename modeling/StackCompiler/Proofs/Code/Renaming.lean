import Mathlib.Data.List.GetD
import Mathlib.Logic.Equiv.Fintype
import Mathlib.Tactic.TFAE
import StackCompiler.Proofs.Code.Linking

/-!
# Code up to the names of labels

The canonical form is a normal form: two pieces of code that have one have the
same one if and only if they differ in nothing but the names of their labels
(`Canonical.canonicalize_tfae_renaming`). That the form does not depend on names
is `Code.canonical_relabel`; conversely, code is its own canonical form with
every place replaced by the label found there, so that equal forms exhibit each
code as a renaming of the other.
-/

namespace StackCompiler

/-- A renaming that keeps finitely many labels apart agrees on them with one
that keeps all labels apart. -/
theorem exists_injective_of_injOn {rename : Label → Label} {labels : List Label}
    (injective : ∀ left ∈ labels, ∀ right ∈ labels, rename left = rename right →
      left = right) :
    ∃ extended : Label → Label, Function.Injective extended ∧
      ∀ label ∈ labels, extended label = rename label := by
  have apart :
      Function.Injective fun label : {label // label ∈ labels} => rename label := by
    intro left right equal
    exact Subtype.ext (injective left left.2 right right.2 equal)
  obtain ⟨extended, agrees⟩ := Equiv.Perm.exists_extending_pair
    (fun label : {label // label ∈ labels} => label.1) (fun label => rename label)
    Subtype.val_injective apart
  exact ⟨extended, extended.injective, fun label member => agrees ⟨label, member⟩⟩

namespace Code

/-- The label that has a place among the labels that code mentions. -/
def labelOf (code : Code) (place : Label) : Label :=
  (labels code).eraseDups.getD (place.number - 1) place

theorem labelOf_placeOf {code : Code} {label : Label}
    (mentioned : label ∈ labels code) : labelOf code (placeOf code label) = label := by
  have inside := List.idxOf_lt_length_of_mem (List.mem_eraseDups.2 mentioned)
  rw [labelOf, placeOf, Nat.add_sub_cancel, List.getD_eq_getElem _ _ inside,
    List.getElem_idxOf]

theorem relabel_id (code : Code) : relabel id code = code := by
  have same : ∀ instruction : Instruction, instruction.relabel id = instruction := by
    intro instruction
    cases instruction <;> rfl
  simp only [relabel, same, List.map_id']

/-- Code is its canonical form with every place replaced by the label found there. -/
theorem relabel_labelOf_canonical (code : Code) :
    relabel (labelOf code) (canonical code) = code := by
  have returns :
      ∀ label ∈ labels code, (labelOf code ∘ placeOf code) label = id label :=
    fun _ mentioned => labelOf_placeOf mentioned
  rw [canonical, relabel_relabel, relabel_congr returns, relabel_id]

/-- Where two pieces of code have the same canonical form, one is the other with
its labels renamed. -/
theorem exists_renaming_of_canonical_eq {code other : Code}
    (equal : canonical code = canonical other) :
    ∃ rename : Label → Label,
      (∀ left ∈ labels code, ∀ right ∈ labels code, rename left = rename right →
        left = right) ∧
      other = relabel rename code := by
  -- Every label of the one code has the place that some label of the other has.
  have matched : ∀ label ∈ labels code, ∃ name ∈ labels other,
      placeOf other name = placeOf code label := by
    intro label mentioned
    have placed : placeOf code label ∈ labels (canonical code) := by
      rw [labels_canonical]
      exact List.mem_map_of_mem mentioned
    rw [equal, labels_canonical] at placed
    exact List.mem_map.1 placed
  refine ⟨labelOf other ∘ placeOf code, ?_, ?_⟩
  · intro left leftMentioned right rightMentioned same
    obtain ⟨leftName, leftFound, leftPlace⟩ := matched left leftMentioned
    obtain ⟨rightName, rightFound, rightPlace⟩ := matched right rightMentioned
    simp only [Function.comp_apply, ← leftPlace, ← rightPlace,
      labelOf_placeOf leftFound, labelOf_placeOf rightFound] at same
    apply placeOf_injOn leftMentioned
    rw [← leftPlace, ← rightPlace, same]
  · rw [← relabel_relabel]
    change other = relabel (labelOf other) (canonical code)
    rw [equal, relabel_labelOf_canonical]

theorem linked_canonical {code : Code} (linked : Linked code) :
    Linked (canonical code) := by
  obtain ⟨unique, closed⟩ := linked_iff.1 linked
  refine linked_iff.2 ⟨nodup_definitions_canonical unique, ?_⟩
  intro place mentioned
  rw [labels_canonical] at mentioned
  obtain ⟨label, known, rfl⟩ := List.mem_map.1 mentioned
  rw [canonical, definitions_relabel]
  exact List.mem_map_of_mem (closed label known)

theorem canonical_canonical (code : Code) :
    canonical (canonical code) = canonical code :=
  canonical_relabel (placeOf_injective code)

end Code

namespace Canonical

/-- Two pieces of code have the same canonical form if and only if one is the other with
its labels renamed, whether no labels at all are merged or none of those mentioned. A
canonical form is its own. -/
theorem canonicalize_tfae_renaming {code other new newOther : Code}
    (succeeds : (canonicalize code).outcome = .ok new)
    (succeedsToo : (canonicalize other).outcome = .ok newOther) :
    [new = newOther,
      ∃ rename : Label → Label, Function.Injective rename ∧
        other = Code.relabel rename code,
      ∃ rename : Label → Label,
        (∀ left ∈ Code.labels code, ∀ right ∈ Code.labels code,
          rename left = rename right → left = right) ∧
        other = Code.relabel rename code].TFAE ∧
    (canonicalize new).outcome = .ok new := by
  obtain ⟨linked, rfl⟩ := outcome_canonicalize_eq_ok_iff.1 succeeds
  obtain ⟨_, rfl⟩ := outcome_canonicalize_eq_ok_iff.1 succeedsToo
  constructor
  · tfae_have 1 → 3 := Code.exists_renaming_of_canonical_eq
    tfae_have 3 → 2 := by
      intro holds
      rcases holds with ⟨rename, injective, rfl⟩
      obtain ⟨extended, extendedInjective, agrees⟩ :=
        exists_injective_of_injOn injective
      exact ⟨extended, extendedInjective, (Code.relabel_congr agrees).symm⟩
    tfae_have 2 → 1 := by
      intro holds
      rcases holds with ⟨rename, injective, rfl⟩
      exact (Code.canonical_relabel fun _ _ _ _ equal => injective equal).symm
    tfae_finish
  · exact outcome_canonicalize_eq_ok_iff.2
      ⟨Code.linked_canonical linked, (Code.canonical_canonical code).symm⟩

/-- Code with labels far apart, and the same code with labels in the way of
the final ones. -/
theorem canonicalize_tfae_renaming_swapped :
    (canonicalize [.gotoFalse ⟨7⟩, .goto ⟨40⟩, .label ⟨7⟩, .label ⟨40⟩]).outcome =
      .ok [.gotoFalse ⟨1⟩, .goto ⟨2⟩, .label ⟨1⟩, .label ⟨2⟩] ∧
    (canonicalize [.gotoFalse ⟨2⟩, .goto ⟨1⟩, .label ⟨2⟩, .label ⟨1⟩]).outcome =
      .ok [.gotoFalse ⟨1⟩, .goto ⟨2⟩, .label ⟨1⟩, .label ⟨2⟩] ∧
    (∃ rename : Label → Label, Function.Injective rename ∧
      [.gotoFalse ⟨2⟩, .goto ⟨1⟩, .label ⟨2⟩, .label ⟨1⟩] =
        Code.relabel rename [.gotoFalse ⟨7⟩, .goto ⟨40⟩, .label ⟨7⟩, .label ⟨40⟩]) ∧
    (canonicalize [.gotoFalse ⟨1⟩, .goto ⟨2⟩, .label ⟨1⟩, .label ⟨2⟩]).outcome =
      .ok [.gotoFalse ⟨1⟩, .goto ⟨2⟩, .label ⟨1⟩, .label ⟨2⟩] := by
  have succeeds :
      (canonicalize [.gotoFalse ⟨7⟩, .goto ⟨40⟩, .label ⟨7⟩, .label ⟨40⟩]).outcome =
      .ok [.gotoFalse ⟨1⟩, .goto ⟨2⟩, .label ⟨1⟩, .label ⟨2⟩] := by decide +kernel
  have succeedsToo :
      (canonicalize [.gotoFalse ⟨2⟩, .goto ⟨1⟩, .label ⟨2⟩, .label ⟨1⟩]).outcome =
      .ok [.gotoFalse ⟨1⟩, .goto ⟨2⟩, .label ⟨1⟩, .label ⟨2⟩] := by decide +kernel
  obtain ⟨equivalent, again⟩ := canonicalize_tfae_renaming succeeds succeedsToo
  exact ⟨succeeds, succeedsToo, (equivalent.out 0 1).1 rfl, again⟩

end Canonical

end StackCompiler
