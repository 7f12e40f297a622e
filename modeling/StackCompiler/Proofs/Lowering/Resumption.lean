import StackCompiler.Proofs.Code.InPlace
import StackCompiler.Proofs.Code.Positions
import StackCompiler.Proofs.Code.Renaming
import StackCompiler.Proofs.Lowering.Supplies

/-!
# Emission after the labels have been numbered

An assembly of which the labels have been numbered can be used further, but its
supply of labels does not know of the new numbers. As many labels as have been
taken are numbered from one on, so the last of them has just the number that is
taken next. It is the only number that is used again, and it is used for a
definition in both parts. So the next time the labels are numbered this one is
reported, unless there are no labels in one of the parts, and no label of the
one part is ever taken for a label of the other (`Emission.canonicalize_again`).
-/

namespace StackCompiler

namespace Code

variable {front back : Code}

/-- Linked code defines the labels that it mentions. -/
theorem Linked.mem_definitions_iff (linked : Linked front) {label : Label} :
    label ∈ definitions front ↔ label ∈ labels front :=
  ⟨fun defined => mem_labels_iff.2 (.inl defined), (linked_iff.1 linked).2 label⟩

/-- Linked code that follows linked code makes up linked code with it if they
have no label in common. -/
theorem Linked.append (linked : Linked front) (linkedBack : Linked back)
    (apart : ∀ label ∈ labels back, label ∉ labels front) : Linked (front ++ back) := by
  obtain ⟨unique, closed⟩ := linked_iff.1 linked
  obtain ⟨uniqueBack, closedBack⟩ := linked_iff.1 linkedBack
  rw [linked_iff, definitions_append, labels_append]
  constructor
  · refine unique.append uniqueBack ?_
    intro label defined definedBack
    exact apart label (linkedBack.mem_definitions_iff.1 definedBack)
      (linked.mem_definitions_iff.1 defined)
  · intro label mentioned
    rw [List.mem_append] at mentioned ⊢
    exact mentioned.imp (closed label) (closedBack label)

/-- The labels of the canonical form are the numbers from one to the
number of labels. -/
theorem mem_labels_canonical_iff {code : Code} {label : Label} :
    label ∈ labels (canonical code) ↔
    1 ≤ label.number ∧ label.number ≤ labelCount code := by
  rw [← List.mem_eraseDups, eraseDups_labels_canonical]
  cases label with
  | mk number => simp [List.mem_range'_1]; omega

/-- Code that defines a label falls into what comes before the definition and
what comes after. -/
theorem exists_eq_append_label {code : Code} {label : Label}
    (defined : label ∈ definitions code) :
    ∃ before after, code = before ++ .label label :: after := by
  obtain ⟨instruction, isIn, defines⟩ := List.mem_filterMap.1 defined
  cases instruction with
  | label name =>
      obtain rfl := Option.some.inj defines
      exact List.append_of_mem isIn
  | _ => contradiction

end Code

/-- The labels that code mentions are those it owns, in some order. -/
theorem OwnsLabels.eraseDups_labels_perm {code : Code} {first count : Nat}
    (owns : OwnsLabels code first count) :
    (Code.labels code).eraseDups.Perm ((List.range' first count).map Label.mk) := by
  have listed : (Code.labels code).eraseDups.Perm (Code.definitions code) := by
    rw [List.perm_ext_iff_of_nodup (Code.nodup_eraseDups _) owns.nodup_definitions]
    intro label
    rw [List.mem_eraseDups, owns.mem_labels_iff, owns.mem_definitions_iff]
  exact listed.trans owns.definitions_perm

theorem OwnsLabels.labelCount_eq {code : Code} {first count : Nat}
    (owns : OwnsLabels code first count) : code.labelCount = count := by
  rw [Code.labelCount, owns.eraseDups_labels_perm.length_eq, List.length_map,
    List.length_range']

/-- Where two pieces of code have one label in common, which both define, that
label is defined for a second time. -/
theorem Canonical.outcome_canonicalize_append_of_common {front back : Code}
    {label : Label} (unique : (Code.definitions front).Nodup)
    (uniqueBack : (Code.definitions back).Nodup)
    (defined : label ∈ Code.definitions front)
    (definedBack : label ∈ Code.definitions back)
    (common : ∀ other ∈ Code.definitions back, other ∈ Code.definitions front →
      other = label) :
    (canonicalize (front ++ back)).outcome = .error (.duplicateLabel label) := by
  obtain ⟨before, after, rfl⟩ := Code.exists_eq_append_label definedBack
  rw [Code.definitions_append, Code.definitions_cons] at uniqueBack common
  obtain ⟨uniqueBefore, _, fresh⟩ := List.nodup_append.1 uniqueBack
  rw [← List.append_assoc]
  apply outcome_canonicalize_of_repeated
  · rw [Code.definitions_append]
    refine unique.append uniqueBefore ?_
    -- A label in common comes at the definition at the earliest.
    intro other inFront inBefore
    have same := common other (List.mem_append_left _ inBefore) inFront
    exact fresh other inBefore label (by simp [Instruction.defined?]) same
  · rw [Code.definitions_append]
    exact List.mem_append_left _ defined

namespace OwnsLabels

variable {front added : Code} {taken more : Nat}

/-- The labels of the canonical form are those taken, each further on by one. -/
theorem mem_labels_canonical_iff (owns : OwnsLabels front 0 taken) {label : Label} :
    label ∈ Code.labels (Code.canonical front) ↔
    1 ≤ label.number ∧ label.number ≤ taken := by
  rw [Code.mem_labels_canonical_iff, owns.labelCount_eq]

/-- The last label of the canonical form is the next one that is taken, so it is
defined for a second time. -/
theorem outcome_canonicalize_append_canonical (owns : OwnsLabels front 0 taken)
    (ownsAdded : OwnsLabels added taken more) (oneTaken : 1 ≤ taken)
    (oneMore : 1 ≤ more) :
    (Canonical.canonicalize (Code.canonical front ++ added)).outcome =
      .error (.duplicateLabel ⟨taken⟩) := by
  have linked := Code.linked_canonical owns.linked
  apply Canonical.outcome_canonicalize_append_of_common
  · exact Code.nodup_definitions_canonical owns.nodup_definitions
  · exact ownsAdded.nodup_definitions
  · rw [linked.mem_definitions_iff, owns.mem_labels_canonical_iff]
    exact ⟨oneTaken, Nat.le_refl taken⟩
  · rw [ownsAdded.mem_definitions_iff]
    exact ⟨Nat.le_refl taken, Nat.lt_add_of_pos_right oneMore⟩
  · intro other definedAdded defined
    have late := (ownsAdded.mem_definitions_iff.1 definedAdded).1
    rw [linked.mem_definitions_iff, owns.mem_labels_canonical_iff] at defined
    exact congrArg Label.mk (Nat.le_antisymm defined.2 late)

/-- Where no labels are taken before or none after, the canonical form is that
of the two parts. -/
theorem outcome_canonicalize_append_canonical_of_none (owns : OwnsLabels front 0 taken)
    (ownsAdded : OwnsLabels added taken more) (noneInOne : taken = 0 ∨ more = 0) :
    (Canonical.canonicalize (Code.canonical front ++ added)).outcome =
      .ok (Code.canonical front ++ Code.canonical added) := by
  have apart :
      ∀ label ∈ Code.labels added, label ∉ Code.labels (Code.canonical front) := by
    intro label mentionedAdded mentioned
    rw [ownsAdded.mem_labels_iff] at mentionedAdded
    rw [owns.mem_labels_canonical_iff] at mentioned
    omega
  -- The numbers of the added code go on behind those of the other, but where
  -- there are any there are no others.
  have unshifted : ∀ label ∈ Code.labels (Code.canonical added),
      Label.shift (Code.labelCount (Code.canonical front)) label = id label := by
    intro label mentioned
    rw [Code.mem_labels_canonical_iff, ownsAdded.labelCount_eq] at mentioned
    obtain rfl : taken = 0 := by omega
    rw [Code.labelCount_canonical, owns.labelCount_eq]
    rfl
  have linked := (Code.linked_canonical owns.linked).append ownsAdded.linked apart
  refine Canonical.outcome_canonicalize_eq_ok_iff.2 ⟨linked, ?_⟩
  rw [Code.canonical_append apart, Code.canonical_canonical,
    Code.relabel_congr unshifted, Code.relabel_id]

/-- Whenever the labels can be numbered again, what has been added gets
labels of its own. -/
theorem eq_of_outcome_canonicalize_append_canonical {new : Code}
    (owns : OwnsLabels front 0 taken) (ownsAdded : OwnsLabels added taken more)
    (succeeds :
      (Canonical.canonicalize (Code.canonical front ++ added)).outcome = .ok new) :
    new = Code.canonical front ++ Code.canonical added ∧
    ∀ label ∈ Code.labels (Code.canonical added), label ∉
      Code.labels (Code.canonical front) := by
  have noneInOne : taken = 0 ∨ more = 0 := by
    by_contra someInBoth
    have oneTaken : 1 ≤ taken := by omega
    have oneMore : 1 ≤ more := by omega
    rw [owns.outcome_canonicalize_append_canonical ownsAdded oneTaken oneMore]
      at succeeds
    contradiction
  rw [owns.outcome_canonicalize_append_canonical_of_none ownsAdded noneInOne]
    at succeeds
  refine ⟨(Except.ok.inj succeeds).symm, ?_⟩
  intro label inAdded inFront
  rw [Code.mem_labels_canonical_iff, ownsAdded.labelCount_eq] at inAdded
  rw [owns.mem_labels_canonical_iff] at inFront
  omega

end OwnsLabels

/-- Numbering the labels of an assembly is numbering those of its code. -/
theorem Assembly.outcome_canonicalize (assembly : Assembly) :
    assembly.canonicalize.outcome =
      (Canonical.canonicalize assembly.code).outcome.map fun new =>
        { assembly with code := new } := by
  rw [canonicalize, Traced.outcome_bind]
  cases (Canonical.canonicalize assembly.code).outcome <;> rfl

namespace Emission

/-- What is emitted is appended, one after the other. -/
theorem code_emitAll (emissions : List Emission) (assembly : Assembly) :
    (emitAll emissions assembly).2.code =
      assembly.code ++ (emitAll emissions assembly).1.flatten := by
  induction emissions generalizing assembly with
  | nil => exact (List.append_nil _).symm
  | cons first rest ih =>
      have later := ih (first.emit assembly).2
      rw [emit_eq, List.append_assoc] at later
      rw [emitAll, emit_eq]
      exact later

/-- What becomes of a numbered assembly when the code `added` is appended, which
makes it `last`. For the code that was there, `taken` labels had been taken. -/
structure Resumed (numbered : Assembly) (taken more : Nat) (added : Code)
    (last : Assembly) : Prop where
  code : last.code = numbered.code ++ added
  allocated : last.supply.allocated = taken + more
  /-- With labels in both parts, the label taken last stands in the way, and
  nothing is written. -/
  collides : 1 ≤ taken → 1 ≤ more →
    last.canonicalize.outcome = .error (.duplicateLabel ⟨taken⟩) ∧
      Canonical.renumberInPlace.on last.code =
        (.error (.duplicateLabel ⟨taken⟩), last.code)
  succeeds : taken = 0 ∨ more = 0 → ∃ final, last.canonicalize.outcome = .ok final ∧
    Canonical.renumberInPlace.on last.code = (.ok ⟨⟩, final.code)
  /-- What was there stays as it is, and no label stands in both parts. -/
  apart : ∀ final, last.canonicalize.outcome = .ok final →
    ∃ new, final.code = numbered.code ++ new ∧ added.Renumbered new ∧
      ∀ label ∈ Code.labels new, label ∉ Code.labels numbered.code

/-- The labels of what is emitted can be numbered. If the assembly is used
further, they can be numbered again only if one of the parts has no labels. -/
theorem canonicalize_again (earlier later : List Emission) :
    let first := (emitAll earlier Assembly.empty).2
    ∃ numbered : Assembly, first.canonicalize.outcome = .ok numbered ∧
      first.code = (emitAll earlier Assembly.empty).1.flatten ∧
      numbered.supply = first.supply ∧
      Canonical.renumberInPlace.on first.code = (.ok ⟨⟩, numbered.code) ∧
      let added := (emitAll later numbered).1.flatten
      ∃ more, Resumed numbered first.supply.allocated more added
          (emitAll later numbered).2 := by
  intro first
  have collected : first.code = (emitAll earlier Assembly.empty).1.flatten :=
    code_emitAll earlier Assembly.empty
  have owns : OwnsLabels first.code 0 first.supply.allocated := by
    rw [collected]
    exact ownsLabels_emitAll_empty earlier
  have numbers :
      (Canonical.canonicalize first.code).outcome = .ok (Code.canonical first.code) :=
    Canonical.outcome_canonicalize_eq_ok_iff.2 ⟨owns.linked, rfl⟩
  let numbered : Assembly := ⟨first.supply, Code.canonical first.code⟩
  refine ⟨numbered, ?_, collected, rfl, ?_, ?_⟩
  · rw [Assembly.outcome_canonicalize, numbers]
    rfl
  · rw [Canonical.on_renumberInPlace, numbers]
  intro added
  have appended :
      (emitAll later numbered).2.code = Code.canonical first.code ++ added :=
    code_emitAll later numbered
  obtain ⟨more, ownsAdded, counted⟩ :
    ∃ more, OwnsLabels added first.supply.allocated more ∧
      (emitAll later numbered).2.supply.allocated = first.supply.allocated + more :=
    ⟨_, ownsLabels_emitAll later _,
      congrArg LabelSupply.allocated (supply_emitAll later _)⟩
  refine ⟨more, appended, counted, ?collides, ?succeeds, ?apart⟩
  all_goals rw [Assembly.outcome_canonicalize, appended]
  case collides =>
    intro oneTaken oneMore
    rw [Canonical.on_renumberInPlace,
      owns.outcome_canonicalize_append_canonical ownsAdded oneTaken oneMore]
    exact ⟨rfl, rfl⟩
  case succeeds =>
    intro noneInOne
    rw [Canonical.on_renumberInPlace,
      owns.outcome_canonicalize_append_canonical_of_none ownsAdded noneInOne]
    exact ⟨_, rfl, rfl⟩
  case apart =>
    intro final succeeds
    cases numbersAgain :
      (Canonical.canonicalize (Code.canonical first.code ++ added)).outcome with
    | error diagnostic =>
        rw [numbersAgain] at succeeds
        contradiction
    | ok whole =>
        rw [numbersAgain] at succeeds
        obtain rfl := Except.ok.inj succeeds
        obtain ⟨rfl, apart⟩ :=
          owns.eq_of_outcome_canonicalize_append_canonical ownsAdded numbersAgain
        exact ⟨Code.canonical added, rfl,
          Code.renumbered_canonical ownsAdded.linked, apart⟩

/-- The label of the conditional has the number that the second label of
the loop was given, which is noticed. A statement without labels can be
added to the loop. -/
theorem canonicalize_again_collision :
    let loop : Emission := .stmt (.loop (.number "1") (.print (.number "2")))
    let conditional : Emission := .stmt (.ifThen (.number "3") (.block []))
    let plain : Emission := .stmt (.print (.number "4"))
    let code : Code :=
      [.label ⟨1⟩, .eval "1", .gotoFalse ⟨2⟩, .print "2", .goto ⟨1⟩, .label ⟨2⟩]
    (emitAll [loop] Assembly.empty).2.canonicalize.outcome = .ok ⟨⟨2⟩, code⟩ ∧
      (emitAll [conditional] ⟨⟨2⟩, code⟩).2.canonicalize.outcome =
        .error (.duplicateLabel ⟨2⟩) ∧
      ∃ final, (emitAll [plain] ⟨⟨2⟩, code⟩).2.canonicalize.outcome = .ok final ∧
        final.code = code ++ [.print "4"] := by
  intro loop conditional plain code
  obtain ⟨numbered, numbers, _, _, _, more, resumed⟩ :=
    canonicalize_again [loop] [conditional]
  obtain rfl : numbered = ⟨⟨2⟩, code⟩ :=
    Except.ok.inj (numbers.symm.trans (by decide +kernel))
  obtain rfl : 1 = more := Nat.add_left_cancel resumed.allocated
  obtain ⟨same, numbersToo, _, _, _, noMore, resumedToo⟩ :=
    canonicalize_again [loop] [plain]
  obtain rfl : same = ⟨⟨2⟩, code⟩ := Except.ok.inj (numbersToo.symm.trans numbers)
  obtain rfl : 0 = noMore := Nat.add_left_cancel resumedToo.allocated
  obtain ⟨final, finalNumbers, _⟩ := resumedToo.succeeds (.inr rfl)
  obtain ⟨new, split, renumbered, _⟩ := resumedToo.apart final finalNumbers
  obtain ⟨only, rfl⟩ := List.length_eq_one_iff.1 renumbered.length_eq
  obtain rfl : only = .print "4" := Option.some.inj (renumbered.unlabelled 0 _ rfl rfl)
  exact ⟨numbers, (resumed.collides (by decide) (by decide)).1, final,
    finalNumbers, split⟩

end Emission

end StackCompiler
