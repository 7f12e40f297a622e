import StackCompiler.Code.Label
import Std.Data.TreeMap.Lemmas

/-!
# Labels in the order of their first mention

A numbering lists labels in the order in which they are added, each once,
and numbers them from one in that order. Its view is the list `toList`:
adding a label appends it unless it is there already (`toList_add`), and the
number of a label is its position in the list (`number?_eq_some_iff`). The
positions are also kept in a search tree, so that a label is found without a
walk along the list.
-/

namespace StackCompiler

/-- The position of a label in a list without repetitions, counted from one
at the far end. -/
def Label.position? (label : Label) : List Label → Option Nat
  | [] => none
  | first :: rest =>
      if first = label then some (rest.length + 1) else label.position? rest

/-- Labels in the order in which they were added, each once. -/
structure Numbering where
  /-- The labels, the one added last first. -/
  latestFirst : List Label
  /-- The positions of the labels, by their old numbers. -/
  positions : Std.TreeMap Nat Nat
  nodup : latestFirst.Nodup
  size_positions : positions.size = latestFirst.length
  positions_eq : ∀ label : Label, positions[label.number]? = label.position? latestFirst

namespace Label

theorem position?_isSome_iff {label : Label} {labels : List Label} :
    (label.position? labels).isSome ↔ label ∈ labels := by
  induction labels with
  | nil => simp [position?]
  | cons first rest ih =>
      rw [position?]
      split
      next same => simp [same]
      next different => simp [ih, Ne.symm different]

/-- Counted from the far end, positions are those of the reversed list. -/
theorem position?_eq_some_iff {label : Label} {labels : List Label}
    (nodup : labels.Nodup) {position : Nat} :
    label.position? labels = some (position + 1) ↔
    labels.reverse[position]? = some label := by
  induction labels with
  | nil => simp [position?]
  | cons first rest ih =>
      obtain ⟨fresh, nodup⟩ := List.nodup_cons.1 nodup
      rw [position?, List.reverse_cons, List.getElem?_append, List.length_reverse]
      split
      next same =>
        subst same
        constructor
        · intro here
          obtain rfl : rest.length = position := by simpa using here
          simp
        · intro here
          split at here
          next inside =>
            exact absurd (List.mem_reverse.1 (List.mem_of_getElem? here)) fresh
          next outside =>
            obtain ⟨inside, _⟩ := List.getElem?_eq_some_iff.1 here
            simp only [List.length_singleton] at inside
            congr
            omega
      next different =>
        rw [ih nodup]
        split
        next inside => rfl
        next outside =>
          constructor
          · intro here
            obtain ⟨inside, _⟩ := List.getElem?_eq_some_iff.1 here
            rw [List.length_reverse] at inside
            omega
          · intro here
            obtain ⟨_, same⟩ := List.getElem?_eq_some_iff.1 here
            rw [List.getElem_singleton] at same
            exact absurd same different

end Label

namespace Numbering

/-- No labels. -/
def empty : Numbering where
  latestFirst := []
  positions := ∅
  nodup := List.nodup_nil
  size_positions := by simp
  positions_eq := by simp [Label.position?]

/-- The labels, in the order in which they were added. -/
def toList (numbering : Numbering) : List Label := numbering.latestFirst.reverse

/-- The number of a label, if it was added. -/
def number? (numbering : Numbering) (label : Label) : Option Nat :=
  numbering.positions[label.number]?

/-- Whether a label was added. -/
def contains (numbering : Numbering) (label : Label) : Bool :=
  (numbering.number? label).isSome

theorem number?_eq (numbering : Numbering) (label : Label) :
    numbering.number? label = label.position? numbering.latestFirst :=
  numbering.positions_eq label

theorem contains_iff {numbering : Numbering} {label : Label} :
    numbering.contains label ↔ label ∈ numbering.toList := by
  rw [contains, number?_eq, Label.position?_isSome_iff, toList, List.mem_reverse]

/-- Adds a label that was not added before. -/
def push (numbering : Numbering) (label : Label)
    (fresh : numbering.contains label = false) : Numbering where
  latestFirst := label :: numbering.latestFirst
  positions := numbering.positions.insert label.number (numbering.positions.size + 1)
  nodup := by
    refine List.nodup_cons.2 ⟨?_, numbering.nodup⟩
    rw [← List.mem_reverse, ← toList, ← contains_iff, fresh]
    exact Bool.false_ne_true
  size_positions := by
    have absent : numbering.positions.contains label.number = false := by
      rw [Std.TreeMap.contains_eq_isSome_getElem?]
      exact fresh
    rw [Std.TreeMap.size_insert, numbering.size_positions, absent]
    simp
  positions_eq := by
    intro other
    rw [Std.TreeMap.getElem?_insert, numbering.size_positions, numbering.positions_eq,
      Label.position?]
    simp only [Nat.compare_eq_eq, ← Label.mk.injEq]

/-- Adds a label, unless it was added before. -/
def add (numbering : Numbering) (label : Label) : Numbering :=
  if fresh : numbering.contains label = false then numbering.push label fresh
  else numbering

/-- Adding a label appends it to the list, unless it is there. -/
theorem toList_add (numbering : Numbering) (label : Label) :
    (numbering.add label).toList =
      if label ∈ numbering.toList then numbering.toList
      else numbering.toList ++ [label] := by
  rw [add]
  split
  next fresh =>
    have absent : label ∉ numbering.toList := by
      rw [← contains_iff, fresh]
      exact Bool.false_ne_true
    rw [if_neg absent]
    simp [toList, push]
  next known =>
    have present : label ∈ numbering.toList := by
      rw [← contains_iff]
      simpa using known
    rw [if_pos present]

/-- The number of a label is its position in the list, counted from one. -/
theorem number?_eq_some_iff {numbering : Numbering} {label : Label} {position : Nat} :
    numbering.number? label = some (position + 1) ↔
      numbering.toList[position]? = some label := by
  rw [number?_eq, Label.position?_eq_some_iff numbering.nodup, toList]

end Numbering

end StackCompiler
