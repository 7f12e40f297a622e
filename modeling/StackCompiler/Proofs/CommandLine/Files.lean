import StackCompiler.CommandLine.FileTree

/-!
# What writing a file changes

A path that can be written leads to one place of the tree, and every place above
that is a directory already. So the file at this place is all that writing
changes: at every other place the same is found as before, be it a file, a
directory or nothing (`FileTree.entry_of_write`), and the path leads to the new
content (`FileTree.read_of_write`).
-/

namespace StackCompiler.CommandLine

namespace Location

theorem contains_iff {upper lower : Location} :
    upper.contains lower ↔ upper.base = lower.base ∧ upper.below <+: lower.below := by
  rw [contains, Bool.and_eq_true, beq_iff_eq, List.isPrefixOf_iff_prefix]

theorem contains_child_iff {upper directory : Location} {name : String} :
    upper.contains (directory.child name) ↔
    upper = directory.child name ∨ upper.contains directory := by
  rw [contains_iff, contains_iff]
  obtain ⟨base, below⟩ := upper
  simp only [child, List.prefix_concat_iff, mk.injEq]
  constructor
  · rintro ⟨sameBase, same | above⟩
    · exact .inl ⟨sameBase, same⟩
    · exact .inr ⟨sameBase, above⟩
  · rintro (⟨sameBase, same⟩ | ⟨sameBase, above⟩)
    · exact ⟨sameBase, .inl same⟩
    · exact ⟨sameBase, .inr above⟩

end Location

namespace FileTree

variable {tree : FileTree} {directory location next : Location} {name step : String}
  {content : ByteArray}

theorem bind_eq_ok_iff {α β : Type} {first : Except PathFault α}
    {next : α → Except PathFault β} {result : β} :
    first >>= next = .ok result ↔
    ∃ value, first = .ok value ∧ next value = .ok result := by
  cases first with
  | error fault =>
      constructor
      · intro succeeds
        contradiction
      · rintro ⟨value, succeeds, _⟩
        contradiction
  | ok value =>
      constructor
      · intro succeeds
        exact ⟨value, rfl, succeeds⟩
      · rintro ⟨same, begins, succeeds⟩
        rwa [Except.ok.inj begins]

theorem find_eq_ok_iff {found : Entry} :
    tree.find location name = .ok found ↔
      name.utf8ByteSize ≤ maxNameBytes ∧ tree.entry (location.child name) = found := by
  rw [find]
  split
  next tooLong => simp [Nat.not_le.2 tooLong]
  next short => simp [Nat.not_lt.1 short]

/-! ### Directories that can be reached -/

/-- A directory can be reached if the places that contain it are directories,
itself among them. -/
def Reaches (tree : FileTree) (directory : Location) : Prop :=
  ∀ upper : Location, upper.contains directory → tree.entry upper = .directory

theorem reaches_of_below_eq_nil (atBase : directory.below = []) :
    tree.Reaches directory := by
  intro upper above
  obtain ⟨_, isPrefix⟩ := Location.contains_iff.1 above
  rw [atBase, List.prefix_nil] at isPrefix
  rw [entry, isPrefix]
  rfl

theorem Reaches.child (reaches : tree.Reaches directory)
    (isDirectory : tree.entry (directory.child name) = .directory) :
    tree.Reaches (directory.child name) := by
  intro upper above
  rcases Location.contains_child_iff.1 above with rfl | above
  · exact isDirectory
  · exact reaches upper above

theorem Reaches.parent (reaches : tree.Reaches directory) :
    tree.Reaches directory.parent := by
  obtain ⟨base, below⟩ := directory
  cases below with
  | nil =>
      apply reaches_of_below_eq_nil
      cases base <;> rfl
  | cons first rest =>
      have whole :
          Location.parent ⟨base, first :: rest⟩ = ⟨base, (first :: rest).dropLast⟩ := by
        cases base <;> rfl
      rw [whole]
      intro upper above
      obtain ⟨sameBase, isPrefix⟩ := Location.contains_iff.1 above
      exact reaches upper
        (Location.contains_iff.2 ⟨sameBase, isPrefix.trans (List.dropLast_prefix _)⟩)

/-- A step that can be taken leads nowhere, up, or down into a directory. -/
theorem enter_eq_ok (enters : tree.enter location step = .ok next) :
    step = "." ∧ next = location ∨ step = ".." ∧ next = location.parent ∨
      tree.entry (location.child step) = .directory ∧ next = location.child step := by
  rw [enter] at enters
  split at enters
  next nowhere => exact .inl ⟨eq_of_beq nowhere, (Except.ok.inj enters).symm⟩
  next =>
    split at enters
    next up => exact .inr (.inl ⟨eq_of_beq up, (Except.ok.inj enters).symm⟩)
    next =>
      obtain ⟨found, finds, enters⟩ := bind_eq_ok_iff.1 enters
      obtain ⟨_, rfl⟩ := find_eq_ok_iff.1 finds
      split at enters
      next isDirectory => exact .inr (.inr ⟨isDirectory, (Except.ok.inj enters).symm⟩)
      next => contradiction
      next => contradiction

theorem Reaches.enter (reaches : tree.Reaches location)
    (enters : tree.enter location step = .ok next) : tree.Reaches next := by
  rcases enter_eq_ok enters with ⟨_, rfl⟩ | ⟨_, rfl⟩ | ⟨isDirectory, rfl⟩
  · exact reaches
  · exact reaches.parent
  · exact reaches.child isDirectory

theorem Reaches.foldlM {steps : List String} (reaches : tree.Reaches location)
    (enters : steps.foldlM tree.enter location = .ok next) : tree.Reaches next := by
  induction steps generalizing location with
  | nil =>
      obtain rfl := Except.ok.inj enters
      exact reaches
  | cons first rest ih =>
      rw [List.foldlM_cons] at enters
      cases entered : tree.enter location first with
      | error fault =>
          rw [entered] at enters
          contradiction
      | ok inside =>
          rw [entered] at enters
          exact ih (reaches.enter entered) enters

/-! ### Storing a file -/

theorem lookup_store_of_ne {place other : Location} (differ : other ≠ place) :
    (tree.store place content).files.lookup other = tree.files.lookup other := by
  have kept (files : List (Location × ByteArray)) :
      (files.filter fun file => file.1 != place).lookup other = files.lookup other := by
    induction files with
    | nil => rfl
    | cons file rest ih =>
        rw [List.filter_cons, List.lookup_cons]
        split
        next => rw [List.lookup_cons, ih]
        next removed =>
          have here : file.1 = place := by simpa using removed
          rw [ih, here, beq_eq_false_iff_ne.2 differ]
  rw [store, List.lookup_cons, beq_eq_false_iff_ne.2 differ, kept]

/-- Where a place does not contain the file that is stored, what it contains
is not changed. -/
theorem any_store_of_not_contains {place other : Location}
    (apart : other.contains place = false) :
    (tree.store place content).files.any (other.contains ·.1) =
      tree.files.any (other.contains ·.1) := by
  rw [store, List.any_cons, apart, Bool.false_or, List.any_filter]
  congr 1
  funext file
  by_cases here : file.1 = place
  · rw [here, apart, Bool.and_false]
  · rw [bne_iff_ne.2 here, Bool.true_and]

theorem entry_store_self :
    (tree.store (directory.child name) content).entry (directory.child name) =
      .file content := by
  have named : (directory.child name).below.isEmpty = false := by simp [Location.child]
  rw [entry, named, store, List.lookup_cons, beq_self_eq_true]
  rfl

/-- Storing a file in a directory that can be reached changes nothing elsewhere. -/
theorem Reaches.entry_store_of_ne {other : Location} (reaches : tree.Reaches directory)
    (differ : other ≠ directory.child name) :
    (tree.store (directory.child name) content).entry other = tree.entry other := by
  cases above : other.contains (directory.child name) with
  | false =>
      rw [entry, entry, lookup_store_of_ne differ, any_store_of_not_contains above]
  | true =>
      -- The file is the first one in its new list, so the place is a directory
      -- for one reason more.
      have isDirectory :=
        reaches other ((Location.contains_child_iff.1 above).resolve_left differ)
      rw [isDirectory]
      rw [entry] at isDirectory ⊢
      split at isDirectory
      next atBase => rw [if_pos atBase]
      next named =>
        rw [if_neg named, lookup_store_of_ne differ]
        split at isDirectory
        next => contradiction
        next => rw [store, List.any_cons, above, Bool.true_or, if_pos rfl]

/-- A step that could be taken can be taken when a file has been stored. -/
theorem Reaches.enter_store (reaches : tree.Reaches directory)
    (noDirectory : tree.entry (directory.child name) ≠ .directory)
    (enters : tree.enter location step = .ok next) :
    (tree.store (directory.child name) content).enter location step = .ok next := by
  rcases enter_eq_ok enters with ⟨rfl, rfl⟩ | ⟨rfl, rfl⟩ | ⟨isDirectory, rfl⟩
  · rfl
  · rfl
  · have elsewhere : location.child step ≠ directory.child name := by
      intro here
      rw [here] at isDirectory
      exact noDirectory isDirectory
    rw [← enters, FileTree.enter, FileTree.enter, find, find,
      reaches.entry_store_of_ne elsewhere]

theorem Reaches.foldlM_store {steps : List String} (reaches : tree.Reaches directory)
    (noDirectory : tree.entry (directory.child name) ≠ .directory)
    (enters : steps.foldlM tree.enter location = .ok next) :
    steps.foldlM (tree.store (directory.child name) content).enter location =
      .ok next := by
  induction steps generalizing location with
  | nil => exact enters
  | cons first rest ih =>
      rw [List.foldlM_cons] at enters ⊢
      cases entered : tree.enter location first with
      | error fault =>
          rw [entered] at enters
          contradiction
      | ok inside =>
          rw [entered] at enters
          rw [reaches.enter_store noDirectory entered]
          exact ih enters

/-! ### Paths -/

/-- A path that can be followed leads through directories to a name that is
neither dot nor double dot. -/
theorem follow_eq_ok_iff {path : Path} :
    tree.follow path = .ok (directory, name) ↔
    path.steps.getLast? = some name ∧
    path.steps.dropLast.foldlM tree.enter ⟨path.base, []⟩ = .ok directory ∧
    (name == "." || name == "..") = false := by
  rw [follow]
  cases path.steps.getLast? with
  | none => simp
  | some last =>
      simp only [bind_eq_ok_iff, Option.some.injEq]
      constructor
      · rintro ⟨inside, entered, follows⟩
        split at follows
        next => contradiction
        next proper =>
          obtain ⟨rfl, rfl⟩ := Prod.mk.inj (Except.ok.inj follows)
          exact ⟨rfl, entered, Bool.eq_false_iff.2 proper⟩
      · rintro ⟨rfl, entered, proper⟩
        exact ⟨directory, entered, by rw [proper, if_neg Bool.false_ne_true]⟩

theorem reaches_of_follow {path : Path}
    (follows : tree.follow path = .ok (directory, name)) : tree.Reaches directory :=
  (reaches_of_below_eq_nil rfl).foldlM (follow_eq_ok_iff.1 follows).2.1

/-- A path leads to a file that has been stored where it led before. -/
theorem follow_store {path : Path} (follows : tree.follow path = .ok (directory, name))
    (noDirectory : tree.entry (directory.child name) ≠ .directory) :
    (tree.store (directory.child name) content).follow path =
      .ok (directory, name) := by
  obtain ⟨final, entered, proper⟩ := follow_eq_ok_iff.1 follows
  exact follow_eq_ok_iff.2
    ⟨final, (reaches_of_follow follows).foldlM_store noDirectory entered, proper⟩

/-- The place that a path leads to. Nothing needs to be there. -/
def placeOf (tree : FileTree) (text : String) : Except PathFault Location := do
  let path ← path? text
  let (directory, name) ← tree.follow path
  return directory.child name

theorem placeOf_eq_ok_iff {text : String} {place : Location} :
    tree.placeOf text = .ok place ↔
    ∃ path directory name, path? text = .ok path ∧
      tree.follow path = .ok (directory, name) ∧
      place = directory.child name := by
  rw [placeOf]
  simp only [bind_eq_ok_iff]
  constructor
  · rintro ⟨path, described, ⟨directory, name⟩, follows, leads⟩
    exact ⟨path, directory, name, described, follows, (Except.ok.inj leads).symm⟩
  · rintro ⟨path, directory, name, described, follows, rfl⟩
    exact ⟨path, described, ⟨directory, name⟩, follows, rfl⟩

/-- A file is written by storing it where its path leads to, which must not
be a directory. -/
theorem write_eq_ok {text : String} {after : FileTree}
    (writes : tree.write text content = .ok after) :
    ∃ path directory name, path? text = .ok path ∧
      tree.follow path = .ok (directory, name) ∧ path.slashed = false ∧
      name.utf8ByteSize ≤ maxNameBytes ∧
      tree.entry (directory.child name) ≠ .directory ∧
      after = tree.store (directory.child name) content := by
  obtain ⟨path, described, writes⟩ := bind_eq_ok_iff.1 writes
  obtain ⟨⟨directory, name⟩, follows, writes⟩ := bind_eq_ok_iff.1 writes
  dsimp only at writes
  split at writes
  next => contradiction
  next plain =>
    obtain ⟨found, finds, writes⟩ := bind_eq_ok_iff.1 writes
    obtain ⟨short, rfl⟩ := find_eq_ok_iff.1 finds
    refine ⟨path, directory, name, described, follows,
      Bool.eq_false_iff.2 plain, short, ?_⟩
    cases found : tree.entry (directory.child name) with
    | directory =>
        rw [found] at writes
        contradiction
    | _ =>
        rw [found] at writes
        exact ⟨Entry.noConfusion, (Except.ok.inj writes).symm⟩

/-- Writing a file changes what is found at the place that its path leads to,
and at no other place. -/
theorem entry_of_write {text : String} {after : FileTree}
    (writes : tree.write text content = .ok after) :
    ∃ place, tree.placeOf text = .ok place ∧ after.entry place = .file content ∧
      ∀ other, other ≠ place → after.entry other = tree.entry other := by
  obtain ⟨path, directory, name, described, follows, _, _, _, rfl⟩ := write_eq_ok writes
  refine ⟨directory.child name, placeOf_eq_ok_iff.2
      ⟨path, directory, name, described, follows, rfl⟩, entry_store_self, ?_⟩
  intro other differ
  exact (reaches_of_follow follows).entry_store_of_ne differ

/-- What has been written is what can be read. -/
theorem read_of_write {text : String} {after : FileTree}
    (writes : tree.write text content = .ok after) : after.read text = .ok content := by
  obtain ⟨path, directory, name, described, follows, plain, short, noDirectory, rfl⟩ :=
    write_eq_ok writes
  have finds : (tree.store (directory.child name) content).find directory name =
      .ok (.file content) :=
    find_eq_ok_iff.2 ⟨short, entry_store_self⟩
  refine bind_eq_ok_iff.2
    ⟨path, described, bind_eq_ok_iff.2 ⟨_, follow_store follows noDirectory, ?_⟩⟩
  refine bind_eq_ok_iff.2 ⟨_, finds, ?_⟩
  rw [plain]
  rfl

end FileTree

end StackCompiler.CommandLine
