import Mathlib.Data.List.Infix
import Mathlib.Data.List.TakeWhile
import Mathlib.Data.Prod.Lex
import Mathlib.Order.Bounds.Basic
import StackCompiler.Diagnostic
import StackCompiler.Proofs.Text.Bytes

/-!
# Anchors lead back to their places

A reader who splits a text at its line breaks, takes the line of an anchor and
skips the characters before its column comes to the place that the anchor was
made for (`Place.offset?_anchor`). So line and column tell places apart, and
they grow from each place of a text to those behind it (`Place.position_lt`). An
offset has the anchor of the last character boundary that is not beyond it
(`Diagnostic.anchors_exact`).
-/

namespace StackCompiler

namespace Text

/-! ### Lines -/

/-- The lines of a text, which are what its line breaks separate. -/
def lines (text : List Char) : List (List Char) := text.splitOn '\n'

/-- Lines with a line break behind each of them. -/
def ended (lines : List (List Char)) : List Char := lines.flatMap (· ++ ['\n'])

/-- The line with a number, counted from one. -/
def line? (text : List Char) (number : Nat) : Option (List Char) := do
  (lines text)[← subtract? number 1]?

/-- The byte offset behind the lines before the one with a number and
behind the characters of this line that stand before a column. Both are
counted from one. -/
def offset? (text : List Char) (number column : Nat) : Option Nat := do
  let line ← line? text number
  let skipped ← subtract? column 1
  if skipped ≤ line.length then
    some (byteLength (ended ((lines text).take (number - 1)) ++ line.take skipped))
  else none

theorem lines_ended_append {before : List (List Char)}
    (unbroken : ∀ line ∈ before, '\n' ∉ line) (rest : List Char) :
    lines (ended before ++ rest) = before ++ lines rest := by
  induction before with
  | nil => rfl
  | cons line before ih =>
      obtain ⟨here, later⟩ := List.forall_mem_cons.1 unbroken
      have split :
          ended (line :: before) ++ rest = line ++ '\n' :: (ended before ++ rest) := by
        simp [ended]
      rw [split, lines, List.splitOn_append_cons_self_of_not_mem here, ← lines,
        ih later, List.cons_append]

theorem newline_not_mem_takeWhile (text : List Char) :
    '\n' ∉ text.takeWhile (· != '\n') := by
  intro found
  simpa using List.mem_takeWhile_imp found

/-- The first line goes up to the first line break. -/
theorem exists_lines_append {front : List Char} (unbroken : '\n' ∉ front)
    (text : List Char) :
    ∃ later, lines (front ++ text) =
      (front ++ text.takeWhile (· != '\n')) :: later := by
  have inLine : '\n' ∉ front ++ text.takeWhile (· != '\n') :=
    List.not_mem_append unbroken (newline_not_mem_takeWhile text)
  have parts : text.takeWhile (· != '\n') ++ text.dropWhile (· != '\n') = text :=
    List.takeWhile_append_dropWhile
  cases left : text.dropWhile (· != '\n') with
  | nil =>
      rw [left, List.append_nil] at parts
      rw [parts] at inLine ⊢
      exact ⟨[], List.splitOn_eq_singleton inLine⟩
  | cons stop rest =>
      have isBreak : stop = '\n' := by
        have stops := List.head?_dropWhile_not (· != '\n') text
        rw [left] at stops
        simpa using stops
      rw [left, isBreak] at parts
      refine ⟨lines rest, ?_⟩
      conv_lhs => rw [← parts, ← List.append_assoc]
      exact List.splitOn_append_cons_self_of_not_mem inLine rest

/-- What stands behind a place are whole lines and the beginning of the current one. -/
theorem exists_ended (behind : List Char) :
    ∃ before : List (List Char), (∀ line ∈ before, '\n' ∉ line) ∧
      behind.reverse = ended before ++ (behind.takeWhile (· != '\n')).reverse ∧
      before.length = behind.count '\n' := by
  induction behind with
  | nil => exact ⟨[], List.forall_mem_nil _, rfl, rfl⟩
  | cons char behind ih =>
      obtain ⟨before, unbroken, split, counted⟩ := ih
      by_cases isBreak : char = '\n'
      · have line : '\n' ∉ (behind.takeWhile (· != '\n')).reverse :=
          fun found => newline_not_mem_takeWhile behind (List.mem_reverse.1 found)
        refine ⟨before ++ [(behind.takeWhile (· != '\n')).reverse], ?_, ?_, ?_⟩
        · exact List.forall_mem_append.2 ⟨unbroken, List.forall_mem_singleton.2 line⟩
        · rw [isBreak, List.reverse_cons, split]
          simp [ended]
        · simp [isBreak, counted]
      · refine ⟨before, unbroken, ?_, ?_⟩
        · rw [List.reverse_cons, split,
            List.takeWhile_cons_of_pos (by simpa using isBreak), List.reverse_cons,
            List.append_assoc]
        · rw [List.count_cons_of_ne isBreak, counted]

/-! ### Carriage returns -/

/-- The number of carriage returns at the end of a text. -/
def trailingReturns (text : List Char) : Nat :=
  (text.reverse.takeWhile (· == '\r')).length

/-- Nothing but the carriage returns at its end is cut off a line. -/
theorem trimReturns_append (line : List Char) :
    trimReturns line ++ List.replicate (trailingReturns line) '\r' = line := by
  have returns : line.reverse.takeWhile (· == '\r') =
      List.replicate (trailingReturns line) '\r' := by
    apply List.eq_replicate_iff.2
    exact ⟨rfl, fun char found => by simpa using List.mem_takeWhile_imp found⟩
  calc
    trimReturns line ++ List.replicate (trailingReturns line) '\r'
    _ = (line.reverse.takeWhile (· == '\r') ++
        line.reverse.dropWhile (· == '\r')).reverse := by
      rw [List.reverse_append, trimReturns, returns, List.reverse_replicate]
    _ = line := by rw [List.takeWhile_append_dropWhile, List.reverse_reverse]

theorem getLast?_trimReturns_ne (line : List Char) :
    (trimReturns line).getLast? ≠ some '\r' := by
  intro ends
  have stops := List.head?_dropWhile_not (· == '\r') line.reverse
  rw [trimReturns, List.getLast?_reverse] at ends
  rw [ends] at stops
  contradiction

/-! ### Places -/

namespace Place

theorem ofOffset_offset (place : Place) : ofOffset place.text place.offset = place := by
  rw [text, offset, ← byteLength_reverse, ofOffset_byteLength, List.reverse_reverse]

/-- A place is determined by its text and its offset. -/
theorem eq_of_offset_eq {place other : Place} (sameText : place.text = other.text)
    (equal : place.offset = other.offset) : place = other := by
  rw [← place.ofOffset_offset, sameText, equal, other.ofOffset_offset]

/-- The line of a place is the one that its anchor counts, and the place is
behind as many of its characters as the anchor says. -/
theorem exists_line (place : Place) :
    ∃ before later,
      lines place.text =
        before ++ (place.lineBehind.reverse ++ place.lineAhead) :: later ∧
      before.length + 1 = place.anchor.line ∧
      ended before ++ place.lineBehind.reverse = place.behind.reverse := by
  obtain ⟨before, unbroken, split, counted⟩ := exists_ended place.behind
  have inLine : '\n' ∉ place.lineBehind.reverse :=
    fun found => newline_not_mem_takeWhile place.behind (List.mem_reverse.1 found)
  obtain ⟨later, first⟩ := exists_lines_append inLine place.ahead
  refine ⟨before, later, ?_, congrArg (· + 1) counted, split.symm⟩
  rw [text, split, List.append_assoc, lines_ended_append unbroken]
  exact congrArg (before ++ ·) first

theorem line?_anchor (place : Place) :
    line? place.text place.anchor.line =
      some (place.lineBehind.reverse ++ place.lineAhead) := by
  obtain ⟨before, later, split, counted, _⟩ := place.exists_line
  rw [line?, ← counted, Nat.add_comm, subtract?_add, split]
  simp

/-- Line and column lead back to the place that they are shown for. -/
theorem offset?_anchor (place : Place) :
    offset? place.text place.anchor.line place.anchor.column = some place.offset := by
  obtain ⟨before, later, split, counted, front⟩ := place.exists_line
  have skipped :
      subtract? place.anchor.column 1 = some place.lineBehind.reverse.length := by
    rw [List.length_reverse, ← subtract?_add 1, Nat.add_comm]
    rfl
  have inside : place.lineBehind.reverse.length ≤
      (place.lineBehind.reverse ++ place.lineAhead).length := by simp
  rw [offset?, line?_anchor, skipped]
  simp only [Option.bind_eq_bind, Option.bind_some, if_pos inside]
  rw [← counted, Nat.add_sub_cancel, split, List.take_left, List.take_left, front,
    byteLength_reverse, offset]

/-- The characters between two places of one text are behind the farther one. -/
theorem exists_between {place farther : Place} (sameText : place.text = farther.text)
    (before : place.offset < farther.offset) :
    ∃ between, between ≠ [] ∧ farther.behind = between ++ place.behind := by
  have isPrefix : place.behind.reverse <+: place.text := ⟨_, rfl⟩
  have isPrefixToo : farther.behind.reverse <+: place.text := sameText ▸ ⟨_, rfl⟩
  rcases List.prefix_or_prefix_of_prefix isPrefix isPrefixToo with nearer | beyond
  · obtain ⟨between, split⟩ := List.reverse_prefix.1 nearer
    refine ⟨between, ?_, split.symm⟩
    rintro rfl
    rw [offset, offset, ← split, List.nil_append] at before
    exact Nat.lt_irrefl _ before
  · obtain ⟨between, split⟩ := List.reverse_prefix.1 beyond
    rw [offset, offset, ← split, byteLength_append] at before
    exact absurd before (Nat.not_lt.2 (Nat.le_add_left _ _))

end Place

/-- Line and column, to be compared line by line. -/
def Anchor.position (anchor : Anchor) : Nat ×ₗ Nat := toLex (anchor.line, anchor.column)

theorem Anchor.position_eq_iff {anchor other : Anchor} :
    anchor.position = other.position ↔
    anchor.line = other.line ∧ anchor.column = other.column := by
  rw [position, position, toLex_inj, Prod.mk.injEq]

namespace Place

/-- A place behind another one is in a later line, or farther to the right
in the same line. -/
theorem position_lt {place farther : Place} (sameText : place.text = farther.text)
    (before : place.offset < farther.offset) :
    place.anchor.position < farther.anchor.position := by
  obtain ⟨between, some, split⟩ := exists_between sameText before
  rw [Anchor.position, Anchor.position, Prod.Lex.toLex_lt_toLex]
  simp only [anchor, lineBehind, split, List.count_append]
  by_cases breaks : '\n' ∈ between
  · left
    have passed := List.count_pos_iff.2 breaks
    omega
  · right
    have inLine : ∀ char ∈ between, (char != '\n') = true := by
      intro char found
      rw [bne_iff_ne]
      rintro rfl
      exact breaks found
    have positive := List.length_pos_iff.2 some
    rw [List.count_eq_zero.2 breaks, List.takeWhile_append_of_pos inLine,
      List.length_append]
    omega

variable {place other : Place}

/-- Line and column tell the places of a text apart. -/
theorem position_eq_iff (sameText : place.text = other.text) :
    place.anchor.position = other.anchor.position ↔ place.offset = other.offset := by
  constructor
  · intro equal
    by_contra different
    rcases Nat.lt_or_gt_of_ne different with before | behind
    · exact (position_lt sameText before).ne equal
    · exact (position_lt sameText.symm behind).ne' equal
  · intro equal
    rw [eq_of_offset_eq sameText equal]

/-- Line and column are in the order of the places of a text. -/
theorem position_lt_iff (sameText : place.text = other.text) :
    place.anchor.position < other.anchor.position ↔ place.offset < other.offset := by
  constructor
  · intro before
    rcases lt_trichotomy place.offset other.offset with here | equal | behind
    · exact here
    · exact absurd ((position_eq_iff sameText).2 equal) before.ne
    · exact absurd (position_lt sameText.symm behind) before.asymm
  · exact position_lt sameText

end Place

/-! ### Offsets -/

/-- The offsets at which a character of a text begins or the text ends. -/
def boundaries (text : List Char) : Set Nat :=
  {offset | ∃ before, before <+: text ∧ byteLength before = offset}

namespace Place

theorem offset_advance_bounds (behind : List Char) (bytes : Nat) (ahead : List Char) :
    byteLength behind ≤ (advance behind bytes ahead).offset ∧
      (advance behind bytes ahead).offset ≤ byteLength behind + bytes := by
  induction ahead generalizing behind bytes with
  | nil => exact ⟨Nat.le_refl _, Nat.le_add_right _ _⟩
  | cons char ahead ih =>
      rw [advance]
      split
      next fits =>
        have bounds := ih (char :: behind) (bytes - char.utf8Size)
        rw [byteLength_cons] at bounds
        omega
      next => exact ⟨Nat.le_refl _, Nat.le_add_right _ _⟩

/-- Characters that take up no more than the given bytes are passed. -/
theorem le_offset_advance (behind : List Char) {before : List Char} {bytes : Nat}
    (fits : byteLength before ≤ bytes) (after : List Char) :
    byteLength behind + byteLength before ≤
      (advance behind bytes (before ++ after)).offset := by
  induction before generalizing behind bytes with
  | nil => exact (offset_advance_bounds behind bytes after).1
  | cons char before ih =>
      rw [byteLength_cons] at fits ⊢
      have passed := ih (char :: behind) (Nat.le_sub_of_add_le' fits)
      rw [byteLength_cons] at passed
      rw [List.cons_append, advance, if_pos (Nat.le_of_add_right_le fits)]
      omega

/-- The place of an offset is at the last boundary that is not beyond the offset. -/
theorem isGreatest_offset_ofOffset (text : List Char) (loc : Nat) :
    IsGreatest {boundary ∈ boundaries text | boundary ≤ min loc (byteLength text)}
      (ofOffset text loc).offset := by
  have inside := text_ofOffset text loc
  have isPrefix : (ofOffset text loc).behind.reverse <+: text := ⟨_, inside⟩
  have notBeyond : (ofOffset text loc).offset ≤ loc := by
    have bounds := (offset_advance_bounds [] loc text).2
    rwa [byteLength_nil, Nat.zero_add] at bounds
  have within : (ofOffset text loc).offset ≤ byteLength text := by
    conv_rhs => rw [← inside]
    rw [Place.text, byteLength_append, byteLength_reverse]
    exact Nat.le_add_right _ _
  refine ⟨⟨⟨_, isPrefix, byteLength_reverse _⟩, Nat.le_min.2 ⟨notBeyond, within⟩⟩, ?_⟩
  rintro boundary ⟨⟨before, ⟨after, rfl⟩, rfl⟩, fits⟩
  have passed := le_offset_advance [] (Nat.le_min.1 fits).1 after
  rwa [byteLength_nil, Nat.zero_add] at passed

end Place

/-- What an anchor says about a boundary of a text: its line and column lead
there, it quotes this line without the carriage returns at the end, and its
caret is in this column. -/
structure Anchor.Shows (anchor : Anchor) (text : List Char)
    (boundary : Nat) : Prop where
  offset?_eq : offset? text anchor.line anchor.column = some boundary
  line?_eq : ∃ returns, line? text anchor.line =
    some (anchor.sourceLine.toList ++ List.replicate returns '\r')
  getLast?_ne : anchor.sourceLine.toList.getLast? ≠ some '\r'
  toList_marker : anchor.marker.toList = List.replicate (anchor.column - 1) ' ' ++ ['^']

/-- The quoted line, with the carriage returns that it is without, is the
line of the place. -/
theorem Place.sourceLine_append (place : Place) :
    place.anchor.sourceLine.toList ++
        List.replicate
          (trailingReturns (place.lineBehind.reverse ++ place.lineAhead)) '\r' =
      place.lineBehind.reverse ++ place.lineAhead := by
  rw [anchor, String.toList_ofList, trimReturns_append]

theorem Place.shows_anchor (place : Place) :
    place.anchor.Shows place.text place.offset where
  offset?_eq := place.offset?_anchor
  line?_eq := by
    refine ⟨trailingReturns (place.lineBehind.reverse ++ place.lineAhead), ?_⟩
    rw [line?_anchor, sourceLine_append]
  getLast?_ne := by
    rw [anchor, String.toList_ofList]
    exact getLast?_trimReturns_ne _
  toList_marker := String.toList_ofList

end Text

open Text

/-- Anchors are exact. Whatever is reported at an offset, the anchor shows the
greatest boundary of characters up to the offset, and anchors are ordered as
these boundaries are. -/
theorem Diagnostic.anchors_exact (source : List Char) :
    ∃ (floor : Nat → Nat) (anchor : Nat → Anchor),
      (∀ loc,
        IsGreatest
          {boundary ∈ boundaries source | boundary ≤ min loc (byteLength source)}
          (floor loc)) ∧
      (∀ loc,
        (∀ message, malformedAt source loc message = malformed (anchor loc) message) ∧
        (∀ char, invalidCharacterAt source loc char =
          invalidCharacter (anchor loc) char) ∧
        (anchor loc).Shows source (floor loc)) ∧
      ∀ loc other,
        ((anchor loc).line = (anchor other).line ∧
            (anchor loc).column = (anchor other).column ↔
          floor loc = floor other) ∧
        ((anchor loc).position < (anchor other).position ↔
          floor loc < floor other) := by
  have inside (loc : Nat) : (Place.ofOffset source loc).text = source :=
    Place.text_ofOffset source loc
  refine ⟨fun loc => (Place.ofOffset source loc).offset, Anchor.ofOffset source,
    Place.isGreatest_offset_ofOffset source,
    fun loc => ⟨fun _ => rfl, fun _ => rfl, ?_⟩, fun loc other => ?_⟩
  · have shows := (Place.ofOffset source loc).shows_anchor
    rwa [inside] at shows
  · have sameText := (inside loc).trans (inside other).symm
    rw [← Anchor.position_eq_iff]
    exact ⟨Place.position_eq_iff sameText, Place.position_lt_iff sameText⟩

/-- The third byte is inside of a character that begins the second line. -/
example : (Diagnostic.malformedAt "a\né".toList 3 "").anchor? = some ⟨2, 1, "é"⟩ ∧
    offset? "a\né".toList 2 1 = some 2 := by decide

end StackCompiler
