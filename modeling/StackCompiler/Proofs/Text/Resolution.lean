import StackCompiler.Proofs.Text.Bytes
import StackCompiler.Text.Anchor

/-!
# Anchors found by byte offsets

The anchor of an offset can be found by going down from the offset to the
nearest place between characters, and from there to the line breaks on both
sides. Each part of the text that is cut out on the way begins and ends between
characters, the way down ends within the text, and a column is never zero
(`Anchor.resolve?_eq`), whatever the offset.
-/

namespace StackCompiler.Text

/-- The nearest offset between characters, going down from `loc`. There must be one. -/
def boundaryBelow? (text : List Char) : Nat → Option Nat
  | 0 => if isBoundary text 0 then some 0 else none
  | loc + 1 =>
      if isBoundary text (loc + 1) then some (loc + 1) else boundaryBelow? text loc

/-- Finds the anchor of an offset and its marker. -/
def Anchor.resolve? (source : List Char) (loc : Nat) : Option (Anchor × String) := do
  let safe ← boundaryBelow? source (min loc (bytes source).length)
  let before ← sliceTo? source safe
  let lineStart := (findLast? '\n' before).elim 0 (· + 1)
  let after ← sliceFrom? source safe
  let lineEnd := (find? '\n' after).elim (bytes source).length (safe + ·)
  let line ← sliceBetween? source lineStart lineEnd
  let lineBehind ← sliceBetween? source lineStart safe
  let column := lineBehind.length + 1
  let indent ← subtract? column 1
  return (⟨before.count '\n' + 1, column, String.ofList (trimReturns line)⟩,
    String.ofList (List.replicate indent ' ' ++ ['^']))

namespace Place

/-- One byte more leads to the offset of this byte or not any further. -/
theorem advance_succ {behind : List Char} {bytes : Nat} {ahead : List Char}
    (within : (advance behind (bytes + 1) ahead).offset ≠
      byteLength behind + (bytes + 1)) :
    advance behind (bytes + 1) ahead = advance behind bytes ahead := by
  induction ahead generalizing behind bytes with
  | nil => rfl
  | cons char ahead ih =>
      rw [advance] at within ⊢
      split at within
      next fits =>
        rw [if_pos fits, advance]
        -- Either the character fits without the last byte, or it ends with it,
        -- and then nothing else fits.
        rcases Nat.lt_or_eq_of_le fits with fitsBefore | exactly
        · have less : bytes + 1 - char.utf8Size = bytes - char.utf8Size + 1 :=
            Nat.succ_sub (Nat.le_of_lt_succ fitsBefore)
          rw [less] at within ⊢
          rw [if_pos (Nat.le_of_lt_succ fitsBefore)]
          apply ih
          rw [byteLength_cons]
          omega
        · rw [exactly, Nat.sub_self] at within
          have stays : advance (char :: behind) 0 ahead = ⟨char :: behind, ahead⟩ :=
            advance_byteLength (char :: behind) [] ahead
          rw [stays, offset, byteLength_cons, exactly, Nat.add_comm] at within
          contradiction
      next beyond =>
          rw [if_neg beyond, advance,
            if_neg (fun fits => beyond (Nat.le_succ_of_le fits))]

/-- With enough bytes the end is reached. -/
theorem advance_of_byteLength_le {behind : List Char} {bytes : Nat} {ahead : List Char}
    (enough : byteLength ahead ≤ bytes) :
    advance behind bytes ahead = ⟨ahead.reverse ++ behind, []⟩ := by
  induction ahead generalizing behind bytes with
  | nil => rfl
  | cons char ahead ih =>
      rw [byteLength_cons] at enough
      rw [advance, if_pos (Nat.le_of_add_right_le enough),
        ih (Nat.le_sub_of_add_le' enough), List.reverse_cons, List.append_assoc]
      rfl

theorem ofOffset_min (text : List Char) (loc : Nat) :
    ofOffset text (min loc (byteLength text)) = ofOffset text loc := by
  rcases Nat.le_total loc (byteLength text) with within | beyond
  · rw [Nat.min_eq_left within]
  · rw [Nat.min_eq_right beyond, ofOffset, ofOffset, advance_of_byteLength_le beyond,
      advance_of_byteLength_le (Nat.le_refl _)]

end Place

/-- The way down ends at the last place that is not beyond the offset. -/
theorem boundaryBelow?_eq (text : List Char) (loc : Nat) :
    boundaryBelow? text loc = some (Place.ofOffset text loc).offset := by
  induction loc with
  | zero =>
      have atStart : Place.ofOffset text 0 = ⟨[], text⟩ :=
        Place.ofOffset_byteLength [] text
      rw [boundaryBelow?, isBoundary, atStart]
      rfl
  | succ loc ih =>
      rw [boundaryBelow?]
      split
      next exactly => rw [eq_of_beq exactly]
      next within =>
        rw [ih, Place.ofOffset, Place.ofOffset, Place.advance_succ]
        simpa [isBoundary, Place.ofOffset] using within

namespace Place

variable (place : Place)

theorem sliceTo?_offset :
    sliceTo? place.text place.offset = some place.behind.reverse := by
  rw [text, offset, ← byteLength_reverse, sliceTo?_append]

theorem sliceFrom?_offset : sliceFrom? place.text place.offset = some place.ahead := by
  rw [text, offset, ← byteLength_reverse, sliceFrom?_append]

/-- The offset at which the current line begins. -/
def lineStart : Nat := byteLength (place.behind.dropWhile (· != '\n'))

/-- The offset at which the current line ends. -/
def lineEnd : Nat := place.offset + byteLength place.lineAhead

theorem findLast?_behind :
    (findLast? '\n' place.behind.reverse).elim 0 (· + 1) = place.lineStart :=
  findLast?_elim rfl place.behind

theorem find?_ahead :
    (find? '\n' place.ahead).elim (byteLength place.text) (place.offset + ·) =
      place.lineEnd := by
  rw [text, byteLength_append, byteLength_reverse]
  exact find?_elim '\n' place.offset place.ahead

theorem offset_eq_lineStart_add :
    place.offset = place.lineStart + byteLength place.lineBehind.reverse := by
  have parts : place.lineBehind ++ place.behind.dropWhile (· != '\n') = place.behind :=
    List.takeWhile_append_dropWhile
  rw [lineStart, byteLength_reverse, Nat.add_comm, ← byteLength_append, parts, offset]

/-- A text is what stands before the current line, the line up to the place and
after it, and the lines that follow. -/
theorem text_eq_lines :
    place.text =
      (place.behind.dropWhile (· != '\n')).reverse ++ (place.lineBehind.reverse ++
          (place.lineAhead ++ place.ahead.dropWhile (· != '\n'))) := by
  rw [← List.append_assoc, ← List.reverse_append, lineBehind, lineAhead,
    List.takeWhile_append_dropWhile, List.takeWhile_append_dropWhile, text]

theorem sliceBetween?_lineBehind :
    sliceBetween? place.text place.lineStart place.offset =
      some place.lineBehind.reverse := by
  rw [text_eq_lines, offset_eq_lineStart_add, lineStart,
      ← byteLength_reverse (List.dropWhile _ _)]
  exact sliceBetween?_append _ _ _

theorem sliceBetween?_line : sliceBetween? place.text place.lineStart place.lineEnd =
    some (place.lineBehind.reverse ++ place.lineAhead) := by
  rw [text_eq_lines, lineEnd, offset_eq_lineStart_add, Nat.add_assoc,
    ← byteLength_append, ← List.append_assoc _ _ (List.dropWhile _ _), lineStart,
      ← byteLength_reverse (List.dropWhile _ _)]
  exact sliceBetween?_append _ _ _

end Place

/-- Whatever the offset, its anchor is found. -/
theorem Anchor.resolve?_eq (source : List Char) (loc : Nat) :
    resolve? source loc = some (ofOffset source loc, (ofOffset source loc).marker) := by
  have inside := Place.text_ofOffset source loc
  rw [resolve?, length_bytes, boundaryBelow?_eq, Place.ofOffset_min, ofOffset]
  generalize Place.ofOffset source loc = place at inside ⊢
  rw [← inside]
  have column : subtract? (place.lineBehind.reverse.length + 1) 1 =
      some place.lineBehind.reverse.length := by
    rw [Nat.add_comm, subtract?_add]
  simp only [Option.bind_eq_bind, Option.bind_some, Place.sliceTo?_offset,
    Place.sliceFrom?_offset, Place.findLast?_behind, Place.find?_ahead,
    Place.sliceBetween?_line, Place.sliceBetween?_lineBehind, column]
  rw [List.count_reverse, List.length_reverse]
  rfl

end StackCompiler.Text
