import StackCompiler.Proofs.Text.Slices

/-!
# A text as bytes

A text can be read by byte offsets: a byte at its index, or the part between two
offsets. These operations fail, as they do on a machine, where an index lies
beyond the text, where an offset does not fall between two characters, and where
a difference would be negative. None of this happens at an offset where the
characters before a place end.

A class of characters can be told from a byte if none of its members takes up
more than one byte (`byteAt?_append`): the first byte of any longer character is
beyond those of the short ones.
-/

namespace StackCompiler.Text

/-- The bytes of a text in UTF-8. -/
def bytes (text : List Char) : List UInt8 := text.flatMap String.utf8EncodeChar

/-- The byte at an index, which must lie within the text. -/
def byteAt? (text : List Char) (index : Nat) : Option UInt8 := (bytes text)[index]?

/-- Whether an offset falls between two characters of a text or at one
of its ends. The offset 1 does not in a text that begins with a
character of two bytes. -/
def isBoundary (text : List Char) (loc : Nat) : Bool :=
  (Place.ofOffset text loc).offset == loc

/-- The part of a text from an offset on. -/
def sliceFrom? (text : List Char) (loc : Nat) : Option (List Char) :=
  if isBoundary text loc then some (Place.ofOffset text loc).ahead else none

/-- The part of a text up to an offset. -/
def sliceTo? (text : List Char) (loc : Nat) : Option (List Char) :=
  if isBoundary text loc then some (Place.ofOffset text loc).behind.reverse else none

/-- The part of a text from the offset `first` up to the offset `last`. -/
def sliceBetween? (text : List Char) (first last : Nat) : Option (List Char) :=
  if first ≤ last then slice? text first (last - first) else none

/-- A difference that must not be negative. -/
def subtract? (whole part : Nat) : Option Nat :=
  if part ≤ whole then some (whole - part) else none

/-! ### Offsets between characters -/

/-- These are the bytes that a string consists of. -/
theorem bytes_toList (text : String) :
    bytes text.toList = text.toByteArray.data.toList := by
  rw [← String.utf8Encode_toList, List.utf8Encode, List.data_toByteArray]
  rfl

@[simp] theorem length_bytes (text : List Char) :
    (bytes text).length = byteLength text := by
  induction text with
  | nil => rfl
  | cons char rest ih =>
      rw [bytes, List.flatMap_cons, List.length_append, String.length_utf8EncodeChar,
        byteLength_cons, ← ih]
      rfl

theorem byteLength_pos {text : List Char} (some : 0 < text.length) :
    0 < byteLength text := by
  cases text with
  | nil => contradiction
  | cons char rest => exact Nat.add_pos_left char.utf8Size_pos _

theorem isBoundary_byteLength (before after : List Char) :
    isBoundary (before ++ after) (byteLength before) := by
  rw [isBoundary, Place.ofOffset_byteLength, Place.offset, byteLength_reverse,
    beq_self_eq_true]

theorem sliceFrom?_append (before after : List Char) :
    sliceFrom? (before ++ after) (byteLength before) = some after := by
  rw [sliceFrom?, if_pos (isBoundary_byteLength before after),
    Place.ofOffset_byteLength]

theorem sliceTo?_append (before after : List Char) :
    sliceTo? (before ++ after) (byteLength before) = some before := by
  rw [sliceTo?, if_pos (isBoundary_byteLength before after), Place.ofOffset_byteLength,
    List.reverse_reverse]

theorem sliceBetween?_append (before text after : List Char) :
    sliceBetween? (before ++ (text ++ after)) (byteLength before)
        (byteLength before + byteLength text) = some text := by
  rw [sliceBetween?, if_pos (Nat.le_add_right _ _), Nat.add_sub_cancel_left,
    slice?_append]

theorem subtract?_add (first second : Nat) :
    subtract? (first + second) first = some second := by
  rw [subtract?, if_pos (Nat.le_add_right _ _), Nat.add_sub_cancel_left]

/-! ### Characters of one byte -/

/-- A class of characters with one byte each. -/
def IsAscii (belongs : Char → Bool) : Prop := ∀ char, belongs char → char.toNat < 128

theorem isAscii_beq {char : Char} (small : char.toNat < 128) : IsAscii (· == char) := by
  intro other same
  rw [eq_of_beq same]
  exact small

theorem isAscii_contains {members : List Char} (small : members.all (·.toNat < 128)) :
    IsAscii members.contains := by
  intro char found
  exact of_decide_eq_true
    (List.all_eq_true.1 small char (List.contains_iff_mem.1 found))

theorem toNat_lt_of_val_le {char last : Char} (upTo : char.val ≤ last.val)
    (small : last.toNat < 128) : char.toNat < 128 :=
  Nat.lt_of_le_of_lt (UInt32.le_iff_toNat_le.1 upTo) small

theorem isAscii_isDigit : IsAscii Char.isDigit := by
  intro char isDigit
  have upToNine : char.val ≤ '9'.val :=
    of_decide_eq_true (Bool.and_eq_true_iff.1 isDigit).2
  exact toNat_lt_of_val_le upToNine (by decide)

theorem isAscii_isAlpha : IsAscii Char.isAlpha := by
  intro char isAlpha
  rcases Bool.or_eq_true_iff.1 isAlpha with upper | lower
  · exact toNat_lt_of_val_le (of_decide_eq_true upper).2 (by decide)
  · exact toNat_lt_of_val_le
      (of_decide_eq_true (Bool.and_eq_true_iff.1 lower).2) (by decide)

theorem isAscii_isAlphanum : IsAscii Char.isAlphanum := by
  intro char isAlphanum
  rcases Bool.or_eq_true_iff.1 isAlphanum with isAlpha | isDigit
  · exact isAscii_isAlpha char isAlpha
  · exact isAscii_isDigit char isDigit

/-- A character of an ASCII class has one byte. -/
theorem IsAscii.utf8Size {belongs : Char → Bool} (isAscii : IsAscii belongs)
    {char : Char} (member : belongs char) : char.utf8Size = 1 := by
  rw [Char.utf8Size_eq_one_iff, UInt32.le_iff_toNat_le]
  exact Nat.le_of_lt_succ (isAscii char member)

theorem IsAscii.byteLength_concat {belongs : Char → Bool} (isAscii : IsAscii belongs)
    (before : List Char) {char : Char} (member : belongs char) :
    byteLength (before ++ [char]) = byteLength before + 1 := by
  rw [byteLength_append, byteLength_cons, isAscii.utf8Size member]
  rfl

/-- Whether a byte stands for a character of a class. -/
def isByteOf (belongs : Char → Bool) (byte : UInt8) : Bool :=
  belongs (Char.ofUInt8 byte)

/-- Whether there is a byte at an index, and it stands for a character of a class. -/
def hasByteAt (belongs : Char → Bool) (text : List Char) (index : Nat) : Bool :=
  (byteAt? text index).any (isByteOf belongs)

/-- The first byte is the character itself, or neither of them is ASCII. -/
theorem exists_utf8EncodeChar (char : Char) :
    ∃ first later, String.utf8EncodeChar char = first :: later ∧
      (Char.ofUInt8 first = char ∨ 128 ≤ first.toNat ∧ 128 ≤ char.toNat) := by
  have code : char.val.toNat = char.toNat := rfl
  fun_cases String.utf8EncodeChar char
  next value single =>
    refine ⟨_, _, rfl, .inl ?_⟩
    apply Char.toNat_inj.1
    apply UInt8.toNat_ofNat_of_lt'
    exact Nat.lt_of_le_of_lt single (by decide)
  all_goals
    refine ⟨_, _, rfl, .inr ⟨?_, by omega⟩⟩
    rw [UInt8.toNat_ofNat']
    omega

/-- At the place before a character there is a byte, which tells the ASCII
classes that the character belongs to. -/
theorem byteAt?_append (before : List Char) (char : Char) (rest : List Char) :
    ∃ byte, byteAt? (before ++ char :: rest) (byteLength before) = some byte ∧
      ∀ belongs, IsAscii belongs → isByteOf belongs byte = belongs char := by
  rcases exists_utf8EncodeChar char with ⟨first, later, encoded, told⟩
  refine ⟨first, ?_, ?_⟩
  · rw [byteAt?, bytes, List.flatMap_append, ← bytes, ← length_bytes,
      List.getElem?_append_right (Nat.le_refl _),
      Nat.sub_self, List.flatMap_cons, encoded]
    rfl
  · intro belongs isAscii
    rcases told with same | ⟨firstBeyond, charBeyond⟩
    · rw [isByteOf, same]
    · have noByte : ¬ isByteOf belongs first :=
        fun member => Nat.not_lt.2 firstBeyond (isAscii _ member)
      have noChar : ¬ belongs char :=
        fun member => Nat.not_lt.2 charBeyond (isAscii _ member)
      rw [Bool.not_eq_true] at noByte noChar
      rw [noByte, noChar]

theorem byteAt?_byteLength (text : List Char) : byteAt? text (byteLength text) = none :=
  List.getElem?_eq_none (Nat.le_of_eq (length_bytes text))

theorem hasByteAt_append {belongs : Char → Bool} (isAscii : IsAscii belongs)
    (before after : List Char) :
    hasByteAt belongs (before ++ after) (byteLength before) =
      after.head?.any belongs := by
  cases after with
  | nil =>
      rw [List.append_nil, hasByteAt, byteAt?_byteLength]
      rfl
  | cons char rest =>
      rcases byteAt?_append before char rest with ⟨byte, found, told⟩
      rw [hasByteAt, found]
      exact told belongs isAscii

/-! ### Searching -/

/-- The offset of the first `wanted` character of a text. -/
def find? (wanted : Char) : List Char → Option Nat
  | [] => none
  | char :: rest =>
      if char = wanted then some 0 else (find? wanted rest).map (char.utf8Size + ·)

/-- The offset of the last `wanted` character of a text. -/
def findLast? (wanted : Char) : List Char → Option Nat
  | [] => none
  | char :: rest =>
    match findLast? wanted rest with
    | some loc => some (char.utf8Size + loc)
    | none => if char = wanted then some 0 else none

/-- The first `wanted` character ends what can be taken before it, and if there
is none, the end of the text does. -/
theorem find?_elim (wanted : Char) (base : Nat) (text : List Char) :
    (find? wanted text).elim (base + byteLength text) (base + ·) =
      base + byteLength (text.takeWhile (· != wanted)) := by
  induction text generalizing base with
  | nil => rfl
  | cons char rest ih =>
      rw [find?]
      split
      next same => rw [List.takeWhile_cons_of_neg (by simp [same])]; rfl
      next other =>
        rw [List.takeWhile_cons_of_pos (by simp [other]), byteLength_cons,
          byteLength_cons, ← Nat.add_assoc, ← Nat.add_assoc, ← ih]
        cases find? wanted rest with
        | none => rfl
        | some loc => exact (Nat.add_assoc _ _ _).symm

theorem findLast?_concat (wanted : Char) (text : List Char) (char : Char) :
    findLast? wanted (text ++ [char]) =
      if char = wanted then some (byteLength text) else findLast? wanted text := by
  induction text with
  | nil => rfl
  | cons first text ih =>
      rw [List.cons_append, findLast?, ih, findLast?]
      by_cases found : char = wanted
      · rw [if_pos found, if_pos found]
        rfl
      · rw [if_neg found, if_neg found]

/-- Behind the last `wanted` character stands what can be taken from the end of
the text before it. The text is given from its end. -/
theorem findLast?_elim {wanted : Char} (single : wanted.utf8Size = 1)
    (behind : List Char) :
    (findLast? wanted behind.reverse).elim 0 (· + 1) =
      byteLength (behind.dropWhile (· != wanted)) := by
  induction behind with
  | nil => rfl
  | cons char behind ih =>
      rw [List.reverse_cons, findLast?_concat]
      split
      next same =>
        rw [List.dropWhile_cons_of_neg (by simp [same]), byteLength_cons, same, single,
          Nat.add_comm]
        exact congrArg (· + 1) (byteLength_reverse behind)
      next other => rw [List.dropWhile_cons_of_pos (by simp [other]), ih]

end StackCompiler.Text
