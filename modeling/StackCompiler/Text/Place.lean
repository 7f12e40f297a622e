/-!
# Places in a text

A text is a list of characters. Offsets into it are counted in bytes of its
UTF-8 form, so not every offset falls between two characters. A `Place` does: it
splits a text into the characters behind it and the characters ahead of it.
`Place.ofOffset` goes to the last place not beyond a given offset, and `slice?`
answers only when both its ends fall between characters.
-/

namespace StackCompiler.Text

/-- The number of bytes that a text takes up in UTF-8. -/
def byteLength (text : List Char) : Nat :=
  text.foldr (fun char bytes => char.utf8Size + bytes) 0

@[simp] theorem byteLength_nil : byteLength [] = 0 := rfl

@[simp] theorem byteLength_cons (char : Char) (text : List Char) :
    byteLength (char :: text) = char.utf8Size + byteLength text := rfl

@[simp] theorem byteLength_append (first second : List Char) :
    byteLength (first ++ second) = byteLength first + byteLength second := by
  induction first with
  | nil => simp
  | cons char rest ih => simp [ih, Nat.add_assoc]

@[simp] theorem byteLength_reverse (text : List Char) :
    byteLength text.reverse = byteLength text := by
  induction text with
  | nil => rfl
  | cons char rest ih => simp [ih, Nat.add_comm]

/-- A string takes up as many bytes as its characters. -/
@[simp] theorem byteLength_toList (text : String) :
    byteLength text.toList = text.utf8ByteSize := by
  generalize chars : text.toList = list
  obtain rfl : text = String.ofList list := by rw [← chars, String.ofList_toList]
  clear chars
  induction list with
  | nil => rfl
  | cons char list ih =>
      have split : String.ofList (char :: list) =
          String.singleton char ++ String.ofList list := by
        rw [String.singleton_eq_ofList, ← String.ofList_append]
        rfl
      rw [byteLength_cons, split, String.utf8ByteSize_append,
        String.utf8ByteSize_singleton, ih]

/-- A gap between two characters of a text. -/
structure Place where
  /-- The characters before the place, the nearest one first. -/
  behind : List Char
  /-- The characters after the place, the nearest one first. -/
  ahead : List Char
  deriving DecidableEq, Repr

namespace Place

/-- The text that a place lies in. -/
def text (place : Place) : List Char := place.behind.reverse ++ place.ahead

/-- The byte offset of a place. -/
def offset (place : Place) : Nat := byteLength place.behind

/-- Passes the characters of `ahead` that end within the next `bytes` bytes. -/
def advance (behind : List Char) (bytes : Nat) : List Char → Place
  | [] => ⟨behind, []⟩
  | char :: ahead =>
    if char.utf8Size ≤ bytes then advance (char :: behind) (bytes - char.utf8Size) ahead
    else ⟨behind, char :: ahead⟩

/-- The last place of a text that is not beyond `offset`. -/
def ofOffset (text : List Char) (offset : Nat) : Place := advance [] offset text

@[simp] theorem text_advance (behind : List Char) (bytes : Nat) (ahead : List Char) :
    (advance behind bytes ahead).text = behind.reverse ++ ahead := by
  induction ahead generalizing behind bytes with
  | nil => rfl
  | cons char ahead ih =>
    rw [advance]
    split
    · simp [ih]
    · rfl

@[simp] theorem text_ofOffset (source : List Char) (offset : Nat) :
    (ofOffset source offset).text = source := by
  simp [ofOffset]

end Place

/-- The part of a text that begins at the byte offset `loc` and takes up `len`
bytes, if both of its ends fall between characters of the text. -/
def slice? (text : List Char) (loc len : Nat) : Option (List Char) :=
  let first := Place.ofOffset text loc
  let last := Place.ofOffset first.ahead len
  if first.offset = loc ∧ last.offset = len then some last.behind.reverse else none

end StackCompiler.Text
