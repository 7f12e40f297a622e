import StackCompiler.Text.Place

/-!
# Slices of a text

The bytes that a part of a text takes up, counted from where the part begins,
are the slice that holds it.
-/

namespace StackCompiler.Text

namespace Place

/-- Going on by as many bytes as a part of the text takes up leads behind it. -/
theorem advance_byteLength (behind text after : List Char) :
    advance behind (byteLength text) (text ++ after) =
      ⟨text.reverse ++ behind, after⟩ := by
  induction text generalizing behind with
  | nil =>
      cases after with
      | nil => rfl
      | cons char after =>
          rw [List.nil_append, advance, byteLength_nil,
            if_neg (Nat.not_le.2 char.utf8Size_pos)]
          rfl
  | cons char text ih =>
      rw [List.cons_append, advance, byteLength_cons, if_pos (Nat.le_add_right _ _),
        Nat.add_sub_cancel_left, ih, List.reverse_cons, List.append_assoc]
      rfl

theorem ofOffset_byteLength (before after : List Char) :
    ofOffset (before ++ after) (byteLength before) = ⟨before.reverse, after⟩ := by
  rw [ofOffset, advance_byteLength, List.append_nil]

end Place

theorem slice?_append (before text after : List Char) :
    slice? (before ++ (text ++ after)) (byteLength before) (byteLength text) =
      some text := by
  simp only [slice?, Place.ofOffset_byteLength, Place.offset, byteLength_reverse,
    and_self, if_true, List.reverse_reverse]

end StackCompiler.Text
