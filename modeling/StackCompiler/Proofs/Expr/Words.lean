import Mathlib.Tactic.ByContra
import StackCompiler.Proofs.Expr.Forms
import StackCompiler.Proofs.Grammar.Phrase
import StackCompiler.Proofs.Expr.Items

/-!
# The words of a fragment

Where the texts in an expression are formed as those of lexemes, no word of its
fragment holds a space, so the fragment can be split into its words again. Each
word shows by its first characters whether it is a number, a designator or an
operator, and only the minus sign stands for two operators.
-/

namespace StackCompiler

/-! ### Characters -/

/-- Whether a text begins as a number does: with a digit, or with a minus
sign and a digit. -/
def beginsNumber : List Char → Bool
  | [] => false
  | char :: rest => char.isDigit || (char == '-' && rest.head?.any Char.isDigit)

/-- Whether a text begins as a name does. -/
def beginsName (text : List Char) : Bool := text.head?.any Char.isAlpha

/-- The characters of numbers and names. -/
def isPlain (char : Char) : Bool := char.isAlphanum || ['.', '+', '-'].contains char

/-- The characters of words. -/
def isSolid (char : Char) : Bool :=
  isPlain char || ['[', ']', '!', '|', '&', '=', '<', '>', '*', '/'].contains char

theorem isSolid_of_isPlain {char : Char} (plain : isPlain char) : isSolid char := by
  simp [isSolid, plain]

theorem isPlain_of_isDigit {char : Char} (isDigit : char.isDigit) : isPlain char := by
  simp [isPlain, Char.isAlphanum, isDigit]

theorem isPlain_of_isAlphanum {char : Char} (isAlphanum : char.isAlphanum) :
    isPlain char := by
  simp [isPlain, isAlphanum]

namespace Piece.Formed

variable {kind : Token.Kind} {text : List Char}

theorem exists_digit (formed : Formed .integer text ∨ Formed .double text) :
    ∃ char rest, text = char :: rest ∧ char.isDigit := by
  rcases formed with formed | formed
  · cases formed with
    | integer notNil digits =>
        obtain ⟨char, rest, rfl⟩ := List.exists_cons_of_ne_nil notNil
        exact ⟨char, rest, rfl, digits char List.mem_cons_self⟩
  · cases formed with
    | double notNil digits _ _ _ =>
        obtain ⟨char, rest, rfl⟩ := List.exists_cons_of_ne_nil notNil
        exact ⟨char, _, rfl, digits char List.mem_cons_self⟩

theorem exists_alpha (formed : Formed .identifier text) :
    ∃ char rest, text = char :: rest ∧ char.isAlpha ∧
      ∀ other ∈ rest, other.isAlphanum := by
  cases formed with
  | identifier isAlpha alphanum _ => exact ⟨_, _, rfl, isAlpha, alphanum⟩

theorem isPlain_of_numeral (formed : Formed .integer text ∨ Formed .double text) :
    ∀ char ∈ text, isPlain char := by
  rcases formed with formed | formed
  · cases formed with
    | integer _ digits => exact fun char found => isPlain_of_isDigit (digits char found)
  · cases formed with
    | double _ digits _ fractionDigits powerChars =>
        simp only [List.forall_mem_append, List.forall_mem_cons]
        refine ⟨fun char found => isPlain_of_isDigit (digits char found), by decide,
          fun char found => isPlain_of_isDigit (fractionDigits char found),
          fun char found => ?_⟩
        rcases powerChars char found with isDigit | isSign
        · exact isPlain_of_isDigit isDigit
        · simp only [List.mem_cons, List.not_mem_nil, or_false] at isSign
          rcases isSign with rfl | rfl | rfl | rfl <;> decide

theorem isPlain_of_name (formed : Formed .identifier text) :
    ∀ char ∈ text, isPlain char := by
  cases formed with
  | identifier isAlpha alphanum _ =>
      refine List.forall_mem_cons.2
        ⟨?_, fun char found => isPlain_of_isAlphanum (alphanum char found)⟩
      simp [isPlain, Char.isAlphanum, isAlpha]

end Piece.Formed

namespace SignedNumeral

variable {IsNumeral : List Char → Prop} {text : String}

theorem beginsNumber (signed : SignedNumeral IsNumeral text)
    (numeral : ∀ {text}, IsNumeral text →
      Piece.Formed .integer text ∨ Piece.Formed .double text) :
    beginsNumber text.toList := by
  obtain ⟨digits, isNumeral, written | written⟩ := signed
  · obtain ⟨char, rest, rfl, isDigit⟩ := Piece.Formed.exists_digit (numeral isNumeral)
    simp [StackCompiler.beginsNumber, written, isDigit]
  · obtain ⟨char, rest, rfl, isDigit⟩ := Piece.Formed.exists_digit (numeral isNumeral)
    simp [StackCompiler.beginsNumber, written, isDigit]

theorem isPlain (signed : SignedNumeral IsNumeral text)
    (numeral : ∀ {text}, IsNumeral text →
      Piece.Formed .integer text ∨ Piece.Formed .double text) :
    ∀ char ∈ text.toList, isPlain char := by
  obtain ⟨digits, isNumeral, written | written⟩ := signed
  · rw [written]
    exact Piece.Formed.isPlain_of_numeral (numeral isNumeral)
  · rw [written]
    exact List.forall_mem_cons.2
      ⟨by decide, Piece.Formed.isPlain_of_numeral (numeral isNumeral)⟩

end SignedNumeral

/-- What begins as a name does not begin as a number. -/
theorem not_beginsNumber_of_beginsName {text : List Char} (isName : beginsName text) :
    beginsNumber text = false := by
  cases text with
  | nil => contradiction
  | cons char rest =>
      have isAlpha : char.isAlpha := by simpa [beginsName] using isName
      have noSign : char ≠ '-' := by
        intro equal
        subst equal
        contradiction
      simp [beginsNumber, not_isDigit_of_isAlpha isAlpha, noSign]

theorem Piece.Formed.beginsName {text : List Char} (formed : Formed .identifier text) :
    beginsName text := by
  obtain ⟨char, rest, rfl, isAlpha, _⟩ := formed.exists_alpha
  simpa [StackCompiler.beginsName] using isAlpha

/-! ### Designators -/

namespace Subscript

variable {subscript other : Subscript}

theorem Formed.isPlain (formed : subscript.Formed) :
    ∀ char ∈ subscript.text.toList, isPlain char := by
  cases subscript with
  | literal text => exact SignedNumeral.isPlain formed .inl
  | identifier name => exact Piece.Formed.isPlain_of_name formed

theorem eq_of_text (formed : subscript.Formed) (formedOther : other.Formed)
    (same : subscript.text = other.text) : subscript = other := by
  cases subscript with
  | literal text =>
      cases other with
      | literal other => exact congrArg literal same
      | identifier name =>
          obtain rfl : text = name := same
          have isNumber := SignedNumeral.beginsNumber formed .inl
          rw [not_beginsNumber_of_beginsName (Piece.Formed.beginsName formedOther)]
            at isNumber
          contradiction
  | identifier name =>
      cases other with
      | literal text =>
          obtain rfl : name = text := same
          have isNumber := SignedNumeral.beginsNumber formedOther .inl
          rw [not_beginsNumber_of_beginsName (Piece.Formed.beginsName formed)]
            at isNumber
          contradiction
      | identifier other => exact congrArg identifier same

end Subscript

/-- Where two lists are followed by an entry that is in neither of them, they
are the same if the whole is. -/
theorem eq_of_append_cons {α : Type} {stop : α}
    {first second firstRest secondRest : List α} (notFirst : stop ∉ first)
    (notSecond : stop ∉ second)
    (same : first ++ stop :: firstRest = second ++ stop :: secondRest) :
    first = second ∧ firstRest = secondRest := by
  induction first generalizing second with
  | nil =>
      cases second with
      | nil => exact ⟨rfl, (List.cons.inj same).2⟩
      | cons head second => exact absurd (List.cons.inj same).1 (by simp_all)
  | cons head first ih =>
      cases second with
      | nil => exact absurd (List.cons.inj same).1 (by simp_all [eq_comm])
      | cons other second =>
          obtain ⟨rfl, rest⟩ := List.cons.inj same
          obtain ⟨rfl, restEq⟩ := ih (by simp_all) (by simp_all) rest
          exact ⟨rfl, restEq⟩

namespace Designator

/-- How subscripts are written, one after the other. -/
def brackets (subscripts : List Subscript) : List Char :=
  subscripts.flatMap fun subscript => '[' :: (subscript.text.toList ++ [']'])

theorem toList_render (designator : Designator) :
    designator.render.toList =
      designator.name.toList ++ brackets designator.subscripts := by
  rw [render, String.toList_append, String.toList_join, List.flatMap_map]
  simp only [toString, String.toList_append, List.append_assoc]
  rfl

theorem brackets_inj {subscripts others : List Subscript}
    (formed : ∀ subscript ∈ subscripts, subscript.Formed)
    (formedOthers : ∀ other ∈ others, other.Formed)
    (same : brackets subscripts = brackets others) : subscripts = others := by
  induction subscripts generalizing others with
  | nil =>
      cases others with
      | nil => rfl
      | cons other others => contradiction
  | cons subscript subscripts ih =>
      cases others with
      | nil => contradiction
      | cons other others =>
          rw [List.forall_mem_cons] at formed formedOthers
          simp only [brackets, List.flatMap_cons, List.cons_append, List.cons.injEq,
            true_and, List.append_assoc, List.nil_append] at same
          have noBracket (text : List Char) (plain : ∀ char ∈ text, isPlain char) :
              ']' ∉ text :=
            fun found => absurd (plain _ found) (by decide)
          obtain ⟨sameText, sameRest⟩ :=
            eq_of_append_cons (noBracket _ formed.1.isPlain)
            (noBracket _ formedOthers.1.isPlain) same
          rw [Subscript.eq_of_text formed.1 formedOthers.1
              (String.toList_inj.1 sameText), ih formed.2 formedOthers.2 sameRest]

/-- The name of a designator ends before the first bracket. -/
theorem takeWhile_render {designator : Designator} (formed : designator.Formed) :
    designator.render.toList.takeWhile (· != '[') = designator.name.toList := by
  rw [toList_render, List.takeWhile_append_of_pos]
  · cases designator.subscripts <;> simp [brackets]
  · intro char found
    have plain := Piece.Formed.isPlain_of_name formed.1 char found
    rw [bne_iff_ne]
    intro equal
    subst equal
    contradiction

theorem render_inj {designator other : Designator} (formed : designator.Formed)
    (formedOther : other.Formed) (same : designator.render = other.render) :
    designator = other := by
  have sameName : designator.name.toList = other.name.toList := by
    rw [← takeWhile_render formed, ← takeWhile_render formedOther, same]
  have written := congrArg String.toList same
  rw [toList_render, toList_render, sameName] at written
  have sameSubscripts :=
    brackets_inj formed.2 formedOther.2 (List.append_cancel_left written)
  cases designator
  cases other
  simp_all [String.toList_inj]

theorem beginsName_render {designator : Designator} (formed : designator.Formed) :
    beginsName designator.render.toList := by
  obtain ⟨char, rest, name, isAlpha, _⟩ := formed.1.exists_alpha
  simpa [beginsName, toList_render, name] using isAlpha

theorem isSolid_render {designator : Designator} (formed : designator.Formed) :
    ∀ char ∈ designator.render.toList, isSolid char := by
  simp only [toList_render, brackets, List.forall_mem_append, List.forall_mem_flatMap,
    List.forall_mem_cons]
  refine ⟨fun char found =>
    isSolid_of_isPlain (Piece.Formed.isPlain_of_name formed.1 char found), ?_⟩
  intro subscript isSubscript
  exact ⟨rfl, fun char found =>
      isSolid_of_isPlain ((formed.2 subscript isSubscript).isPlain char found),
    rfl, List.forall_mem_nil _⟩

end Designator

/-! ### Items -/

namespace Item

/-- Whether the texts in an item are formed as those of lexemes. -/
def Formed : Item → Prop
  | number text => (Expr.number text).Formed
  | designator target => target.Formed
  | unary _ => True
  | binary _ => True

/-- Whether two items are the same, but that a minus sign may take one
operand or two. -/
def Alike (item other : Item) : Prop :=
  item = other ∨ item = .unary .negate ∧ other = .binary .subtract ∨
    item = .binary .subtract ∧ other = .unary .negate

/-- Whether the word of an item begins as a number does, and whether it begins
as a name does. -/
def shape : Item → Bool × Bool
  | number _ => (true, false)
  | designator _ => (false, true)
  | unary _ => (false, false)
  | binary _ => (false, false)

theorem shape_word {item : Item} (formed : item.Formed) :
    (beginsNumber item.word.toList, beginsName item.word.toList) = item.shape := by
  cases item with
  | number text =>
      have isNumber : beginsNumber text.toList := SignedNumeral.beginsNumber formed id
      have noName : beginsName text.toList = false := by
        by_contra isName
        rw [Bool.not_eq_false] at isName
        rw [not_beginsNumber_of_beginsName isName] at isNumber
        contradiction
      rw [word, shape, isNumber, noName]
  | designator target =>
      have isName := Designator.beginsName_render formed
      rw [word, shape, isName, not_beginsNumber_of_beginsName isName]
  | unary operator => cases operator <;> decide
  | binary operator => cases operator <;> decide

theorem isSolid_word {item : Item} (formed : item.Formed) :
    ∀ char ∈ item.word.toList, isSolid char := by
  cases item with
  | number text =>
      exact fun char found => isSolid_of_isPlain
        (SignedNumeral.isPlain formed id char found)
  | designator target => exact Designator.isSolid_render formed
  | unary operator => cases operator <;> simp [word, UnaryOp.symbol, isSolid, isPlain]
  | binary operator => cases operator <;> simp [word, BinaryOp.symbol, isSolid, isPlain]

theorem word_ne_of_shape {item other : Item} (formed : item.Formed)
    (formedOther : other.Formed) (different : item.shape ≠ other.shape) :
    item.word ≠ other.word := by
  intro same
  rw [← shape_word formed, ← shape_word formedOther, same] at different
  contradiction

/-- Only a minus sign leaves open what a word asks for. -/
theorem alike_of_word {item other : Item} (formed : item.Formed)
    (formedOther : other.Formed) (same : item.word = other.word) :
    item.Alike other := by
  have sameShape : item.shape = other.shape := by
    rw [← shape_word formed, ← shape_word formedOther, same]
  cases item with
  | number text =>
      cases other with
      | number other => exact .inl (congrArg number same)
      | _ => simp [shape] at sameShape
  | designator target =>
      cases other with
      | designator other =>
          exact .inl (congrArg designator
            (Designator.render_inj formed formedOther same))
      | _ => simp [shape] at sameShape
  | unary operator =>
      cases other with
      | unary other =>
          cases operator <;> cases other <;> simp_all [word, UnaryOp.symbol, Alike]
      | binary other =>
          cases operator <;> cases other <;>
            simp_all [word, UnaryOp.symbol, BinaryOp.symbol, Alike]
      | _ => simp [shape] at sameShape
  | binary operator =>
      cases other with
      | unary other =>
          cases operator <;> cases other <;>
            simp_all [word, UnaryOp.symbol, BinaryOp.symbol, Alike]
      | binary other => exact .inl (congrArg binary (BinaryOp.symbol_injective same))
      | _ => simp [shape] at sameShape

end Item

namespace Expr

theorem formed_of_mem_items {expr : Expr} (formed : expr.Formed) :
    ∀ item ∈ expr.items, item.Formed := by
  induction expr with
  | number text => exact List.forall_mem_singleton.2 formed
  | designator target => exact List.forall_mem_singleton.2 formed
  | unary operator operand ih =>
      intro item found
      rcases List.mem_append.1 found with inside | last
      · exact ih formed item inside
      · rw [List.mem_singleton.1 last]
        trivial
  | binary operator left right ihLeft ihRight =>
      intro item found
      rw [items, List.append_assoc, List.mem_append, List.mem_append,
        List.mem_singleton] at found
      rcases found with inLeft | inRight | rfl
      · exact ihLeft formed.1 item inLeft
      · exact ihRight formed.2 item inRight
      · trivial

theorem words_ne_nil (expr : Expr) : expr.words ≠ [] := by
  cases expr <;> simp [words]

theorem isSolid_of_mem_words {expr : Expr} (formed : expr.Formed) :
    ∀ word ∈ expr.words, ∀ char ∈ word.toList, isSolid char := by
  rw [words_eq_map_items, List.forall_mem_map]
  exact fun item found => Item.isSolid_word (formed_of_mem_items formed item found)

/-- The words of a fragment, which spaces separate. -/
def wordsOf (fragment : String) : List String :=
  (fragment.toList.splitOn ' ').map String.ofList

/-- A fragment can be split into its words again. -/
theorem wordsOf_fragment {expr : Expr} (formed : expr.Formed) :
    wordsOf expr.fragment = expr.words := by
  have split : expr.fragment.toList.splitOn ' ' = expr.words.map String.toList := by
    rw [fragment, String.toList_intercalate]
    apply List.splitOn_intercalate
    · rw [List.forall_mem_map]
      exact fun word isWord found => absurd
        (isSolid_of_mem_words formed word isWord ' ' found) (by decide)
    · simpa using expr.words_ne_nil
  rw [wordsOf, split, List.map_map]
  simp

end Expr

end StackCompiler
