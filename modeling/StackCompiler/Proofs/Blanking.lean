import StackCompiler.Proofs.Strictness
import StackCompiler.Proofs.Token.Spaced

/-!
# Comments and stray characters act as blanks

If each character of a comment and each stray character of a source is replaced
by as many spaces as it has bytes, the tokens of the source stay what they are
and where they are, and nothing is left to be skipped
(`Lexed.ofSource_blanked`). So the program of the source is the program of the
blanked text, in strict mode too (`compile_blankOut`).

What a piece is depends on what stands behind it. But no lexeme holds a space,
and a comment begins with two slashes, neither of which has become a space if a
comment begins there. So nothing that fits into the blanked text is longer than
what fitted into the source.
-/

namespace StackCompiler

/-- As many spaces as a text has bytes, those of each character in its place. -/
def Text.spaces (text : List Char) : List Char :=
  text.flatMap fun char => List.replicate char.utf8Size ' '

theorem Text.spaces_eq_replicate (text : List Char) :
    spaces text = List.replicate (byteLength text) ' ' := by
  induction text with
  | nil => rfl
  | cons char rest ih =>
      rw [byteLength_cons, List.replicate_add, ← ih]
      rfl

namespace Piece

/-- Whether a piece is neither a blank nor a lexeme. -/
def isLeftOut : Piece → Bool
  | blank _ => false
  | comment _ => true
  | lexeme _ _ => false
  | stray _ => true

/-- The characters of a piece, or spaces if it is left out. -/
def blanked (piece : Piece) : List Char :=
  if piece.isLeftOut then Text.spaces piece.chars else piece.chars

/-- A piece, or the spaces that take its place if it is left out. -/
def blanks (piece : Piece) : List Piece :=
  if piece.isLeftOut then List.replicate (Text.byteLength piece.chars) (blank ' ')
  else [piece]

theorem blanked_of_isLeftOut {piece : Piece} (left : piece.isLeftOut) :
    piece.blanked = List.replicate (Text.byteLength piece.chars) ' ' := by
  rw [blanked, if_pos left, Text.spaces_eq_replicate]

theorem blanked_of_not_isLeftOut {piece : Piece} (kept : ¬ piece.isLeftOut) :
    piece.blanked = piece.chars :=
  if_neg kept

/-- What stands at the beginning of a blanked text without holding a space,
stands at the beginning of the text. -/
theorem isPrefix_of_isPrefix_blanked {front : List Char} {found : List Piece}
    (noSpace : ' ' ∉ front) (isInitial : front <+: found.flatMap blanked) :
    front <+: found.flatMap chars := by
  induction found generalizing front with
  | nil => exact isInitial
  | cons piece rest ih =>
      rw [List.flatMap_cons] at isInitial ⊢
      by_cases left : piece.isLeftOut
      · rw [blanked_of_isLeftOut left] at isInitial
        cases written : piece.chars with
        | nil =>
            rw [written] at isInitial
            exact ih noSpace isInitial
        | cons char more =>
            cases front with
            | nil => exact List.nil_prefix
            | cons head front =>
                have positive : 0 < Text.byteLength piece.chars := by
                  rw [written]
                  exact Nat.add_pos_left char.utf8Size_pos _
                rw [← Nat.succ_pred_eq_of_pos positive, List.replicate_succ,
                  List.cons_append, List.cons_prefix_cons] at isInitial
                rw [isInitial.1] at noSpace
                exact absurd List.mem_cons_self noSpace
      · rw [blanked_of_not_isLeftOut left] at isInitial
        rcases List.prefix_or_prefix_of_prefix isInitial (List.prefix_append _ _)
          with inside | ⟨more, rfl⟩
        · exact inside.trans (List.prefix_append _ _)
        · rw [List.prefix_append_right_inj] at isInitial ⊢
          exact ih (fun isPart => noSpace (List.mem_append_right _ isPart)) isInitial

/-- Two slashes in a row begin a comment. -/
theorem Leads.isLeftOut_of_slashes {text : List Char} {piece : Piece}
    (leads : Leads text piece) (slashes : ['/', '/'] <+: text) : piece.isLeftOut := by
  rcases slashes with ⟨after, rfl⟩
  rw [leads_iff.1 leads]
  rfl

/-- A piece that is not left out still comes first when the text is blanked. -/
theorem Leads.blanked {piece : Piece} {rest : List Piece} (kept : ¬ piece.isLeftOut)
    (leads : Leads ((piece :: rest).flatMap chars) piece) :
    Leads ((piece :: rest).flatMap Piece.blanked) piece := by
  have noComment := leads.isLeftOut_of_slashes
  have isInitial : piece.chars <+: (piece :: rest).flatMap Piece.blanked := by
    rw [List.flatMap_cons, blanked_of_not_isLeftOut kept]
    exact List.prefix_append _ _
  cases leads with
  | stray _ _ => exact absurd rfl kept
  | longest fits _ isLongest =>
      apply Leads.longest fits isInitial
      intro other otherFits otherInitial
      cases other with
      | blank char =>
          rcases fits.exists_head with ⟨head, more, written, _⟩
          rw [written]
          exact Nat.succ_le_succ (Nat.zero_le _)
      | comment text =>
          cases otherFits with
          | @comment line _ =>
              have slashes : ['/', '/'] <+: (piece :: rest).flatMap Piece.blanked :=
                (List.prefix_append ['/', '/'] line).trans otherInitial
              exact absurd
                (noComment (isPrefix_of_isPrefix_blanked (by decide) slashes)) kept
      | lexeme kind text =>
          have noSpace : ' ' ∉ text := by
            intro found
            have notBlank := otherFits.formed.not_isBlank ' ' found
            contradiction
          exact isLongest _ otherFits
            (isPrefix_of_isPrefix_blanked noSpace otherInitial)
      | stray char => contradiction

end Piece

/-- Spaces are pieces of their own. -/
theorem Scans.spaces {after : List Char} {found : List Piece}
    (scans : Scans after found) (count : Nat) :
    Scans (List.replicate count ' ' ++ after)
      (List.replicate count (.blank ' ') ++ found) := by
  induction count with
  | zero => exact scans
  | succ count ih =>
      have leads : (Piece.blank ' ').Leads
          ((Piece.blank ' ').chars ++ (List.replicate count ' ' ++ after)) :=
        Piece.leads_space _
      exact Scans.cons leads ih

/-- When a text is blanked, its pieces are, too. -/
theorem Scans.blanked {text : List Char} {found : List Piece}
    (scans : Scans text found) :
    Scans (found.flatMap Piece.blanked) (found.flatMap Piece.blanks) := by
  induction scans with
  | nil => exact .nil
  | @cons piece after found leads scans ih =>
      rw [← scans.flatMap_chars, ← List.flatMap_cons] at leads
      by_cases left : piece.isLeftOut
      · rw [List.flatMap_cons, List.flatMap_cons, Piece.blanked_of_isLeftOut left,
          Piece.blanks, if_pos left]
        exact ih.spaces _
      · have leadsBlanked := leads.blanked left
        rw [List.flatMap_cons, Piece.blanked_of_not_isLeftOut left] at leadsBlanked ⊢
        rw [List.flatMap_cons, Piece.blanks, if_neg left]
        exact Scans.cons leadsBlanked ih

namespace Lexed

namespace Progress

/-- Progress without what was skipped. -/
def unskipped (progress : Progress) : Progress := { progress with skipped := [] }

theorem foldl_spaces (progress : Progress) (count : Nat) :
    (List.replicate count (.blank ' ')).foldl step progress =
        { progress with loc := progress.loc + count } := by
  induction count generalizing progress with
  | zero => rfl
  | succ count ih =>
      rw [List.replicate_succ, List.foldl_cons, ih, Nat.add_comm count, ← Nat.add_assoc]
      rfl

/-- Spaces lead as far as the piece whose place they take. -/
theorem foldl_blanks (progress : Progress) (piece : Piece) :
    piece.blanks.foldl step progress.unskipped = (progress.step piece).unskipped := by
  cases piece with
  | comment text => exact foldl_spaces _ _
  | stray char => exact foldl_spaces _ _
  | _ => rfl

theorem foldl_flatMap_blanks (progress : Progress) (found : List Piece) :
    (found.flatMap Piece.blanks).foldl step progress.unskipped =
      (found.foldl step progress).unskipped := by
  induction found generalizing progress with
  | nil => rfl
  | cons piece rest ih =>
      rw [List.flatMap_cons, List.foldl_append, foldl_blanks, ih, List.foldl_cons]

end Progress

/-- The tokens of a blanked source are those of the source, and nothing is skipped. -/
theorem ofSource_blanked {source : List Char} {found : List Piece}
    (scans : Scans source found) :
    ofSource (found.flatMap Piece.blanked) = ⟨(ofSource source).tokens, []⟩ := by
  have same : survey (found.flatMap Piece.blanked) = (survey source).unskipped := by
    rw [survey, survey, ← scans_iff.1 scans.blanked, ← scans_iff.1 scans]
    exact Progress.foldl_flatMap_blanks Progress.start found
  rw [ofSource, same]
  rfl

end Lexed

/-- The program of a source, if there is one, is that of its tokens. -/
theorem toOption_program_compile {source : String} {strict : Bool} {lexed : Lexed}
    (reads : (Lexed.read source.toList strict).outcome = .ok lexed) :
    (compile source strict).outcome.toOption.map Compiled.program =
      (CompilationUnit.ofTokens? lexed.tokens).toOption.map fun unit =>
          ⟨unit.code⟩ := by
  rw [outcome_compile_of_read reads]
  cases CompilationUnit.ofTokens? lexed.tokens <;> rfl

/-- A source with spaces in place of its comments and stray characters. -/
def blankOut (source : String) : String :=
  String.ofList ((pieces source.toList).flatMap Piece.blanked)

theorem toList_blankOut (source : String) :
    (blankOut source).toList = (pieces source.toList).flatMap Piece.blanked :=
  String.toList_ofList

/-- Comments and stray characters act as blanks: with spaces in their place, a
source has the same tokens at the same places, and so the same program, and
nothing is skipped. -/
theorem compile_blankOut (source : String) :
    (∃ found, (∀ other, Scans source.toList other ↔ other = found) ∧
      (blankOut source).toList = found.flatMap Piece.blanked) ∧
    ∃ tokens skipped, (Lexed.read source.toList false).outcome = .ok ⟨tokens, skipped⟩ ∧
      (∀ strict, (Lexed.read (blankOut source).toList strict).outcome =
        .ok ⟨tokens, []⟩) ∧
      (∀ token ∈ tokens, Text.slice? source.toList token.loc token.len =
          some token.text.toList ∧
        Text.slice? (blankOut source).toList token.loc token.len =
          some token.text.toList) ∧
      (compile (blankOut source) true).outcome.toOption.map Compiled.program =
        (compile source false).outcome.toOption.map Compiled.program := by
  have blanked := Lexed.ofSource_blanked (scans_pieces source.toList)
  rw [← toList_blankOut] at blanked
  have reads (strict : Bool) : (Lexed.read (blankOut source).toList strict).outcome =
      .ok ⟨(Lexed.ofSource source.toList).tokens, []⟩ := by
    rw [← blanked]
    cases strict with
    | false => rfl
    | true =>
        rw [Lexed.read_strict_of_skipped_eq_nil (congrArg Lexed.skipped blanked)]
        rfl
  refine ⟨⟨pieces source.toList, fun _ => scans_iff, toList_blankOut source⟩,
    (Lexed.ofSource source.toList).tokens, (Lexed.ofSource source.toList).skipped, rfl,
    reads, ?_, ?_⟩
  · intro token found
    constructor
    · exact Lexed.slice?_of_mem_tokens found
    · apply Lexed.slice?_of_mem_tokens
      rw [blanked]
      exact found
  · rw [toOption_program_compile (reads true),
      @toOption_program_compile source false _ rfl]
    rfl

end StackCompiler
