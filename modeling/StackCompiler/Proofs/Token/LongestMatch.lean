import StackCompiler.Proofs.Token.Places

/-!
# Longest match

How a source is split is a matter of its lexical grammar alone: at each place
the longest piece is taken that fits there, and a character is left out only
where nothing fits. A text can be split in this way, and in no other
(`scans_iff`). The tokens of a source are its lexemes, and what is skipped are
its stray characters, each with the place where it stands
(`Lexed.read_longest_match`).
-/

namespace StackCompiler

namespace Piece

/-- Whether a piece comes first where a text is split by longest matches. -/
inductive Leads (text : List Char) : Piece → Prop where
  /-- The piece fits, and nothing longer does. -/
  | longest {piece : Piece} : piece.Fits → piece.chars <+: text →
      (∀ other : Piece, other.Fits → other.chars <+: text →
        other.chars.length ≤ piece.chars.length) →
      Leads text piece
  /-- Nothing fits, so a character is left out. -/
  | stray {char : Char} : [char] <+: text →
      (∀ other : Piece, other.Fits → ¬ other.chars <+: text) →
      Leads text (.stray char)

theorem leads_first (char : Char) (rest : List Char) :
    Leads (char :: rest) (first char rest) := by
  rcases fits_first_or_stray char rest with fits | ⟨isStray, beginsNothing⟩
  · apply Leads.longest fits (isPrefix_first char rest)
    intro other otherFits isInitial
    exact (otherFits.isPrefix_first isInitial).length_le
  · have atFront : [char] <+: char :: rest := List.prefix_append [char] rest
    rw [isStray]
    apply Leads.stray atFront
    intro other otherFits isInitial
    rcases otherFits.exists_head with ⟨head, more, written, beginsOther⟩
    rw [written, List.cons_prefix_cons] at isInitial
    rw [isInitial.1, beginsNothing] at beginsOther
    contradiction

theorem Fits.eq_of_chars {piece other : Piece} (fits : piece.Fits)
    (otherFits : other.Fits) (same : piece.chars = other.chars) : piece = other := by
  rcases fits.exists_head with ⟨head, more, written, _⟩
  rw [fits.eq_first written, otherFits.eq_first (same.symm.trans written)]

namespace Leads

variable {text : List Char} {piece other : Piece}

theorem exists_head (leads : Leads text piece) :
    ∃ char rest, piece.chars = char :: rest := by
  cases leads with
  | longest fits _ _ =>
      rcases fits.exists_head with ⟨head, more, written, _⟩
      exact ⟨head, more, written⟩
  | stray _ _ => exact ⟨_, [], rfl⟩

/-- No text leaves a choice of what comes first. -/
theorem unique (leads : Leads text piece) (otherLeads : Leads text other) :
    piece = other := by
  cases leads with
  | longest fits isInitial isLongest =>
      cases otherLeads with
      | longest otherFits otherInitial otherLongest =>
          apply fits.eq_of_chars otherFits
          have shorter := otherLongest piece fits isInitial
          have longer := isLongest other otherFits otherInitial
          exact (List.prefix_of_prefix_length_le isInitial otherInitial
              shorter).eq_of_length_le longer
      | stray _ nothingFits => exact absurd isInitial (nothingFits piece fits)
  | stray isInitial nothingFits =>
      cases otherLeads with
      | longest otherFits otherInitial _ =>
          exact absurd otherInitial (nothingFits other otherFits)
      | stray otherInitial _ =>
          have same := (List.prefix_of_prefix_length_le isInitial otherInitial
            (Nat.le_refl 1)).eq_of_length
            rfl
          rw [List.singleton_inj.1 same]

end Leads

theorem leads_iff {char : Char} {rest : List Char} {piece : Piece} :
    Leads (char :: rest) piece ↔ piece = first char rest := by
  constructor
  · intro leads
    exact leads.unique (leads_first char rest)
  · rintro rfl
    exact leads_first char rest

end Piece

/-- How a text is split by longest matches. -/
inductive Scans : List Char → List Piece → Prop where
  | nil : Scans [] []
  | cons {piece : Piece} {after : List Char} {found : List Piece} :
      piece.Leads (piece.chars ++ after) → Scans after found →
        Scans (piece.chars ++ after) (piece :: found)

theorem scans_pieces (text : List Char) : Scans text (pieces text) := by
  induction text using Piece.inductionOn with
  | nil =>
      rw [pieces_nil]
      exact .nil
  | cons char rest ih =>
      have split := List.prefix_iff_eq_append.1 (Piece.isPrefix_first char rest)
      have leads := Piece.leads_first char rest
      rw [pieces_cons]
      rw [← split] at leads
      have scans := Scans.cons leads ih
      rwa [split] at scans

/-- There is one way to split a text by longest matches. -/
theorem scans_iff {text : List Char} {found : List Piece} :
    Scans text found ↔ found = pieces text := by
  constructor
  · intro scans
    induction scans with
    | nil => exact pieces_nil.symm
    | @cons piece after found leads _ ih =>
        rcases leads.exists_head with ⟨char, rest, written⟩
        have split : piece.chars ++ after = char :: (rest ++ after) := by
          rw [written, List.cons_append]
        rw [split, Piece.leads_iff] at leads
        rw [split, pieces_cons, ← leads, ← split, List.drop_left, ih]
  · rintro rfl
    exact scans_pieces text

/-- The pieces of a text, put together, are the text. -/
theorem Scans.flatMap_chars {text : List Char} {found : List Piece}
    (scans : Scans text found) : found.flatMap Piece.chars = text := by
  rw [scans_iff.1 scans, flatMap_chars_pieces]

/-- Neither an exponent nor a fraction is without digits. -/
example :
    Scans ['1', '.', '5', 'e', '+', ' ', '2', '.']
      [.lexeme .double ['1', '.', '5'], .lexeme .identifier ['e'],
        .lexeme .punctuator ['+'], .blank ' ', .lexeme .integer ['2'], .stray '.'] :=
  scans_iff.2 (by decide +kernel)

namespace Lexed

/-- In lenient mode every source is split by longest matches, in the one way that this
can be done, into tokens and characters that are skipped, with their places. -/
theorem read_longest_match (source : List Char) :
    ∃ lexed found,
      (read source false).outcome = .ok lexed ∧
      (∀ other, Scans source other ↔ other = found) ∧
      found.flatMap Piece.chars = source ∧
      lexed.tokens = (Placed.all [] found).filterMap Placed.token? ++
          [Token.endAt (Text.byteLength source) (source.count '\n' + 1)] ∧
      (∀ token ∈ lexed.tokens, Text.slice? source token.loc token.len =
        some token.text.toList) ∧
      lexed.skipped = (Placed.all [] found).filterMap Placed.skipped? := by
  refine ⟨ofSource source, pieces source, rfl, fun _ => scans_iff,
    flatMap_chars_pieces source, ?_, ?_, ?_⟩
  · rw [tokens_ofSource, (records_survey source).tokens, loc_survey, line_survey]
  · exact fun token found => slice?_of_mem_tokens found
  · exact (records_survey source).skipped

end Lexed

end StackCompiler
