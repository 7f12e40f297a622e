import StackCompiler.Token.Basic

/-!
# What tokens spell

The grammar does not care where tokens stand in the source. What is left
of a token without its place is a lexeme, and tokens spell the lexemes
that are left of them.
-/

namespace StackCompiler

/-- A token without its place. -/
structure Lexeme where
  kind : Token.Kind
  text : String
  deriving DecidableEq, Repr

namespace Lexeme

/-- The lexeme of a punctuation mark. -/
abbrev mark (symbol : String) : Lexeme := ⟨.punctuator, symbol⟩

/-- The lexeme of a keyword. -/
abbrev keyword (word : String) : Lexeme := ⟨.keyword, word⟩

/-- The lexeme of an identifier. -/
abbrev identifier (name : String) : Lexeme := ⟨.identifier, name⟩

/-- The lexeme of an integer literal. -/
abbrev integer (text : String) : Lexeme := ⟨.integer, text⟩

/-- The lexeme of a double literal. -/
abbrev double (text : String) : Lexeme := ⟨.double, text⟩

end Lexeme

/-- What is left of a token without its place. -/
def Token.lexeme (token : Token) : Lexeme := ⟨token.kind, token.text⟩

namespace Token

theorem textOf?_eq_some_iff {kind : Kind} {token : Token} {text : String} :
    token.textOf? kind = some text ↔ token.lexeme = ⟨kind, text⟩ := by
  simp [textOf?, lexeme]

theorem identifier?_eq_some_iff {token : Token} {name : String} :
    token.identifier? = some name ↔ token.lexeme = .identifier name :=
  textOf?_eq_some_iff

theorem keyword?_eq_some_iff {token : Token} {word : String} :
    token.keyword? = some word ↔ token.lexeme = .keyword word := textOf?_eq_some_iff

theorem integer?_eq_some_iff {token : Token} {text : String} :
    token.integer? = some text ↔ token.lexeme = .integer text := textOf?_eq_some_iff

theorem punctuator?_eq_some_iff {token : Token} {symbol : String} :
    token.punctuator? = some symbol ↔ token.lexeme = .mark symbol := textOf?_eq_some_iff

end Token

/-- Whether the tokens `before` are `lexemes` with some places, and then the
tokens `after`. -/
def Spells : (lexemes : List Lexeme) → (before after : List Token) → Prop
  | [], before, after => before = after
  | lexeme :: lexemes, before, after =>
    ∃ token rest, before = token :: rest ∧ token.lexeme = lexeme ∧
      Spells lexemes rest after

namespace Spells

variable {first second : List Lexeme} {before after : List Token}

@[simp] theorem nil_iff : Spells [] before after ↔ before = after := Iff.rfl

theorem cons_iff {lexeme : Lexeme} :
    Spells (lexeme :: first) before after ↔
    ∃ token rest, before = token :: rest ∧ token.lexeme = lexeme ∧
      Spells first rest after :=
  Iff.rfl

theorem append_iff :
    Spells (first ++ second) before after ↔
      ∃ between, Spells first before between ∧ Spells second between after := by
  induction first generalizing before with
  | nil => simp
  | cons lexeme first ih =>
      simp only [List.cons_append, cons_iff, ih]
      constructor
      · intro holds
        rcases holds with ⟨token, rest, rfl, same, between, spellsFirst, spellsSecond⟩
        exact ⟨between, ⟨token, rest, rfl, same, spellsFirst⟩, spellsSecond⟩
      · intro holds
        rcases holds with ⟨between, ⟨token, rest, rfl, same, spellsFirst⟩, spellsSecond⟩
        exact ⟨token, rest, rfl, same, between, spellsFirst, spellsSecond⟩

/-- Lexemes are spelled one after the other. -/
theorem uncons_iff {lexeme : Lexeme} :
    Spells (lexeme :: second) before after ↔
      ∃ between, Spells [lexeme] before between ∧ Spells second between after :=
  @append_iff [lexeme] second before after

/-- The tokens that were read are the tokens before without those after. -/
theorem iff_exists_append :
    Spells first before after ↔
      ∃ read : List Token, before = read ++ after ∧ read.map Token.lexeme = first := by
  induction first generalizing before with
  | nil => simp
  | cons lexeme first ih =>
      simp only [cons_iff, ih, List.map_eq_cons_iff]
      constructor
      · intro holds
        rcases holds with ⟨token, _, rfl, same, read, rfl, spelled⟩
        exact ⟨token :: read, rfl, token, read, rfl, same, spelled⟩
      · intro holds
        rcases holds with ⟨_, rfl, token, read, rfl, same, spelled⟩
        exact ⟨token, _, rfl, same, read, rfl, spelled⟩

theorem length_eq (spells : Spells first before after) :
    before.length = first.length + after.length := by
  obtain ⟨read, rfl, rfl⟩ := iff_exists_append.1 spells
  simp

/-- The next token has the lexeme that is to be spelled next. -/
theorem map_lexeme_head? (spells : Spells first before after) :
    before.head?.map Token.lexeme = (first ++ after.map Token.lexeme).head? := by
  obtain ⟨read, rfl, rfl⟩ := iff_exists_append.1 spells
  rw [← List.map_append, List.head?_map]

end Spells

end StackCompiler
