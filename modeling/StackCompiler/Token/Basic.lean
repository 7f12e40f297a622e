import StackCompiler.Text.Place

/-!
# Tokens

A token is a word, a number or a punctuation mark of the source language, with
its text and the place where the text begins. A token of the kind `endOfInput`
closes a sequence of tokens; its text does not matter.
-/

namespace StackCompiler

/-- The kinds of tokens. -/
inductive Token.Kind where
  | identifier
  | keyword
  | integer
  | double
  | punctuator
  | endOfInput
  deriving DecidableEq, Repr

/-- What a message calls a token of this kind. -/
def Token.Kind.category : Token.Kind → String
  | .identifier => "identifier"
  | .keyword => "keyword"
  | .integer => "integer literal"
  | .double => "double literal"
  | .punctuator => "punctuator"
  | .endOfInput => "end of input"

/-- A token with the place of its first character: `loc` is a byte offset,
`line` is counted from one. -/
structure Token where
  kind : Token.Kind
  text : String
  loc : Nat
  line : Nat
  deriving DecidableEq, Repr

namespace Token

/-- The words that are no identifiers. -/
def keywords : List String := ["print", "while", "if", "else", "int", "double"]

/-- The number of bytes that the text of a token takes up. -/
def len (token : Token) : Nat := token.text.utf8ByteSize

/-- The token that closes a text: empty, behind its last character. -/
def endAt (loc line : Nat) : Token := ⟨.endOfInput, "", loc, line⟩

/-- The token of a given kind whose text is a part of the source. A token of the
kind `endOfInput` needs no text, so for it any place will do. -/
def ofSpan? (source : List Char) (kind : Kind) (loc len line : Nat) : Option Token :=
  if kind = .endOfInput then some (endAt loc line)
  else
    (Text.slice? source loc len).map fun text => ⟨kind, String.ofList text, loc, line⟩

/-- Whether a token closes its sequence. -/
def isEnd (token : Token) : Bool := token.kind == .endOfInput

/-- The text of a token of the given kind. -/
def textOf? (kind : Kind) (token : Token) : Option String :=
  if token.kind = kind then some token.text else none

/-- The text of an identifier. -/
def identifier? : Token → Option String := textOf? .identifier

/-- The text of a keyword. -/
def keyword? : Token → Option String := textOf? .keyword

/-- The text of an integer literal. -/
def integer? : Token → Option String := textOf? .integer

/-- The text of a punctuation mark. -/
def punctuator? : Token → Option String := textOf? .punctuator

/-- The text of a literal, integer or double. -/
def number? (token : Token) : Option String :=
  if token.kind = .integer ∨ token.kind = .double then some token.text else none

/-- The short description of what stands at some place of a token sequence: the
text of the token, or `EOF` where the sequence ends. -/
def describe : Option Token → String
  | none => "EOF"
  | some token => if token.isEnd then "EOF" else token.text

end Token

end StackCompiler
