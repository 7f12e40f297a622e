import StackCompiler.Parsing.Problem

/-!
# Reading tokens

A `Cursor` stands in a sequence of tokens and knows how much of the limits is in
use there. A `Parser` moves it forward. When a parser fails, its cursor stays at
the token where the problem was found.

Everything is read through a few primitives: a look at the next token,
`takeIf?`, which takes the next token if it is of some use, and `nested` and
`link`, which keep account of the limits. The only loop is `many`.
-/

namespace StackCompiler

/-- A place in a sequence of tokens. -/
structure Cursor where
  /-- The tokens that have not been read. -/
  rest : List Token
  /-- The part of the limits that is in use. -/
  budget : Budget
  deriving DecidableEq, Repr

/-- Reads tokens to obtain something of type `α`. -/
abbrev Parser (α : Type) := EStateM Problem Cursor α

namespace Parser

variable {α : Type}

/-- The next token. -/
def peek? : Parser (Option Token) := do
  return (← get).rest.head?

/-- Whether no token is left. A token of the kind `endOfInput` is none. -/
def atEnd : Parser Bool := do
  return (← peek?).all Token.isEnd

/-- Takes the next token if `use?` has a use for it. -/
def takeIf? (use? : Token → Option α) : Parser (Option α) := fun cursor =>
  match cursor.rest with
  | [] => .ok none cursor
  | token :: rest =>
    match use? token with
    | none => .ok none cursor
    | some result => .ok (some result) { cursor with rest }

/-- Takes the next token, for which `use?` must have a use. -/
def take (wanted : Wanted) (use? : Token → Option α) : Parser α := do
  match ← takeIf? use? with
  | none => throw (.unexpected wanted)
  | some result => return result

/-- Takes the next token if it is the given punctuation mark. -/
def acceptPunctuator (symbol : String) : Parser Bool := do
  return (← takeIf? fun token => token.punctuator?.filter (· == symbol)).isSome

/-- Takes the next token if it is the given keyword. -/
def acceptKeyword (keyword : String) : Parser Bool := do
  return (← takeIf? fun token => token.keyword?.filter (· == keyword)).isSome

/-- Takes the next token, which must be the given punctuation mark. -/
def punctuator (symbol : String) : Parser PUnit := do
  unless ← acceptPunctuator symbol do
    throw (.unexpected (.punctuator symbol))

/-- Reads one nesting level deeper. The level is closed again whether reading
succeeds or fails. -/
def nested (body : Parser α) : Parser α := fun cursor =>
  match cursor.budget.deepen? with
  | none => .error .tooDeep cursor
  | some deeper =>
    match body { cursor with budget := deeper } with
    | .ok result after => .ok result { after with budget := after.budget.surface }
    | .error problem after =>
        .error problem { after with budget := after.budget.surface }

/-- Uses one more operator link. -/
def link : Parser PUnit := fun cursor =>
  match cursor.budget.extend? with
  | none => .error .tooLong cursor
  | some longer => .ok ⟨⟩ { cursor with budget := longer }

/-- Gives back a number of operator links. -/
def unlink (links : Nat) : Parser PUnit :=
  modify fun cursor => { cursor with budget := cursor.budget.release links }

/-- Repeats `step?` until it has nothing more to give, at most once
more than `bound` is long. The results so far are `done`, the last of
which comes first. -/
def manyWithin (step? : Parser (Option α)) (done : List α) (bound : List Token) :
    Parser (List α) := do
  match ← step? with
  | none => return done.reverse
  | some result =>
    match bound with
    | [] => return (result :: done).reverse
    | _ :: bound => manyWithin step? (result :: done) bound

/-- Repeats `step?` until it has nothing more to give. A step that gives
something has to read a token, so there cannot be more such steps than tokens,
and one more finds that there is nothing left. -/
def many (step? : Parser (Option α)) : Parser (List α) := do
  manyWithin step? [] (← get).rest

end Parser

end StackCompiler
