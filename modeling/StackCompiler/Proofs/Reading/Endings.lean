import StackCompiler.Proofs.Reading.Retelling

/-!
# Where tokens end

Tokens end at the first of the kind `endOfInput`, or where no more are left. To
leave out what stands behind that token is one way of telling the tokens, and to
leave out the token as well is another. So reading does not look beyond the
first end (`CompilationUnit.ofTokens?_toEnd`), and where tokens are not closed,
they are read as if they were closed by an end behind the last character of
their source (`CompilationUnit.parse_ending`).
-/

namespace StackCompiler

namespace Token

/-- The tokens up to the first that closes their sequence, that one included. -/
def toEnd : List Token → List Token
  | [] => []
  | token :: rest => if token.isEnd then [token] else token :: toEnd rest

/-- The tokens before the first that closes their sequence. -/
def beforeEnd : List Token → List Token
  | [] => []
  | token :: rest => if token.isEnd then [] else token :: beforeEnd rest

variable {tokens : List Token}

@[simp] theorem head?_toEnd (tokens : List Token) :
    (toEnd tokens).head? = tokens.head? := by
  cases tokens with
  | nil => rfl
  | cons token rest =>
      rw [toEnd]
      split <;> rfl

theorem retelling_toEnd : Retelling toEnd where
  head tokens := by rw [head?_toEnd]
  tail goesOn := by simp [toEnd, goesOn]

theorem retelling_beforeEnd : Retelling beforeEnd where
  head tokens := by
    cases tokens with
    | nil => rfl
    | cons token rest =>
        rw [beforeEnd, List.head?_cons, spelling?_some]
        cases ends : token.isEnd with
        | true => rfl
        | false => simp [spelling?_some, ends]
  tail goesOn := by simp [beforeEnd, goesOn]

/-- Where no token closes the sequence, the first one behind it that does ends it. -/
theorem toEnd_append (inner : ∀ token ∈ tokens, token.isEnd = false) {ending : Token}
    (ends : ending.isEnd = true) (others : List Token) :
    toEnd (tokens ++ ending :: others) = tokens ++ [ending] := by
  induction tokens with
  | nil => simp [toEnd, ends]
  | cons token rest ih =>
      rw [List.forall_mem_cons] at inner
      simp [toEnd, inner.1, ih inner.2]

theorem beforeEnd_append (inner : ∀ token ∈ tokens, token.isEnd = false)
    {ending : Token} (ends : ending.isEnd = true) :
    beforeEnd (tokens ++ [ending]) = tokens := by
  induction tokens with
  | nil => simp [beforeEnd, ends]
  | cons token rest ih =>
      rw [List.forall_mem_cons] at inner
      simp [beforeEnd, inner.1, ih inner.2]

end Token

namespace Failure

/-- A failure at the end is worded alike, whether there is a token for
the end or none. -/
theorem message_of_isEnd {ending : Token} (ends : ending.isEnd = true)
    (problem : Problem) : message ⟨problem, ending⟩ = message ⟨problem, none⟩ := by
  cases problem with
  | unexpected wanted => simp [message, describeFound, ends]
  | _ => rfl

/-- A failure is reported alike without the tokens that close the sequence,
where these stand at the end of the source. -/
theorem diagnose_beforeEnd {source : List Char} {tokens : List Token}
    (last : ∀ token ∈ tokens, token.isEnd = true → token.loc = Text.byteLength source)
    (problem : Problem) :
    diagnose source ⟨problem, (Token.beforeEnd tokens).head?⟩ =
      diagnose source ⟨problem, tokens.head?⟩ := by
  cases tokens with
  | nil => rfl
  | cons token rest =>
      rw [Token.beforeEnd]
      cases ends : token.isEnd with
      | false => rfl
      | true =>
          simp only [if_true, List.head?_nil, List.head?_cons, diagnose,
            message_of_isEnd ends, loc]
          rw [last token List.mem_cons_self ends]

end Failure

namespace CompilationUnit

/-- Nothing behind the first end is looked at: without it, tokens form the same
program, or reading fails at the same of them. -/
theorem ofTokens?_toEnd (tokens : List Token) :
    ofTokens? (Token.toEnd tokens) = ofTokens? tokens := by
  have same := retold_read Token.retelling_toEnd ⟨tokens, Budget.unused⟩
  rw [Cursor.retell] at same
  rw [ofTokens?, ofTokens?, same]
  cases read ⟨tokens, Budget.unused⟩ with
  | ok unit after => rfl
  | error problem stuck =>
      change Except.error (Failure.mk problem (Token.toEnd stuck.rest).head?) = _
      rw [Token.head?_toEnd]

/-- An end behind the last character of the source makes no difference. -/
theorem parse_beforeEnd {source : List Char} {tokens : List Token}
    (last : ∀ token ∈ tokens, token.isEnd = true → token.loc = Text.byteLength source) :
    parse (Token.beforeEnd tokens) source = parse tokens source := by
  have same := retold_read Token.retelling_beforeEnd ⟨tokens, Budget.unused⟩
  have isSuffix := local_read.isSuffix ⟨tokens, Budget.unused⟩
  rw [Cursor.retell] at same
  rw [parse, parse, ofTokens?, ofTokens?, same]
  cases run : read ⟨tokens, Budget.unused⟩ with
  | ok unit after => rfl
  | error problem stuck =>
      rw [run] at isSuffix
      exact congrArg Except.error
        (Failure.diagnose_beforeEnd
          (fun token isLeft => last token (isSuffix.subset isLeft)) problem)

/-- Tokens that are not closed are read as if an end stood behind the last
character of the source, and what stands behind an end makes no difference: the
same program is read, or the same diagnostic is given. -/
theorem parse_ending (source : List Char) (tokens others : List Token) (ending : Token)
    (inner : ∀ token ∈ tokens, token.isEnd = false) (ends : ending.isEnd = true)
    (last : ending.loc = Text.byteLength source) :
    parse (tokens ++ [ending]) source = parse tokens source ∧
      parse (tokens ++ ending :: others) source = parse tokens source := by
  have closed : parse (tokens ++ [ending]) source = parse tokens source := by
    rw [← parse_beforeEnd, Token.beforeEnd_append inner ends]
    intro token isToken isLast
    rcases List.mem_append.1 isToken with isInner | isEnding
    · rw [inner token isInner] at isLast
      contradiction
    · rw [List.mem_singleton.1 isEnding, last]
  refine ⟨closed, ?_⟩
  rw [parse, ← ofTokens?_toEnd, Token.toEnd_append inner ends]
  exact closed

/-- The missing semicolon is missing at the end of the source, even if the
tokens go on with one behind the end. -/
theorem parse_ending_print :
    let tokens : List Token := [⟨.keyword, "print", 0, 1⟩, ⟨.identifier, "a", 6, 1⟩]
    let ending : Token := ⟨.endOfInput, "", 7, 1⟩
    let others : List Token := [⟨.punctuator, ";", 0, 1⟩, ending]
    (∀ token ∈ tokens, token.isEnd = false) ∧ ending.isEnd = true ∧
      ending.loc = Text.byteLength "print a".toList ∧
      parse (tokens ++ [ending]) "print a".toList = parse tokens "print a".toList ∧
      parse (tokens ++ ending :: others) "print a".toList =
          parse tokens "print a".toList := by
  intro tokens ending others
  have inner : ∀ token ∈ tokens, token.isEnd = false := by decide
  have ends : ending.isEnd = true := by decide
  have last : ending.loc = Text.byteLength "print a".toList := by decide
  exact ⟨inner, ends, last, parse_ending _ tokens others ending inner ends last⟩

end CompilationUnit

end StackCompiler
