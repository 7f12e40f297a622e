import StackCompiler.Proofs.Faults
import StackCompiler.Proofs.Token.Scanning

/-!
# Compiling by byte offsets

On a machine a source is an array of bytes, and a token is known by the bytes it
takes up. Compiling a source in this way cuts out parts of it, reads single
bytes and subtracts offsets, each of which fails if it goes wrong. It never goes
wrong, and the outcome is that of compiling the text (`compileByOffsets?_eq`).
-/

namespace StackCompiler

/-- A token with its text, which is the part of the source at the place of the token. -/
def Span.token? (source : List Char) (span : Span) : Option Token :=
  (Text.slice? source span.loc span.len).map fun text =>
      ⟨span.kind, String.ofList text, span.loc, span.line⟩

/-- Closes the list of tokens at the end of the source. -/
def Scanner.State.finish (source : List Char) (state : State) : List Span :=
  (⟨.endOfInput, (Text.bytes source).length, 0, state.line⟩ :: state.spans).reverse

/-- Compiles a source by byte offsets. There is a result unless an operation fails on
the way. The text of every token is cut out, whether or not it is looked at later. -/
def compileByOffsets? (source : String) (strict : Bool) :
    Option (Except Diagnostic Compiled) := do
  match ← Scanner.run? strict source.toList .start with
  | .error diagnostic => return .error diagnostic
  | .ok state =>
    let tokens ← (state.finish source.toList).mapM (Span.token? source.toList)
    match CompilationUnit.ofTokens? tokens with
    | .error failure =>
      let (anchor, _) ← Text.Anchor.resolve? source.toList (failure.loc source.toList)
      return .error (.malformed anchor failure.message)
    | .ok unit =>
      let (code, _) := unit.lower.run LabelSupply.fresh
      return (Canonical.canonicalize code).outcome.map fun code =>
          ⟨⟨code⟩, state.skipped.reverse⟩

theorem mapM_token? {source : List Char} {tokens : List Token}
    (placed : ∀ token ∈ tokens, Text.slice? source token.loc token.len =
      some token.text.toList) :
    (tokens.map Token.span).mapM (Span.token? source) = some tokens := by
  induction tokens with
  | nil => rfl
  | cons token rest ih =>
      rw [List.forall_mem_cons] at placed
      have found : Span.token? source token.span = some token := by
        rw [Span.token?, Token.span, placed.1, Option.map_some, String.ofList_toList]
      rw [List.map_cons, List.mapM_cons, found, ih placed.2]
      rfl

theorem Lexed.Progress.finish_ofProgress {source : List Char} {progress : Progress}
    (atEnd : progress.loc = Text.byteLength source) :
    (Scanner.State.ofProgress progress).finish source =
      progress.finish.tokens.map Token.span := by
  rw [Scanner.State.finish, Text.length_bytes, ← atEnd, Progress.finish,
    List.map_reverse]
  rfl

/-- No operation on byte offsets fails, whatever the source, and the outcome is
that of compiling the text. -/
theorem compileByOffsets?_eq (source : String) (strict : Bool) :
    compileByOffsets? source strict = some (compile source strict).outcome := by
  have reads := Lexed.outcome_read source.toList strict
  rw [compileByOffsets?, Scanner.run?_start]
  cases found : (if strict then Lexed.surveyStrictly source.toList
    else .ok (Lexed.survey source.toList)) with
  | error diagnostic =>
      rw [found] at reads
      rw [outcome_compile, outcome_readUnit, reads]
      rfl
  | ok progress =>
      rw [found] at reads
      rw [outcome_compile_of_read reads]
      rcases Lexed.eq_survey found with rfl
      have spans :
          (Scanner.State.ofProgress (Lexed.survey source.toList)).finish source.toList =
          (Lexed.ofSource source.toList).tokens.map Token.span :=
        Lexed.Progress.finish_ofProgress (Lexed.loc_survey source.toList)
      have texts := mapM_token? fun _ => @Lexed.slice?_of_mem_tokens source.toList _
      change ((Scanner.State.finish source.toList _).mapM
        (Span.token? source.toList) >>= _) = _
      rw [spans, texts, Option.bind_eq_bind, Option.bind_some]
      change _ = some (((CompilationUnit.ofTokens?
        (Lexed.ofSource source.toList).tokens).mapError _).map _)
      cases CompilationUnit.ofTokens? (Lexed.ofSource source.toList).tokens with
      | error failure =>
          change (Text.Anchor.resolve? _ _ >>= _) = _
          rw [Text.Anchor.resolve?_eq]
          rfl
      | ok unit =>
          change some (Except.map _
            (Canonical.canonicalize (unit.lower.run LabelSupply.fresh).1).outcome) = _
          rw [unit.run_lower, unit.outcome_canonicalize]
          rfl

end StackCompiler
