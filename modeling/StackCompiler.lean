import StackCompiler.Text.Place
import StackCompiler.Text.Anchor
import StackCompiler.Text.Decimal
import StackCompiler.Text.Graphic
import StackCompiler.Text.Quoted
import StackCompiler.Token.Basic
import StackCompiler.Token.Piece
import StackCompiler.Token.Lexed
import StackCompiler.Code.Label
import StackCompiler.Diagnostic
import StackCompiler.Log
import StackCompiler.Traced
import StackCompiler.Parsing.Budget
import StackCompiler.Parsing.Problem
import StackCompiler.Parsing.Cursor
import StackCompiler.Expr.Basic
import StackCompiler.Expr.Parser
import StackCompiler.Stmt.Basic
import StackCompiler.Stmt.Parser
import StackCompiler.CompilationUnit.Basic
import StackCompiler.CompilationUnit.Parser
import StackCompiler.Code.Instruction
import StackCompiler.Code.Program
import StackCompiler.Code.Numbering
import StackCompiler.Code.Canonical
import StackCompiler.Stmt.Lowering
import StackCompiler.CompilationUnit.Lowering
import StackCompiler.Code.Assembly
import StackCompiler.Compilation
import StackCompiler.CommandLine.Arguments
import StackCompiler.CommandLine.Run
import StackCompiler.CommandLine.FileTree
import StackCompiler.CommandLine.Surroundings
import StackCompiler.Main
import StackCompiler.Proofs.Code.Labels
import StackCompiler.Proofs.Lowering.Equations
import StackCompiler.Proofs.Lowering.Labels
import StackCompiler.Proofs.Code.Renumbering
import StackCompiler.Proofs.Code.Linking
import StackCompiler.Proofs.Code.Positions
import StackCompiler.Proofs.Code.Renaming
import StackCompiler.Proofs.Lowering.Fragments
import StackCompiler.Proofs.Execution.Structured
import StackCompiler.Proofs.Execution.Machine
import StackCompiler.Proofs.Execution.Steps
import StackCompiler.Proofs.Execution.Realisation
import StackCompiler.Proofs.Compiling
import StackCompiler.Proofs.Execution.Simulation
import StackCompiler.Proofs.Grammar.Spelling
import StackCompiler.Proofs.Grammar.Phrase
import StackCompiler.Proofs.Reading.Outcomes
import StackCompiler.Proofs.Reading.Language
import StackCompiler.Proofs.Reading.Limits
import StackCompiler.Proofs.Reading.Chains
import StackCompiler.Proofs.Reading.Designators
import StackCompiler.Proofs.Reading.Expressions
import StackCompiler.Proofs.Grammar.Sentence
import StackCompiler.Proofs.Grammar.Contents
import StackCompiler.Proofs.Reading.Statements
import StackCompiler.Proofs.Text.Decimal
import StackCompiler.Proofs.Text.Slices
import StackCompiler.Proofs.Grammar.Composition
import StackCompiler.Proofs.Reading.Declarations
import StackCompiler.Proofs.Reading.Programs
import StackCompiler.Proofs.Token.Patterns
import StackCompiler.Proofs.Token.Lexemes
import StackCompiler.Proofs.Token.Places
import StackCompiler.Proofs.Token.LongestMatch
import StackCompiler.Proofs.Token.Spaced
import StackCompiler.Proofs.Grammar.Samples
import StackCompiler.Proofs.Reading.Sources
import StackCompiler.Proofs.Faults
import StackCompiler.Proofs.Lowering.Emissions
import StackCompiler.Proofs.Expr.Items
import StackCompiler.Proofs.Expr.Forms
import StackCompiler.Proofs.CompilationUnit.WellFormed
import StackCompiler.Proofs.Expr.Words
import StackCompiler.Proofs.Expr.Fragments
import StackCompiler.Proofs.Expr.Origins
import StackCompiler.Proofs.Token.Seams
import StackCompiler.Proofs.Joining
import StackCompiler.Proofs.Reading.Failures
import StackCompiler.Proofs.Reading.Lookahead
import StackCompiler.Proofs.Reading.Exhaustion
import StackCompiler.Proofs.Reading.Crowding
import StackCompiler.Proofs.Reading.Beginnings
import StackCompiler.Proofs.Grammar.Nearest
import StackCompiler.Proofs.Reading.Offenders
import StackCompiler.Proofs.Expr.Height
import StackCompiler.Proofs.Reading.Overlong
import StackCompiler.Proofs.CompilationUnit.Written
import StackCompiler.Proofs.CompilationUnit.Image
import StackCompiler.Proofs.Strictness
import StackCompiler.Proofs.Blanking
import StackCompiler.Proofs.Reading.Layout
import StackCompiler.Proofs.Text.Bytes
import StackCompiler.Proofs.Text.Resolution
import StackCompiler.Proofs.Offsets
import StackCompiler.Proofs.Code.InPlace
import StackCompiler.Proofs.Code.Rejection
import StackCompiler.Proofs.Lowering.Outlines
import StackCompiler.Proofs.Lowering.Recovery
import StackCompiler.Proofs.Code.Lines
import StackCompiler.Proofs.Rendering
import StackCompiler.Proofs.Token.LineNumbers
import StackCompiler.Proofs.Carets
import StackCompiler.Proofs.Text.Anchors
import StackCompiler.Proofs.Lowering.Supplies
import StackCompiler.Proofs.Lowering.Resumption
import StackCompiler.Proofs.Lowering.Actions
import StackCompiler.Proofs.Reading.Retelling
import StackCompiler.Proofs.Reading.Endings
import StackCompiler.Proofs.Token.Numerals
import StackCompiler.Proofs.Grammar.Dimensions
import StackCompiler.Proofs.Reading.Dimensions
import StackCompiler.Proofs.Dimensions
import StackCompiler.Proofs.Log.Stepwise
import StackCompiler.Proofs.Log.Certificate
import StackCompiler.Proofs.CommandLine.Files
import StackCompiler.Proofs.CommandLine.Runs
import StackCompiler.Proofs.Reading.Steady
import StackCompiler.Proofs.Reading.Blame
import StackCompiler.Proofs.Reading.Progress
