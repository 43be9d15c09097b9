import PegMatch.Blueprint
import PegMatch.Captures
import PegMatch.Command.Arguments
import PegMatch.Command.InDirectory
import PegMatch.Command.Run
import PegMatch.Datum
import PegMatch.Datum.Arithmetic
import PegMatch.Directory
import PegMatch.Failure
import PegMatch.Fault
import PegMatch.Grammar.Mistake
import PegMatch.Grammar.Reader
import PegMatch.Grammar.Token
import PegMatch.Highlight.Ansi
import PegMatch.Highlight.Html
import PegMatch.Highlight.Token
import PegMatch.Library
import PegMatch.Main
import PegMatch.Match
import PegMatch.Matching.Comparison
import PegMatch.Matching.Engine
import PegMatch.Misuse
import PegMatch.Notice
import PegMatch.Pattern.Basic
import PegMatch.Pattern.Build
import PegMatch.Pattern.Cost
import PegMatch.Pattern.Equality
import PegMatch.Pattern.Numbering
import PegMatch.Pattern.Outline
import PegMatch.Pattern.Render
import PegMatch.Proofs.Blueprints
import PegMatch.Proofs.Bounds
import PegMatch.Proofs.Caching
import PegMatch.Proofs.CaptureOrder
import PegMatch.Proofs.Comparing
import PegMatch.Proofs.Compilations
import PegMatch.Proofs.Compiled
import PegMatch.Proofs.Construction
import PegMatch.Proofs.Copies
import PegMatch.Proofs.Cutting
import PegMatch.Proofs.Divisions
import PegMatch.Proofs.Documents
import PegMatch.Proofs.Equality
import PegMatch.Proofs.Equivalence
import PegMatch.Proofs.Escaping
import PegMatch.Proofs.Events
import PegMatch.Proofs.Expressions
import PegMatch.Proofs.Extent
import PegMatch.Proofs.Files
import PegMatch.Proofs.FreshSlots
import PegMatch.Proofs.GrammarMeaning
import PegMatch.Proofs.Highlighting
import PegMatch.Proofs.History
import PegMatch.Proofs.Identity
import PegMatch.Proofs.InPlace
import PegMatch.Proofs.Inlining
import PegMatch.Proofs.Journal
import PegMatch.Proofs.Keys
import PegMatch.Proofs.Lexemes
import PegMatch.Proofs.Lexing
import PegMatch.Proofs.Likeness
import PegMatch.Proofs.Located
import PegMatch.Proofs.Lockstep
import PegMatch.Proofs.Marking
import PegMatch.Proofs.Meaning
import PegMatch.Proofs.Nodes
import PegMatch.Proofs.Normalisation
import PegMatch.Proofs.Numbering
import PegMatch.Proofs.Origins
import PegMatch.Proofs.Parsing
import PegMatch.Proofs.Pieces
import PegMatch.Proofs.Positions
import PegMatch.Proofs.Reading
import PegMatch.Proofs.Recompiling
import PegMatch.Proofs.Renaming
import PegMatch.Proofs.Rendering
import PegMatch.Proofs.Renumbering
import PegMatch.Proofs.Repetition
import PegMatch.Proofs.Replacing
import PegMatch.Proofs.Replay
import PegMatch.Proofs.Rereading
import PegMatch.Proofs.Rollback
import PegMatch.Proofs.RoundTrip
import PegMatch.Proofs.RuleCopies
import PegMatch.Proofs.RuleTexts
import PegMatch.Proofs.Safety
import PegMatch.Proofs.Scanning
import PegMatch.Proofs.Searching
import PegMatch.Proofs.SlotSafety
import PegMatch.Proofs.Spelling
import PegMatch.Proofs.Stream
import PegMatch.Proofs.Syntax
import PegMatch.Proofs.SyntaxMeaning
import PegMatch.Proofs.Templates
import PegMatch.Proofs.Termination
import PegMatch.Proofs.Thinning
import PegMatch.Proofs.TokenRests
import PegMatch.Proofs.Tokens
import PegMatch.Proofs.Transcription
import PegMatch.Proofs.Translation
import PegMatch.Proofs.Traversal
import PegMatch.Proofs.Utf8
import PegMatch.Proofs.Weaving
import PegMatch.Proofs.WholeMatch
import PegMatch.Proofs.Windows
import PegMatch.Proofs.Writing
import PegMatch.RuneSet
import PegMatch.Search
import PegMatch.Settings.Config
import PegMatch.Settings.File
import PegMatch.Settings.Logger
import PegMatch.Settings.Path
import PegMatch.Template
import PegMatch.Text.Basic
import PegMatch.Text.Blank
import PegMatch.Text.Compatibility
import PegMatch.Text.Composition
import PegMatch.Text.Decimal
import PegMatch.Text.Digit
import PegMatch.Text.Encoding
import PegMatch.Text.Escaped
import PegMatch.Text.Folding
import PegMatch.Text.Letter
import PegMatch.Text.Lowercase
import PegMatch.Text.MarkClass
import PegMatch.Text.Name
import PegMatch.Text.Normal
import PegMatch.Text.Numeral
import PegMatch.Text.Position
import PegMatch.Text.Printable
import PegMatch.Text.Quoted
import PegMatch.Text.Ranges
import PegMatch.Text.Titlecase
import PegMatch.Text.Uppercase
import PegMatch.Workspace
