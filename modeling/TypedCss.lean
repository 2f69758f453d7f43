import TypedCss.CommandLine.Arguments
import TypedCss.CommandLine.FileSystem
import TypedCss.CommandLine.Run
import TypedCss.Compile
import TypedCss.Css
import TypedCss.Expr
import TypedCss.Fault
import TypedCss.Folding
import TypedCss.Grammar.Expression
import TypedCss.Grammar.Parse
import TypedCss.Grammar.Statement
import TypedCss.Grammar.Table
import TypedCss.Main
import TypedCss.Place
import TypedCss.Problem
import TypedCss.Report
import TypedCss.Scopes
import TypedCss.Stylesheet
import TypedCss.Text.Blank
import TypedCss.Text.Decimal
import TypedCss.Text.Line
import TypedCss.Text.Printable
import TypedCss.Text.Quoted
import TypedCss.Text.Search
import TypedCss.Text.Size
import TypedCss.Token
import TypedCss.Token.Lexeme
import TypedCss.Token.Source
import TypedCss.Typing
import TypedCss.Value
import TypedCss.Proofs.Lockstep
import TypedCss.Proofs.FirstFault
import TypedCss.Proofs.Generation
import TypedCss.Proofs.Soundness
import TypedCss.Proofs.Walk
import TypedCss.Proofs.BindingSite
import TypedCss.Proofs.Scoping
import TypedCss.Proofs.Uses
import TypedCss.Proofs.Preservation
import TypedCss.Proofs.Approval
import TypedCss.Proofs.Emission
import TypedCss.Proofs.Declarations
import TypedCss.Proofs.Derivation
import TypedCss.Proofs.Spelling
import TypedCss.Proofs.Reading
import TypedCss.Proofs.Expressions
import TypedCss.Proofs.Statements
import TypedCss.Proofs.Recognition
import TypedCss.Proofs.Patterns
import TypedCss.Proofs.Tiling
import TypedCss.Proofs.Joining
import TypedCss.Proofs.Bare
import TypedCss.Proofs.Liveness
import TypedCss.Proofs.Persistence
import TypedCss.Proofs.Viability
import TypedCss.Proofs.CorrectPrefix
import TypedCss.Proofs.Confinement
import TypedCss.Proofs.Editing
import TypedCss.Proofs.Independence
import TypedCss.Proofs.Transparency
import TypedCss.Proofs.Placeless
import TypedCss.Proofs.PlacelessReading
import TypedCss.Proofs.Layout
import TypedCss.Proofs.Separation
import TypedCss.Proofs.Wording
import TypedCss.Proofs.FlatRules
import TypedCss.Proofs.ReadBack
import TypedCss.Proofs.Placing
import TypedCss.Proofs.Reports
import TypedCss.Proofs.Arguments
import TypedCss.Proofs.Runs
import TypedCss.Proofs.HiddenScopes
import TypedCss.Proofs.ExpressionText
import TypedCss.Proofs.Precedence
import TypedCss.Proofs.Rounds
import TypedCss.Proofs.Carets
import TypedCss.Proofs.WrapAround
import TypedCss.Proofs.Arithmetic
import TypedCss.Proofs.Refolding
import TypedCss.Proofs.Interruption
import TypedCss.Proofs.Nodes
import TypedCss.Proofs.Annotation
import TypedCss.Proofs.Cascade
import TypedCss.Proofs.ScopeHistory
import TypedCss.Proofs.LinePlaces
import TypedCss.Proofs.Extents
import TypedCss.Proofs.Nesting
import TypedCss.Proofs.Obstacles
import TypedCss.Proofs.Progress
import TypedCss.Proofs.Calls
import TypedCss.Proofs.Budget
