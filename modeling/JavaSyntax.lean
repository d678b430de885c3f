import JavaSyntax.CommandLine.Command
import JavaSyntax.CommandLine.Run
import JavaSyntax.Diagnostics.Code
import JavaSyntax.FrontEnd.Basic
import JavaSyntax.Grammar.Basic
import JavaSyntax.Grammar.Declarations
import JavaSyntax.Grammar.Levels
import JavaSyntax.Grammar.Modifiers
import JavaSyntax.Grammar.Operators
import JavaSyntax.Grammar.Primaries
import JavaSyntax.Grammar.Statements
import JavaSyntax.Grammar.Switches
import JavaSyntax.Grammar.Types
import JavaSyntax.Grammar.Units
import JavaSyntax.Grammar.Variables
import JavaSyntax.Journal.Event
import JavaSyntax.Journal.Format
import JavaSyntax.Journal.Recent
import JavaSyntax.Journal.Service
import JavaSyntax.Json.Basic
import JavaSyntax.Json.Error
import JavaSyntax.Json.Settings
import JavaSyntax.Json.Token
import JavaSyntax.Json.Tree
import JavaSyntax.Lexer.Automaton
import JavaSyntax.Lexer.Basic
import JavaSyntax.Lexer.CharClass
import JavaSyntax.Lexer.Error
import JavaSyntax.Lexer.Literal
import JavaSyntax.Lexer.Literal.Digits
import JavaSyntax.Lexer.Literal.Escape
import JavaSyntax.Lexer.Literal.Floating
import JavaSyntax.Lexer.Literal.Integer
import JavaSyntax.Lexer.Literal.TextBlock
import JavaSyntax.Lexer.Metrics
import JavaSyntax.Lexer.Run
import JavaSyntax.Main
import JavaSyntax.Number.FloatText
import JavaSyntax.Proofs.FrontEnd.Complaints
import JavaSyntax.Proofs.FrontEnd.Failures
import JavaSyntax.Proofs.FrontEnd.Fidelity
import JavaSyntax.Proofs.FrontEnd.Histories
import JavaSyntax.Proofs.FrontEnd.Layout
import JavaSyntax.Proofs.FrontEnd.Reprint
import JavaSyntax.Proofs.FrontEnd.RoundTrip
import JavaSyntax.Proofs.FrontEnd.Rules
import JavaSyntax.Proofs.FrontEnd.Survival
import JavaSyntax.Proofs.FrontEnd.Termination
import JavaSyntax.Proofs.Grammar.Advance
import JavaSyntax.Proofs.Grammar.Climbing
import JavaSyntax.Proofs.Grammar.DeclarationNodes
import JavaSyntax.Proofs.Grammar.DeclarationRules
import JavaSyntax.Proofs.Grammar.ElseChains
import JavaSyntax.Proofs.Grammar.ExpressionEchoes
import JavaSyntax.Proofs.Grammar.ExpressionLifts
import JavaSyntax.Proofs.Grammar.ExpressionNodes
import JavaSyntax.Proofs.Grammar.ExpressionRules
import JavaSyntax.Proofs.Grammar.Expressions
import JavaSyntax.Proofs.Grammar.KindsAhead
import JavaSyntax.Proofs.Grammar.Loops
import JavaSyntax.Proofs.Grammar.Nesting
import JavaSyntax.Proofs.Grammar.ParenShapes
import JavaSyntax.Proofs.Grammar.Parentheses
import JavaSyntax.Proofs.Grammar.Phrases
import JavaSyntax.Proofs.Grammar.PlainExpressions
import JavaSyntax.Proofs.Grammar.PlainTypes
import JavaSyntax.Proofs.Grammar.Progress
import JavaSyntax.Proofs.Grammar.Recognizer
import JavaSyntax.Proofs.Grammar.StatementEchoes
import JavaSyntax.Proofs.Grammar.StatementLifts
import JavaSyntax.Proofs.Grammar.StatementNodes
import JavaSyntax.Proofs.Grammar.StatementRules
import JavaSyntax.Proofs.Grammar.Statements
import JavaSyntax.Proofs.Grammar.TypeEchoes
import JavaSyntax.Proofs.Grammar.TypeLifts
import JavaSyntax.Proofs.Grammar.TypeNodes
import JavaSyntax.Proofs.Grammar.TypeRules
import JavaSyntax.Proofs.Grammar.Types
import JavaSyntax.Proofs.Grammar.TypesAgree
import JavaSyntax.Proofs.Grammar.TypesAhead
import JavaSyntax.Proofs.Grammar.TypesTaken
import JavaSyntax.Proofs.Lexer.BoundedCalls
import JavaSyntax.Proofs.Lexer.BoundedDecoders
import JavaSyntax.Proofs.Lexer.BoundedLiterals
import JavaSyntax.Proofs.Lexer.BoundedNumbers
import JavaSyntax.Proofs.Lexer.Calls
import JavaSyntax.Proofs.Lexer.Decimals
import JavaSyntax.Proofs.Lexer.Delivery
import JavaSyntax.Proofs.Lexer.Escapes
import JavaSyntax.Proofs.Lexer.Excerpts
import JavaSyntax.Proofs.Lexer.FloatLiterals
import JavaSyntax.Proofs.Lexer.FloatScans
import JavaSyntax.Proofs.Lexer.FloatValues
import JavaSyntax.Proofs.Lexer.Integers
import JavaSyntax.Proofs.Lexer.Numerals
import JavaSyntax.Proofs.Lexer.Pieces
import JavaSyntax.Proofs.Lexer.Positions
import JavaSyntax.Proofs.Lexer.Quotation
import JavaSyntax.Proofs.Lexer.Recount
import JavaSyntax.Proofs.Lexer.Refusal
import JavaSyntax.Proofs.Lexer.Rounds
import JavaSyntax.Proofs.Lexer.Series
import JavaSyntax.Proofs.Lexer.Slicing
import JavaSyntax.Proofs.Lexer.Spelling
import JavaSyntax.Proofs.Lexer.Spellings
import JavaSyntax.Proofs.Lexer.TextBlocks
import JavaSyntax.Proofs.Lexer.Tiling
import JavaSyntax.Proofs.Lexer.Touching
import JavaSyntax.Proofs.Lexer.Trivia
import JavaSyntax.Proofs.Lexer.Underscores
import JavaSyntax.Proofs.Syntax.Ahead
import JavaSyntax.Proofs.Syntax.Attempt
import JavaSyntax.Proofs.Syntax.Balance
import JavaSyntax.Proofs.Syntax.Budget
import JavaSyntax.Proofs.Syntax.Builds
import JavaSyntax.Proofs.Syntax.Echo
import JavaSyntax.Proofs.Syntax.EchoAhead
import JavaSyntax.Proofs.Syntax.Effect
import JavaSyntax.Proofs.Syntax.Lift
import JavaSyntax.Proofs.Syntax.LiftAhead
import JavaSyntax.Proofs.Syntax.Nesting
import JavaSyntax.Proofs.Syntax.OperandsAhead
import JavaSyntax.Proofs.Syntax.Outcomes
import JavaSyntax.Proofs.Syntax.Pace
import JavaSyntax.Proofs.Syntax.Production
import JavaSyntax.Proofs.Syntax.Progress
import JavaSyntax.Proofs.Syntax.Reaches
import JavaSyntax.Proofs.Syntax.Rounds
import JavaSyntax.Proofs.Syntax.Runs
import JavaSyntax.Proofs.Syntax.Scans
import JavaSyntax.Proofs.Syntax.Steps
import JavaSyntax.Proofs.Syntax.Walk
import JavaSyntax.Proofs.Syntax.Yield
import JavaSyntax.Proofs.Text.Lines
import JavaSyntax.Proofs.Text.Partition
import JavaSyntax.Proofs.Text.Slices
import JavaSyntax.Proofs.Text.Underlines
import JavaSyntax.Proofs.Token.Agreement
import JavaSyntax.Proofs.Token.Ahead
import JavaSyntax.Proofs.Token.Angles
import JavaSyntax.Proofs.Token.Course
import JavaSyntax.Proofs.Token.Groups
import JavaSyntax.Proofs.Token.Invariants
import JavaSyntax.Proofs.Token.Mirror
import JavaSyntax.Proofs.Token.Order
import JavaSyntax.Proofs.Token.Passed
import JavaSyntax.Proofs.Token.Places
import JavaSyntax.Proofs.Token.Positions
import JavaSyntax.Proofs.Token.Reading
import JavaSyntax.Proofs.Token.Renoted
import JavaSyntax.Proofs.Token.Rewind
import JavaSyntax.Proofs.Token.Room
import JavaSyntax.Proofs.Token.Splits
import JavaSyntax.Proofs.Token.Twins
import JavaSyntax.Proofs.Token.Words
import JavaSyntax.Proofs.Tree.Bare
import JavaSyntax.Proofs.Tree.Contacts
import JavaSyntax.Proofs.Tree.Grouping
import JavaSyntax.Proofs.Tree.Indentation
import JavaSyntax.Proofs.Tree.Likeness
import JavaSyntax.Proofs.Tree.Parts
import JavaSyntax.Proofs.Tree.Pieces
import JavaSyntax.Proofs.Tree.PlainExpressions
import JavaSyntax.Proofs.Tree.PlainTypes
import JavaSyntax.Proofs.Tree.Reading
import JavaSyntax.Proofs.Tree.Regular
import JavaSyntax.Proofs.Tree.Script
import JavaSyntax.Proofs.Tree.Seams
import JavaSyntax.Proofs.Tree.Setting
import JavaSyntax.Proofs.Tree.Turns
import JavaSyntax.Proofs.Work
import JavaSyntax.Settings.Basic
import JavaSyntax.Settings.Environment
import JavaSyntax.Settings.Preferences
import JavaSyntax.Source.File
import JavaSyntax.Syntax.Error
import JavaSyntax.Syntax.Lookahead
import JavaSyntax.Syntax.Parser
import JavaSyntax.Syntax.Session
import JavaSyntax.Text.CaseTable
import JavaSyntax.Text.HiddenTable
import JavaSyntax.Text.IdentifierTable
import JavaSyntax.Text.LetterCase
import JavaSyntax.Text.Quoted
import JavaSyntax.Text.RangeTable
import JavaSyntax.Text.SourceMap
import JavaSyntax.Text.Span
import JavaSyntax.Token.Basic
import JavaSyntax.Token.Cursor
import JavaSyntax.Token.Keyword
import JavaSyntax.Token.Kind
import JavaSyntax.Tree.Basic
import JavaSyntax.Tree.Kind
import JavaSyntax.Tree.Operator
import JavaSyntax.Tree.Printer
import JavaSyntax.Tree.Version
import JavaSyntax.Tree.View
import JavaSyntax.Tree.Writer
