import Restyle.CommandLine.Failure
import Restyle.CommandLine.Help
import Restyle.CommandLine.Reader
import Restyle.CommandLine.Request
import Restyle.CommandLine.Run
import Restyle.CommandLine.Syntax
import Restyle.CommandLine.Usage
import Restyle.Component.Collection
import Restyle.Component.Naming
import Restyle.Decimal.Binary
import Restyle.Decimal.Shortest
import Restyle.Edit
import Restyle.FileTree
import Restyle.Json.Failure
import Restyle.Json.Number
import Restyle.Json.Reader
import Restyle.Json.Typed
import Restyle.Json.Value
import Restyle.Language
import Restyle.Main
import Restyle.Markup.Scan
import Restyle.Migration.Config
import Restyle.Migration.Error
import Restyle.Migration.Project
import Restyle.Migration.Report
import Restyle.Migration.Run
import Restyle.Path
import Restyle.Program
import Restyle.Project
import Restyle.Proofs.Component.Alone
import Restyle.Proofs.Component.Companion
import Restyle.Proofs.Component.Constructor
import Restyle.Proofs.Component.Definition
import Restyle.Proofs.Component.Naming
import Restyle.Proofs.Component.References
import Restyle.Proofs.Component.Specifiers
import Restyle.Proofs.Component.Synthesis
import Restyle.Proofs.Edit.Acceptance
import Restyle.Proofs.Edit.Forward
import Restyle.Proofs.Edit.Shuffled
import Restyle.Proofs.Edit.Splice
import Restyle.Proofs.FileTree.Overlay
import Restyle.Proofs.Markup.Attributes
import Restyle.Proofs.Markup.Ranges
import Restyle.Proofs.Markup.Reported
import Restyle.Proofs.Migration.Calls
import Restyle.Proofs.Migration.Consistency
import Restyle.Proofs.Migration.DryRun
import Restyle.Proofs.Migration.Early
import Restyle.Proofs.Migration.Interrupted
import Restyle.Proofs.Migration.Modules
import Restyle.Proofs.Migration.Names
import Restyle.Proofs.Migration.Order
import Restyle.Proofs.Migration.Outcome
import Restyle.Proofs.Migration.Outlasting
import Restyle.Proofs.Migration.Repeats
import Restyle.Proofs.Migration.Reporting
import Restyle.Proofs.Migration.Stages
import Restyle.Proofs.Migration.Steps
import Restyle.Proofs.Migration.Styling
import Restyle.Proofs.Migration.Targets
import Restyle.Proofs.Migration.Untouched
import Restyle.Proofs.OrderedTable
import Restyle.Proofs.Path.Ancestors
import Restyle.Proofs.Path.Components
import Restyle.Proofs.Path.Normal
import Restyle.Proofs.Path.Places
import Restyle.Proofs.Project.Listing
import Restyle.Proofs.Project.Order
import Restyle.Proofs.Project.Resolution
import Restyle.Proofs.Project.Root
import Restyle.Proofs.Rewrite.Binding
import Restyle.Proofs.Rewrite.Collision
import Restyle.Proofs.Rewrite.Constants
import Restyle.Proofs.Rewrite.Content
import Restyle.Proofs.Rewrite.Directives
import Restyle.Proofs.Rewrite.Exports
import Restyle.Proofs.Rewrite.Hygiene
import Restyle.Proofs.Rewrite.Outcome
import Restyle.Proofs.Rewrite.Placement
import Restyle.Proofs.Rewrite.Rescan
import Restyle.Proofs.Rewrite.Restyled
import Restyle.Proofs.Rewrite.Scripts
import Restyle.Proofs.Scaffold
import Restyle.Proofs.Script.Constants
import Restyle.Proofs.Script.Expression
import Restyle.Proofs.Script.Imports
import Restyle.Proofs.Script.Openings
import Restyle.Proofs.Script.Prologue
import Restyle.Proofs.Script.Tags
import Restyle.Proofs.Script.Template
import Restyle.Proofs.Sheet.Accepted
import Restyle.Proofs.Sheet.Balance
import Restyle.Proofs.Sheet.Blocks
import Restyle.Proofs.Sheet.Comments
import Restyle.Proofs.Sheet.Glyphs
import Restyle.Proofs.Sheet.Identifiers
import Restyle.Proofs.Sheet.Insertions
import Restyle.Proofs.Sheet.Layout
import Restyle.Proofs.Sheet.Loading
import Restyle.Proofs.Sheet.Masked
import Restyle.Proofs.Sheet.Printed
import Restyle.Proofs.Sheet.ReadBack
import Restyle.Proofs.Sheet.Registered
import Restyle.Proofs.Sheet.Selectors
import Restyle.Proofs.Sheet.Sequence
import Restyle.Proofs.Sheet.Serialized
import Restyle.Proofs.Sheet.Splitting
import Restyle.Proofs.Sheet.Union
import Restyle.Proofs.Sheet.Written
import Restyle.Proofs.Syntax.Answers
import Restyle.Proofs.Syntax.Attempts
import Restyle.Proofs.Syntax.Faults
import Restyle.Proofs.Syntax.Leaving
import Restyle.Proofs.Syntax.Moved
import Restyle.Proofs.Syntax.Order
import Restyle.Proofs.Syntax.Reading
import Restyle.Proofs.Syntax.Recovered
import Restyle.Proofs.Syntax.Repaired
import Restyle.Proofs.Syntax.Tokens
import Restyle.Proofs.Syntax.Trivia
import Restyle.Proofs.Text.Blanks
import Restyle.Proofs.Text.Boundaries
import Restyle.Proofs.Text.ByteOrder
import Restyle.Proofs.Text.Capitals
import Restyle.Proofs.Text.Cut
import Restyle.Proofs.Text.IdentifierTable
import Restyle.Proofs.Text.Identifiers
import Restyle.Proofs.Workspace.Calls
import Restyle.Proofs.Workspace.Continuation
import Restyle.Proofs.Workspace.Journal
import Restyle.Proofs.Workspace.Task
import Restyle.Rewrite
import Restyle.Scaffold
import Restyle.Script.Conventions
import Restyle.Script.Grammar
import Restyle.Script.Lexeme
import Restyle.Sheet.Grammar
import Restyle.Sheet.Lexeme
import Restyle.Sheet.Load
import Restyle.Sheet.Resolved
import Restyle.Sheet.Selector
import Restyle.Sheet.Table
import Restyle.Shell.Lexeme
import Restyle.Shell.Machine
import Restyle.Shell.Match
import Restyle.Shell.Reader
import Restyle.Shell.Run
import Restyle.Shell.Syntax
import Restyle.Shell.Utility
import Restyle.Syntax.Fault
import Restyle.Syntax.Pattern
import Restyle.Syntax.Reader
import Restyle.Syntax.Recovery
import Restyle.Syntax.Tree
import Restyle.Text
import Restyle.Text.Account
import Restyle.Text.Case
import Restyle.Text.CaseTable
import Restyle.Text.CharacterTable
import Restyle.Text.Similarity
import Restyle.Text.Utf8
import Restyle.Tool
import Restyle.Tool.PackageManager
import Restyle.Tool.Repository
import Restyle.Workspace
