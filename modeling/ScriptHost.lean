import ScriptHost.Analysis.Declaration
import ScriptHost.Analysis.Engine
import ScriptHost.Analysis.SyntaxEngine
import ScriptHost.CommandLine.Arguments
import ScriptHost.CommandLine.Report
import ScriptHost.CommandLine.Run
import ScriptHost.CommandLine.Snapshot
import ScriptHost.Config.Data
import ScriptHost.Config.Error
import ScriptHost.Config.Load
import ScriptHost.Config.Tables
import ScriptHost.Config.Toml
import ScriptHost.Disk
import ScriptHost.Exclusion
import ScriptHost.Glob.Meaning
import ScriptHost.Glob.Syntax
import ScriptHost.Host.Basic
import ScriptHost.Host.Closure
import ScriptHost.Host.Commit
import ScriptHost.Host.Files
import ScriptHost.Host.Observation
import ScriptHost.Host.Query
import ScriptHost.Host.Watch
import ScriptHost.Ignore.Rules
import ScriptHost.Ignore.Walk
import ScriptHost.Imports.Graph
import ScriptHost.Imports.Pattern
import ScriptHost.Imports.Scan
import ScriptHost.Json.Basic
import ScriptHost.Json.Reader
import ScriptHost.Load
import ScriptHost.Main
import ScriptHost.Merge.Prelude
import ScriptHost.Path.Basic
import ScriptHost.Path.Script
import ScriptHost.Pattern.Automaton
import ScriptHost.Regex.Meaning
import ScriptHost.Regex.Reader
import ScriptHost.Regex.Syntax
import ScriptHost.Resolution.Basic
import ScriptHost.Resolution.Lookup
import ScriptHost.Resolution.Memo
import ScriptHost.Settings
import ScriptHost.Store
import ScriptHost.Syntax.Lexeme
import ScriptHost.Syntax.Node
import ScriptHost.Syntax.Rule
import ScriptHost.Syntax.Script.Declaration
import ScriptHost.Syntax.Script.Expression
import ScriptHost.Syntax.Script.Grammar
import ScriptHost.Syntax.Script.Markup
import ScriptHost.Syntax.Script.Statement
import ScriptHost.Syntax.Script.Symbol
import ScriptHost.Syntax.Script.Tree
import ScriptHost.Syntax.Script.Type
import ScriptHost.Table
import ScriptHost.Text.Basic
import ScriptHost.Text.Digits
import ScriptHost.Text.Span
import ScriptHost.Unicode.Binary
import ScriptHost.Unicode.CaseFold
import ScriptHost.Unicode.Category
import ScriptHost.Unicode.CharSet
import ScriptHost.Unicode.Property
import ScriptHost.Unicode.Script
import ScriptHost.Proofs.Host.Action
import ScriptHost.Proofs.Path.Ending
import ScriptHost.Proofs.Path.Canonical
import ScriptHost.Proofs.Resolution.Lookup
import ScriptHost.Proofs.Resolution.Memo
import ScriptHost.Proofs.Host.Quiet
import ScriptHost.Proofs.Analysis.Reading
import ScriptHost.Proofs.Host.Run
import ScriptHost.Proofs.Host.Step
import ScriptHost.Proofs.Host.Record
import ScriptHost.Proofs.Host.Incremental
import ScriptHost.Proofs.Host.Commit
import ScriptHost.Proofs.Host.Itinerary
import ScriptHost.Proofs.Imports.Graph
import ScriptHost.Proofs.Host.Closure
import ScriptHost.Proofs.Host.ClosureGraph
import ScriptHost.Proofs.Host.Termination
import ScriptHost.Proofs.Host.Endless
import ScriptHost.Proofs.Host.Watch
import ScriptHost.Proofs.Host.Merge
import ScriptHost.Proofs.Host.Sync
import ScriptHost.Proofs.Host.Storing
import ScriptHost.Proofs.Host.Effect
import ScriptHost.Proofs.Host.Version
import ScriptHost.Proofs.Host.Failure
import ScriptHost.Proofs.Host.Address
import ScriptHost.Proofs.Host.Adding
import ScriptHost.Proofs.Host.Kept
import ScriptHost.Proofs.Host.Outcome
import ScriptHost.Proofs.Path.Spelling
import ScriptHost.Proofs.Resolution.History
import ScriptHost.Proofs.Resolution.Transparency
import ScriptHost.Proofs.Resolution.Blind
import ScriptHost.Proofs.Host.Exclusion
import ScriptHost.Proofs.Host.Lockstep
import ScriptHost.Proofs.Path.Stem
import ScriptHost.Proofs.Host.Pair
import ScriptHost.Proofs.Host.Absorption
import ScriptHost.Proofs.Host.Convergence
import ScriptHost.Proofs.CommandLine.Indexing
import ScriptHost.Proofs.Syntax.Cursor
import ScriptHost.Proofs.Syntax.Machine
import ScriptHost.Proofs.Syntax.Lead
import ScriptHost.Proofs.Syntax.Place
import ScriptHost.Proofs.Syntax.Extent
import ScriptHost.Proofs.Syntax.Tree
import ScriptHost.Proofs.Syntax.Lines
import ScriptHost.Proofs.Syntax.Opening
import ScriptHost.Proofs.Merge.ReadBack
import ScriptHost.Proofs.Resolution.Candidates
import ScriptHost.Proofs.Host.Addition
import ScriptHost.Proofs.Host.Repetition
import ScriptHost.Proofs.Path.Way
import ScriptHost.Proofs.Resolution.Origin
import ScriptHost.Proofs.Host.Reexpansion
import ScriptHost.Proofs.Path.Normal
import ScriptHost.Proofs.Host.Dialect
import ScriptHost.Proofs.Host.OwnText
import ScriptHost.Proofs.Resolution.Tidy
import ScriptHost.Proofs.Host.Options
import ScriptHost.Proofs.Host.Fetching
import ScriptHost.Proofs.Host.Refresh
import ScriptHost.Proofs.Path.Beside
import ScriptHost.Proofs.Host.Listing
import ScriptHost.Proofs.Host.Namesakes
import ScriptHost.Proofs.Pattern.Machine
import ScriptHost.Proofs.Pattern.Union
import ScriptHost.Proofs.Analysis.Answers
import ScriptHost.Proofs.Analysis.Agreement
import ScriptHost.Proofs.Analysis.Rereading
import ScriptHost.Proofs.Syntax.Nesting
import ScriptHost.Proofs.Syntax.Layout
import ScriptHost.Proofs.Syntax.TidyTree
import ScriptHost.Proofs.Analysis.Occurrences
import ScriptHost.Proofs.Host.References
import ScriptHost.Proofs.Imports.Comments
import ScriptHost.Proofs.Syntax.Derivation
import ScriptHost.Proofs.Syntax.Construct
import ScriptHost.Proofs.Syntax.Mark
import ScriptHost.Proofs.Syntax.Closing
import ScriptHost.Proofs.Syntax.First
import ScriptHost.Proofs.Syntax.Body
import ScriptHost.Proofs.Analysis.Declared
import ScriptHost.Proofs.Analysis.Heritage
import ScriptHost.Proofs.Analysis.Header
import ScriptHost.Proofs.Imports.History
import ScriptHost.Proofs.Store.Numbers
import ScriptHost.Proofs.Analysis.PastEnd
import ScriptHost.Proofs.Syntax.Exported
import ScriptHost.Proofs.Merge.Carried
import ScriptHost.Proofs.Path.Extension
import ScriptHost.Proofs.Imports.Finds
import ScriptHost.Proofs.Analysis.Collecting
import ScriptHost.Proofs.Analysis.Naming
import ScriptHost.Proofs.Imports.Quotes
import ScriptHost.Proofs.Host.Shim
import ScriptHost.Proofs.Path.Replacing
