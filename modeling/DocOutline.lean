import DocOutline.Disk.Basic
import DocOutline.Grammar.Lowering
import DocOutline.Index.Search
import DocOutline.Index.Symbols
import DocOutline.Json.Access
import DocOutline.Json.Basic
import DocOutline.Json.Printer
import DocOutline.Json.Reader
import DocOutline.Log.Call
import DocOutline.Log.Output
import DocOutline.Number.Binary64
import DocOutline.Outline.Basic
import DocOutline.Outline.Builder
import DocOutline.Outline.Extract
import DocOutline.Outline.View
import DocOutline.Proofs.Disk.Folders
import DocOutline.Proofs.Disk.Paths
import DocOutline.Proofs.Disk.Removal
import DocOutline.Proofs.Disk.Sound
import DocOutline.Proofs.Disk.Surplus
import DocOutline.Proofs.Grammar.Coverage
import DocOutline.Proofs.Grammar.Definitions
import DocOutline.Proofs.Grammar.Fitting
import DocOutline.Proofs.Grammar.Regrouping
import DocOutline.Proofs.Grammar.Slots
import DocOutline.Proofs.Grammar.Survivors
import DocOutline.Proofs.Grammar.Titles
import DocOutline.Proofs.Index.Identifiers
import DocOutline.Proofs.Index.Numbering
import DocOutline.Proofs.Index.OutlineView
import DocOutline.Proofs.Json.LineEnds
import DocOutline.Proofs.Json.Numbers
import DocOutline.Proofs.Json.Strings
import DocOutline.Proofs.Json.Truncated
import DocOutline.Proofs.Outline.Bodies
import DocOutline.Proofs.Outline.CommentRuns
import DocOutline.Proofs.Outline.Containment
import DocOutline.Proofs.Outline.Declarations
import DocOutline.Proofs.Outline.Definitions
import DocOutline.Proofs.Outline.Folds
import DocOutline.Proofs.Outline.Functions
import DocOutline.Proofs.Outline.Headings
import DocOutline.Proofs.Outline.Names
import DocOutline.Proofs.Outline.Nesting
import DocOutline.Proofs.Outline.Order
import DocOutline.Proofs.Outline.Rows
import DocOutline.Proofs.Outline.Shared
import DocOutline.Proofs.Outline.Sources
import DocOutline.Proofs.Outline.Stored
import DocOutline.Proofs.Outline.WellFormed
import DocOutline.Proofs.Store.Agreement
import DocOutline.Proofs.Store.Answers
import DocOutline.Proofs.Store.Deleting
import DocOutline.Proofs.Store.Failures
import DocOutline.Proofs.Store.Histories
import DocOutline.Proofs.Store.Neighbours
import DocOutline.Proofs.Store.Places
import DocOutline.Proofs.Store.Resaving
import DocOutline.Proofs.Store.Respecting
import DocOutline.Proofs.Store.Saving
import DocOutline.Proofs.Store.Unreadable
import DocOutline.Proofs.Symbol.Opening
import DocOutline.Proofs.Syntax.Cursor
import DocOutline.Proofs.Syntax.Navigation
import DocOutline.Proofs.Syntax.Places
import DocOutline.Proofs.Text.LineEnds
import DocOutline.Proofs.Text.Lines
import DocOutline.Proofs.Text.RoundTrip
import DocOutline.Proofs.Text.Span
import DocOutline.Proofs.Tools.Discovery
import DocOutline.Proofs.Tools.Failing
import DocOutline.Proofs.Tools.Indexing
import DocOutline.Proofs.Tools.Lookup
import DocOutline.Proofs.Tools.Outlining
import DocOutline.Proofs.Tools.Ranges
import DocOutline.Proofs.Tools.Ranking
import DocOutline.Proofs.Tools.Reindexing
import DocOutline.Proofs.Tools.Searching
import DocOutline.Proofs.Tools.Skipping
import DocOutline.Proofs.Tools.Sparing
import DocOutline.Proofs.Tools.Unreadable
import DocOutline.Proofs.Tools.Visits
import DocOutline.Proofs.Tools.Workspaces
import DocOutline.Proofs.Walk.Additions
import DocOutline.Proofs.Walk.Adequacy
import DocOutline.Proofs.Walk.Comments
import DocOutline.Proofs.Walk.Derivation
import DocOutline.Proofs.Walk.Isolation
import DocOutline.Proofs.Walk.Outcome
import DocOutline.Proofs.Walk.Reach
import DocOutline.Proofs.Walk.Restoring
import DocOutline.Proofs.Walk.Sealed
import DocOutline.Proofs.Walk.Shelter
import DocOutline.Proofs.Walk.Traversal
import DocOutline.Settings
import DocOutline.Store.Action
import DocOutline.Store.Basic
import DocOutline.Symbol.Basic
import DocOutline.Symbol.Classify
import DocOutline.Syntax.Cursor
import DocOutline.Syntax.Kind
import DocOutline.Text.Basic
import DocOutline.Text.Bytes
import DocOutline.Text.Case
import DocOutline.Text.Glob
import DocOutline.Text.Letter
import DocOutline.Text.Quoted
import DocOutline.Tools.Document
import DocOutline.Tools.Server
import DocOutline.Tools.Workspace
