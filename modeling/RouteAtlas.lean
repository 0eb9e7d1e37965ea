import RouteAtlas.Code.Comment
import RouteAtlas.Code.Dialect
import RouteAtlas.Code.Module
import RouteAtlas.Code.Node
import RouteAtlas.Code.Phrase.Argument
import RouteAtlas.Code.Phrase.Binding
import RouteAtlas.Code.Phrase.Expression
import RouteAtlas.Code.Phrase.Function
import RouteAtlas.Code.Phrase.Markup
import RouteAtlas.Code.Phrase.Statement
import RouteAtlas.Code.Phrase.Template
import RouteAtlas.Code.Phrase.Type
import RouteAtlas.Code.Reading
import RouteAtlas.Code.Token
import RouteAtlas.Code.Walk
import RouteAtlas.CommandLine.Arguments
import RouteAtlas.CommandLine.Run
import RouteAtlas.Discovery
import RouteAtlas.Doc
import RouteAtlas.Failure
import RouteAtlas.FilePath
import RouteAtlas.FileTree.Basic
import RouteAtlas.FileTree.Change
import RouteAtlas.Handler.Declaration
import RouteAtlas.Handler.Signature
import RouteAtlas.Journal
import RouteAtlas.Json
import RouteAtlas.Location
import RouteAtlas.Main
import RouteAtlas.Metrics
import RouteAtlas.Route
import RouteAtlas.Route.Analysis
import RouteAtlas.Route.Text
import RouteAtlas.Scan
import RouteAtlas.Schema
import RouteAtlas.Session
import RouteAtlas.Settings
import RouteAtlas.Template
import RouteAtlas.Text.Blank
import RouteAtlas.Text.Cut
import RouteAtlas.Text.Decoded
import RouteAtlas.Text.Fixed
import RouteAtlas.Text.Numeral
import RouteAtlas.Text.Quoted
import RouteAtlas.Text.Word
import RouteAtlas.Typing.Inference
import RouteAtlas.Typing.Scope
import RouteAtlas.Typing.TypeText
import RouteAtlas.Proofs.Each
import RouteAtlas.Proofs.Recording
import RouteAtlas.Proofs.Route.Analysis
import RouteAtlas.Proofs.Discovery
import RouteAtlas.Proofs.Scan.OneByOne
import RouteAtlas.Proofs.Handler.Exports
import RouteAtlas.Proofs.Route.Table
import RouteAtlas.Proofs.Typing.Context
import RouteAtlas.Proofs.Typing.Nesting
import RouteAtlas.Proofs.Typing.Runs
import RouteAtlas.Proofs.Typing.CycleSafety
import RouteAtlas.Proofs.Typing.Agreement
import RouteAtlas.Proofs.Typing.Shadowing
import RouteAtlas.Proofs.Typing.Rules
import RouteAtlas.Proofs.Typing.Asking
import RouteAtlas.Proofs.Typing.Locality
import RouteAtlas.Proofs.Scan.Dependence
import RouteAtlas.Proofs.Session.LastGood
import RouteAtlas.Proofs.Work
import RouteAtlas.Proofs.Text.Cut
import RouteAtlas.Proofs.FilePath
import RouteAtlas.Proofs.FileTree.Plain
import RouteAtlas.Proofs.FileTree.Change
import RouteAtlas.Proofs.Discovery.Found
import RouteAtlas.Proofs.Session.Freshness
import RouteAtlas.Proofs.Text.Balance
import RouteAtlas.Proofs.Typing.Union
import RouteAtlas.Proofs.Typing.WellFormed
import RouteAtlas.Proofs.Typing.Rendering
import RouteAtlas.Proofs.FileTree.Growth
import RouteAtlas.Proofs.FileTree.Making
import RouteAtlas.Proofs.FileTree.Replace
import RouteAtlas.Proofs.FileTree.Deliver
import RouteAtlas.Proofs.Session.Artifact
import RouteAtlas.Proofs.FileTree.Entries
import RouteAtlas.Proofs.Metrics
import RouteAtlas.Proofs.Scan.Together
import RouteAtlas.Proofs.Scan.Stepwise
import RouteAtlas.Proofs.Session.Overlap
import RouteAtlas.Proofs.Location
import RouteAtlas.Proofs.Template
import RouteAtlas.Proofs.Discovery.Placement
import RouteAtlas.Proofs.Location.Shape
import RouteAtlas.Proofs.Location.Below
import RouteAtlas.Proofs.Recording.Parallel
import RouteAtlas.Proofs.Discovery.Moved
import RouteAtlas.Proofs.Scan.Relocation
import RouteAtlas.Proofs.Text.Blank
import RouteAtlas.Proofs.Doc.RoundTrip
import RouteAtlas.Proofs.Metrics.Samples
import RouteAtlas.Proofs.Route.Methods
import RouteAtlas.Proofs.Typing.Limit
import RouteAtlas.Proofs.Route.Depth
import RouteAtlas.Proofs.Code.Woven
import RouteAtlas.Proofs.Typing.Resemblance
import RouteAtlas.Proofs.Typing.Alike
import RouteAtlas.Proofs.Typing.Counterpart
import RouteAtlas.Proofs.Typing.Bindings
import RouteAtlas.Proofs.Typing.Assigned
import RouteAtlas.Proofs.Handler.Matching
import RouteAtlas.Proofs.Handler.Forms
import RouteAtlas.Proofs.Handler.Returned
import RouteAtlas.Proofs.Route.Signature
import RouteAtlas.Proofs.Route.Order
import RouteAtlas.Proofs.Route.Comments
import RouteAtlas.Proofs.Route.Forms
import RouteAtlas.Proofs.Scan.Silent
import RouteAtlas.Proofs.Scan.Unroutable
import RouteAtlas.Proofs.Session.Accounting
import RouteAtlas.Proofs.Scan.Reconciled
import RouteAtlas.Proofs.Schema
import RouteAtlas.Proofs.CommandLine
import RouteAtlas.Proofs.Json.Grammar
import RouteAtlas.Proofs.Json.Reading
import RouteAtlas.Proofs.Json.Writing
import RouteAtlas.Proofs.Route.Text
import RouteAtlas.Proofs.Template.Expansion
import RouteAtlas.Proofs.Template.Count
import RouteAtlas.Proofs.Location.Search
import RouteAtlas.Proofs.Location.Components
import RouteAtlas.Proofs.Handler.Wrapped
import RouteAtlas.Proofs.Route.Wrapped
import RouteAtlas.Proofs.Discovery.Exact
import RouteAtlas.Proofs.Doc.Sections
import RouteAtlas.Proofs.Typing.Freed
import RouteAtlas.Proofs.Typing.Members
import RouteAtlas.Proofs.Typing.Waiting
import RouteAtlas.Proofs.Typing.Choices
import RouteAtlas.Proofs.Typing.Indexing
import RouteAtlas.Proofs.Typing.Stated
import RouteAtlas.Proofs.Code.Order
import RouteAtlas.Proofs.Handler.Grown
import RouteAtlas.Proofs.Handler.Responses
import RouteAtlas.Proofs.Handler.Queries
import RouteAtlas.Proofs.Location.Normal
import RouteAtlas.Proofs.Route.Clauses
import RouteAtlas.Proofs.Template.Bracketed
import RouteAtlas.Proofs.Code.Ways
import RouteAtlas.Proofs.Code.Walks
import RouteAtlas.Proofs.Code.OwnReturns
import RouteAtlas.Proofs.Doc.Partition
import RouteAtlas.Proofs.Template.Owner
