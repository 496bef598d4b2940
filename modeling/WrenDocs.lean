import WrenDocs.Cursor
import WrenDocs.Main
import WrenDocs.Proofs.Grammar
import WrenDocs.Proofs.Lexeme.Attribute
import WrenDocs.Proofs.Lexeme.Backtracking
import WrenDocs.Proofs.Lexeme.Delimited
import WrenDocs.Proofs.Lexeme.Escape
import WrenDocs.Proofs.Lexeme.Number
import WrenDocs.Proofs.Lexeme.Run
import WrenDocs.Proofs.Pattern
import WrenDocs.Proofs.Steps
import WrenDocs.Proofs.Cursor
import WrenDocs.Proofs.Coverage
import WrenDocs.Proofs.Remainder
import WrenDocs.Proofs.MatchEnd
import WrenDocs.Proofs.Extent
import WrenDocs.Proofs.TextEnd
import WrenDocs.Proofs.RuleOrder
import WrenDocs.Proofs.Labels
import WrenDocs.Proofs.ModeStack
import WrenDocs.Proofs.Lookahead
import WrenDocs.Proofs.Ascii
import WrenDocs.Proofs.Errors
import WrenDocs.Proofs.Stretch
import WrenDocs.Proofs.CommentDepth
import WrenDocs.Proofs.StringEnd
import WrenDocs.Proofs.MarkupEnd
import WrenDocs.Proofs.CommentOpener
import WrenDocs.Proofs.Names
import WrenDocs.Proofs.Nesting.Leads
import WrenDocs.Proofs.Nesting.Syntax
import WrenDocs.Proofs.Nesting.Balance
import WrenDocs.Proofs.Nesting.Plain
import WrenDocs.Proofs.Nesting.Bracket
import WrenDocs.Proofs.Merging
import WrenDocs.Proofs.Coalescing
import WrenDocs.Proofs.Split
import WrenDocs.Proofs.Html.Entity
import WrenDocs.Proofs.Html.Slices
import WrenDocs.Proofs.Html.Replace
import WrenDocs.Proofs.Html.Markup
import WrenDocs.Proofs.Html.Decode
import WrenDocs.Proofs.Toml.Reader
import WrenDocs.Proofs.Reading
import WrenDocs.Proofs.Json
import WrenDocs.Proofs.Toml.Escape
import WrenDocs.Proofs.Toml.Multiline
import WrenDocs.Proofs.Toml.Quoted
import WrenDocs.Proofs.Toml.Key
import WrenDocs.Proofs.Toml.Setting
import WrenDocs.Proofs.Toml.Lines
import WrenDocs.Proofs.Toml.Tables
import WrenDocs.Proofs.Toml.Distinct
import WrenDocs.Proofs.Lookup
import WrenDocs.Proofs.Config.Read
import WrenDocs.Proofs.Config.Suffixes
import WrenDocs.Proofs.Config.RoundTrip
import WrenDocs.Proofs.Config.Defaults
import WrenDocs.Proofs.Config.Warnings
import WrenDocs.Proofs.Path
import WrenDocs.Proofs.FileName
import WrenDocs.Proofs.Query
import WrenDocs.Proofs.Language
import WrenDocs.Proofs.Registry
import WrenDocs.Proofs.PathLookup
import WrenDocs.Proofs.FileTree
import WrenDocs.Proofs.Relisted
import WrenDocs.Proofs.Listing
import WrenDocs.Proofs.Wildcard
import WrenDocs.Proofs.Glob
import WrenDocs.Proofs.Collect.Sources
import WrenDocs.Proofs.Collect.Found
import WrenDocs.Proofs.Collect.Spelling
import WrenDocs.Proofs.Command.Arguments
import WrenDocs.Proofs.Command.Options
import WrenDocs.Proofs.Command.Resolved
import WrenDocs.Proofs.Command.Highlight
import WrenDocs.Proofs.Command.Label
import WrenDocs.Proofs.Command.Document
import WrenDocs.Proofs.Command.Rendered
