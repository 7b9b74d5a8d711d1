import MetadataSearch.Fields
import MetadataSearch.Calendar
import MetadataSearch.Instant
import MetadataSearch.Instant.Text
import MetadataSearch.Binary64
import MetadataSearch.Decimal
import MetadataSearch.Numeral
import MetadataSearch.Text.Ascii
import MetadataSearch.Text.Blank
import MetadataSearch.Text.Occurrence
import MetadataSearch.Text.CharRanges
import MetadataSearch.Text.Alphabetic
import MetadataSearch.Text.Numeric
import MetadataSearch.Text.LowerCase.Ranges
import MetadataSearch.Text.LowerCase
import MetadataSearch.Text.Utf8
import MetadataSearch.Json
import MetadataSearch.Json.Token
import MetadataSearch.Json.Reader
import MetadataSearch.Json.Indented
import MetadataSearch.Value
import MetadataSearch.RawValue
import MetadataSearch.Item
import MetadataSearch.Listing
import MetadataSearch.Path
import MetadataSearch.ContentType
import MetadataSearch.Kind
import MetadataSearch.Predicate
import MetadataSearch.Query.Glob
import MetadataSearch.Query.Wildcard
import MetadataSearch.Query.Error
import MetadataSearch.Query.Filter
import MetadataSearch.Query.Lexer
import MetadataSearch.Query.Parser
import MetadataSearch.FileTree
import MetadataSearch.FileTree.Resolution
import MetadataSearch.FileTree.Containment
import MetadataSearch.FileTree.Edit
import MetadataSearch.FileTree.EditByPath
import MetadataSearch.FileTree.Snapshot
import MetadataSearch.FileTree.Visible
import MetadataSearch.Engine
import MetadataSearch.Engine.Stored
import MetadataSearch.Engine.Files
import MetadataSearch.Engine.Index
import MetadataSearch.Search
import MetadataSearch.Engine.OnDemand
import MetadataSearch.Engine.TextOnDemand
import MetadataSearch.Tool
import MetadataSearch.Tool.Error
import MetadataSearch.Tool.Arguments
import MetadataSearch.Tool.Limit
import MetadataSearch.Tool.Answer
import MetadataSearch.Toolbox
import MetadataSearch.Settings
import MetadataSearch.Catalog
import MetadataSearch.Session
import MetadataSearch.CommandLine.Options
import MetadataSearch.CommandLine.Invocation
import MetadataSearch.CommandLine
import MetadataSearch.Main
import MetadataSearch.Proofs.Outcome
import MetadataSearch.Proofs.Fields.Lookup
import MetadataSearch.Proofs.Calendar
import MetadataSearch.Proofs.Numeral.Digits
import MetadataSearch.Proofs.Text.ByteOrder
import MetadataSearch.Proofs.Text.Trimming
import MetadataSearch.Proofs.Numeral.Rounding
import MetadataSearch.Proofs.Numeral.ExactValues
import MetadataSearch.Proofs.Instant.Offsets
import MetadataSearch.Proofs.Instant.Readers
import MetadataSearch.Proofs.Instant.DateCharacters
import MetadataSearch.Proofs.Instant.RoundTrip
import MetadataSearch.Proofs.Json.Tokens
import MetadataSearch.Proofs.Json.Reading
import MetadataSearch.Proofs.Value.RoundTrip
import MetadataSearch.Proofs.Value.Corrupted
import MetadataSearch.Proofs.Value.Classified
import MetadataSearch.Proofs.Value.EngineNumbers
import MetadataSearch.Proofs.FileTree.Route
import MetadataSearch.Proofs.FileTree.Canonical
import MetadataSearch.Proofs.FileTree.OwnPath
import MetadataSearch.Proofs.Engine.FileItems
import MetadataSearch.Proofs.Search.Collecting
import MetadataSearch.Proofs.Search.FileResults
import MetadataSearch.Proofs.Query.Compiling
import MetadataSearch.Proofs.Query.Lexing
import MetadataSearch.Proofs.Query.Grammar
import MetadataSearch.Proofs.Query.Parsing
import MetadataSearch.Proofs.Query.NaturalText
import MetadataSearch.Proofs.Query.ModifiedSince
import MetadataSearch.Proofs.Query.Elements
import MetadataSearch.Proofs.Query.Rendering
import MetadataSearch.Proofs.Query.TimeOffsets
import MetadataSearch.Proofs.Tool.ResultObjects
import MetadataSearch.Proofs.Tool.AnswerText
import MetadataSearch.Proofs.Settings.Roots
import MetadataSearch.Proofs.Toolbox.Vetting
import MetadataSearch.Proofs.Toolbox.Fence
import MetadataSearch.Proofs.Toolbox.Limits
import MetadataSearch.Proofs.Toolbox.RecentFiles
import MetadataSearch.Proofs.Toolbox.WrittenInstants
import MetadataSearch.Proofs.Instant.OffsetDateTime
import MetadataSearch.Proofs.Toolbox.WrittenQueries
import MetadataSearch.Proofs.Listing.Printed
import MetadataSearch.Proofs.Listing.Reading
import MetadataSearch.Proofs.FileTree.EntryPaths
import MetadataSearch.Proofs.FileTree.ShownFiles
import MetadataSearch.Proofs.FileTree.Visits
import MetadataSearch.Proofs.Engine.FileSearch
import MetadataSearch.Proofs.Engine.UnreadText
import MetadataSearch.Proofs.FileTree.CanonicalScopes
import MetadataSearch.Proofs.Engine.RepeatedFiles
import MetadataSearch.Proofs.Toolbox.FoundMetadata
import MetadataSearch.Proofs.Engine.FileSources
import MetadataSearch.Proofs.Toolbox.FileAnswers
import MetadataSearch.Proofs.Toolbox.ListedSince
import MetadataSearch.Proofs.Text.Encoding
import MetadataSearch.Proofs.Path.Texts
import MetadataSearch.Proofs.Text.Occurrences
import MetadataSearch.Proofs.Engine.TextSearch
import MetadataSearch.Proofs.Query.OfKind
import MetadataSearch.Proofs.FileTree.Spellings
import MetadataSearch.Proofs.Toolbox.Policies
import MetadataSearch.Proofs.Engine.IndexSearch
import MetadataSearch.Proofs.Query.WildcardMeaning
import MetadataSearch.Proofs.FileTree.Settling
import MetadataSearch.Proofs.Text.FinalSigma
import MetadataSearch.Proofs.Query.LiteralText
import MetadataSearch.Proofs.CommandLine.Environment
import MetadataSearch.Proofs.Query.Leaves
import MetadataSearch.Proofs.Item.Changes
import MetadataSearch.Proofs.Query.Offsets
import MetadataSearch.Proofs.Query.Heights
