import LayeredConfig.Calendar
import LayeredConfig.Codec.Basic
import LayeredConfig.Codec.Formats
import LayeredConfig.Codec.Registry
import LayeredConfig.CommandLine.Arguments
import LayeredConfig.CommandLine.Run
import LayeredConfig.Commented.Chunks
import LayeredConfig.Commented.Document
import LayeredConfig.Commented.ValueForm
import LayeredConfig.Config.Basic
import LayeredConfig.Config.Calls
import LayeredConfig.Config.Output
import LayeredConfig.Documentation.Basic
import LayeredConfig.Documentation.Documented
import LayeredConfig.Documentation.Reader
import LayeredConfig.Entries
import LayeredConfig.Expansion.Directive
import LayeredConfig.Expansion.Expand
import LayeredConfig.Expansion.Substitute
import LayeredConfig.Fault
import LayeredConfig.Files.Disk
import LayeredConfig.Files.FileSystem
import LayeredConfig.Files.Group
import LayeredConfig.Files.Memory
import LayeredConfig.Json.Basic
import LayeredConfig.Json.Reader
import LayeredConfig.Json.Token
import LayeredConfig.Json.Writer
import LayeredConfig.Layout.Standard
import LayeredConfig.Log
import LayeredConfig.Main
import LayeredConfig.Merge
import LayeredConfig.Number.Binary64
import LayeredConfig.Number.Decimal
import LayeredConfig.Number.Integer
import LayeredConfig.Number.Lenient
import LayeredConfig.Options.Any
import LayeredConfig.Options.Config
import LayeredConfig.Options.Offered
import LayeredConfig.Options.Output
import LayeredConfig.Options.Query
import LayeredConfig.Options.Source
import LayeredConfig.Order.Natural
import LayeredConfig.Order.NumericFirst
import LayeredConfig.Order.RecordSorter
import LayeredConfig.Origin
import LayeredConfig.Path.Clean
import LayeredConfig.Path.Glob
import LayeredConfig.Proofs.Config.History
import LayeredConfig.Proofs.Config.Turns
import LayeredConfig.Proofs.Entries
import LayeredConfig.Proofs.Merge.Algebra
import LayeredConfig.Proofs.Merge.Conflict
import LayeredConfig.Proofs.Merge.Equations
import LayeredConfig.Proofs.Merge.Precedence
import LayeredConfig.Proofs.Options.Refusals
import LayeredConfig.Proofs.Tree.Layers
import LayeredConfig.Record.Extract
import LayeredConfig.Record.Fit
import LayeredConfig.Record.Flatten
import LayeredConfig.Record.Hook
import LayeredConfig.Record.Keys
import LayeredConfig.Record.Prepare
import LayeredConfig.Record.Schema
import LayeredConfig.Scalar
import LayeredConfig.Shape
import LayeredConfig.Source.Buffer
import LayeredConfig.Source.Files
import LayeredConfig.Source.Record
import LayeredConfig.Source.Value
import LayeredConfig.Text.CaseTables
import LayeredConfig.Text.Casing
import LayeredConfig.Text.ClassTables
import LayeredConfig.Text.Classes
import LayeredConfig.Text.Encoding
import LayeredConfig.Text.Quoted
import LayeredConfig.Text.Split
import LayeredConfig.Text.Trim
import LayeredConfig.Text.UnprintableTable
import LayeredConfig.Text.Utf8
import LayeredConfig.Toml.Basic
import LayeredConfig.Toml.Document
import LayeredConfig.Toml.Reader
import LayeredConfig.Toml.Scalar
import LayeredConfig.Toml.Text
import LayeredConfig.Tree.Basic
import LayeredConfig.Tree.Fetch
import LayeredConfig.Tree.Secret
import LayeredConfig.Value.Basic
import LayeredConfig.Value.OfTree
import LayeredConfig.Value.Shown
import LayeredConfig.Yaml.Block
import LayeredConfig.Yaml.Document
import LayeredConfig.Yaml.Merged
import LayeredConfig.Yaml.Node
import LayeredConfig.Yaml.Page
import LayeredConfig.Yaml.Plain
import LayeredConfig.Yaml.Position
import LayeredConfig.Yaml.Properties
import LayeredConfig.Yaml.Quoted
import LayeredConfig.Yaml.ReadFault
import LayeredConfig.Yaml.Resolve
import LayeredConfig.Yaml.ScalarStyle
import LayeredConfig.Yaml.ScalarWriter
import LayeredConfig.Yaml.Scan
import LayeredConfig.Yaml.TaggedScalar
import LayeredConfig.Yaml.Token
import LayeredConfig.Yaml.Writer
import LayeredConfig.Proofs.Expansion.Rewrite
import LayeredConfig.Proofs.Expansion.Passes
import LayeredConfig.Proofs.Expansion.Convergence
import LayeredConfig.Proofs.Expansion.Parts
import LayeredConfig.Proofs.Secrets.Marking
import LayeredConfig.Proofs.Secrets.Spelling
import LayeredConfig.Proofs.Secrets.Printing
import LayeredConfig.Proofs.Secrets.Defaults
import LayeredConfig.Proofs.Order.Natural
import LayeredConfig.Proofs.Order.Sorting
import LayeredConfig.Proofs.Options.Sources
import LayeredConfig.Proofs.Config.Declaration
import LayeredConfig.Proofs.Config.Producers
import LayeredConfig.Proofs.Number.Digits
import LayeredConfig.Proofs.Number.Numeral
import LayeredConfig.Proofs.Config.DefaultsOnly
import LayeredConfig.Proofs.Json.RoundTrip
import LayeredConfig.Proofs.Commented.Comments
import LayeredConfig.Proofs.Files.Failures
import LayeredConfig.Proofs.Record.RoundTrip
import LayeredConfig.Proofs.Record.Transparency
import LayeredConfig.Proofs.Record.Exactness
import LayeredConfig.Proofs.Record.UnusedKeys
import LayeredConfig.Proofs.Order.NumbersFirst
import LayeredConfig.Proofs.Documentation.Reordering
import LayeredConfig.Proofs.Yaml.Position
import LayeredConfig.Proofs.Commented.Keys
import LayeredConfig.Proofs.Commented.SingleLines
import LayeredConfig.Proofs.Yaml.Pair
import LayeredConfig.Proofs.Yaml.Block
import LayeredConfig.Proofs.Commented.Blocks
import LayeredConfig.Proofs.Commented.Continued
import LayeredConfig.Proofs.Commented.Announced
import LayeredConfig.Proofs.Number.Pointed
import LayeredConfig.Proofs.Yaml.Fractions
import LayeredConfig.Proofs.Expansion.Substitution
import LayeredConfig.Proofs.Expansion.Leaves
import LayeredConfig.Proofs.Expansion.Labels
import LayeredConfig.Proofs.Secrets.Projection
import LayeredConfig.Proofs.Config.Queries
import LayeredConfig.Proofs.Tree.Lossless
import LayeredConfig.Proofs.Record.SharedKeys
import LayeredConfig.Proofs.Order.Stability
import LayeredConfig.Proofs.Config.Strictness
import LayeredConfig.Proofs.Config.SingleValue
import LayeredConfig.Proofs.Documentation.Nodes
import LayeredConfig.Proofs.Documentation.Merging
import LayeredConfig.Proofs.Tree.Steps
import LayeredConfig.Proofs.Documentation.Presets
import LayeredConfig.Proofs.Path.Segments
import LayeredConfig.Proofs.Path.Names
import LayeredConfig.Proofs.Path.Inside
import LayeredConfig.Proofs.Files.Memory
import LayeredConfig.Proofs.Files.Enumeration
import LayeredConfig.Proofs.Files.Globbing
import LayeredConfig.Proofs.Files.Halting
import LayeredConfig.Proofs.Files.Unreadable
import LayeredConfig.Proofs.Commented.Widths
import LayeredConfig.Proofs.Commented.Extent
