import CodeSmell.Analysis
import CodeSmell.CommandLine.Flags
import CodeSmell.CommandLine.Polling
import CodeSmell.CommandLine.Run
import CodeSmell.Examination
import CodeSmell.Fields
import CodeSmell.Files.Collection
import CodeSmell.Files.Disk
import CodeSmell.Files.Path
import CodeSmell.Groups
import CodeSmell.Main
import CodeSmell.Number.Floating
import CodeSmell.Number.Integer
import CodeSmell.Number.Shortest
import CodeSmell.Pattern.CaseFolding
import CodeSmell.Pattern.GeneralCategory
import CodeSmell.Pattern.Glob
import CodeSmell.Pattern.Property
import CodeSmell.Pattern.Reduction
import CodeSmell.Pattern.Regex
import CodeSmell.Pattern.RegexReader
import CodeSmell.Pattern.Script
import CodeSmell.Proofs.Completion
import CodeSmell.Proofs.Concatenation
import CodeSmell.Proofs.Batches
import CodeSmell.Proofs.Cursor
import CodeSmell.Proofs.Descent
import CodeSmell.Proofs.DirectoryExclusion
import CodeSmell.Proofs.Encoding
import CodeSmell.Proofs.Envy
import CodeSmell.Proofs.Fields
import CodeSmell.Proofs.Groups
import CodeSmell.Proofs.Histories
import CodeSmell.Proofs.InstanceVariables
import CodeSmell.Proofs.Leniency
import CodeSmell.Proofs.Lines
import CodeSmell.Proofs.MemberOrder
import CodeSmell.Proofs.MethodCalls
import CodeSmell.Proofs.NearestOverride
import CodeSmell.Proofs.Nesting
import CodeSmell.Proofs.NumericSettings
import CodeSmell.Proofs.ParallelAnalysis
import CodeSmell.Proofs.Parts
import CodeSmell.Proofs.QualityScore
import CodeSmell.Proofs.Quotation
import CodeSmell.Proofs.ReadAtoms
import CodeSmell.Proofs.ReadTags
import CodeSmell.Proofs.ReaderSteps
import CodeSmell.Proofs.Readings
import CodeSmell.Proofs.Relining
import CodeSmell.Proofs.RepeatedCalls
import CodeSmell.Proofs.Reports
import CodeSmell.Proofs.ResolvedOptions
import CodeSmell.Proofs.RollUp
import CodeSmell.Proofs.RoundTrip
import CodeSmell.Proofs.Runs
import CodeSmell.Proofs.ScopeNames
import CodeSmell.Proofs.ScopeOrder
import CodeSmell.Proofs.Scopes
import CodeSmell.Proofs.SettingsStorage
import CodeSmell.Proofs.Shapes
import CodeSmell.Proofs.SignatureGrouping
import CodeSmell.Proofs.SignatureReader
import CodeSmell.Proofs.SignatureTokens
import CodeSmell.Proofs.Signatures
import CodeSmell.Proofs.SizeLimit
import CodeSmell.Proofs.SourceListing
import CodeSmell.Proofs.StoredSettings
import CodeSmell.Proofs.TokenReader
import CodeSmell.Proofs.Walk
import CodeSmell.Proofs.WrittenFiles
import CodeSmell.Proofs.WrittenSettings
import CodeSmell.Proofs.Yaml.Arranging
import CodeSmell.Proofs.Yaml.Blocks
import CodeSmell.Proofs.Yaml.Codec
import CodeSmell.Proofs.Yaml.Decoding
import CodeSmell.Proofs.Yaml.FlatScalars
import CodeSmell.Proofs.Yaml.Numbers
import CodeSmell.Proofs.Yaml.ScalarTokens
import CodeSmell.Proofs.Yaml.Scanning
import CodeSmell.Proofs.Yaml.WrittenDocuments
import CodeSmell.Proofs.Yaml.WrittenTokens
import CodeSmell.Report.Basic
import CodeSmell.Report.Console
import CodeSmell.Report.Duration
import CodeSmell.Report.Json
import CodeSmell.Report.Result
import CodeSmell.Scope.Basic
import CodeSmell.Scope.Facts
import CodeSmell.Scope.Forest
import CodeSmell.Scope.Outline
import CodeSmell.Settings.AllowList
import CodeSmell.Settings.Basic
import CodeSmell.Settings.Exclusion
import CodeSmell.Settings.Reading
import CodeSmell.Settings.Storage
import CodeSmell.Settings.Validation
import CodeSmell.Settings.Writing
import CodeSmell.Smell.Basic
import CodeSmell.Smell.Datum
import CodeSmell.Smell.Detection
import CodeSmell.Smell.Warning
import CodeSmell.Text.Base64
import CodeSmell.Text.Basic
import CodeSmell.Text.Blank
import CodeSmell.Text.CharRanges
import CodeSmell.Text.NaturalOrder
import CodeSmell.Text.Printable
import CodeSmell.Text.Quoted
import CodeSmell.Tree.Annotated
import CodeSmell.Tree.Basic
import CodeSmell.Tree.Reader
import CodeSmell.Tree.Rendering
import CodeSmell.Tree.Shape
import CodeSmell.Tree.Tag
import CodeSmell.Watcher
import CodeSmell.Yaml.Codec
import CodeSmell.Yaml.Cursor
import CodeSmell.Yaml.Decoding
import CodeSmell.Yaml.Document
import CodeSmell.Yaml.Node
import CodeSmell.Yaml.Resolution
import CodeSmell.Yaml.Scalar
import CodeSmell.Yaml.Token
import CodeSmell.Yaml.Token.Scan
import CodeSmell.Yaml.Writer
import CodeSmell.Proofs.Locations
import CodeSmell.Proofs.Watching
import CodeSmell.Proofs.Recreation
