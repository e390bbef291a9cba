import LiteralLint.Arena
import LiteralLint.Baseline
import LiteralLint.Binary64
import LiteralLint.Binary64.Reading
import LiteralLint.Binary64.Shortest
import LiteralLint.Builder
import LiteralLint.Cache
import LiteralLint.Cache.Store
import LiteralLint.Callee
import LiteralLint.Classification
import LiteralLint.CommandLine
import LiteralLint.CommandLine.Arguments
import LiteralLint.Complaint
import LiteralLint.Configuration
import LiteralLint.Container
import LiteralLint.Datum
import LiteralLint.DeclaredType
import LiteralLint.Digest.Sha256
import LiteralLint.Failure
import LiteralLint.FileSystem
import LiteralLint.Finding.Record
import LiteralLint.Glob
import LiteralLint.IgnoreRules
import LiteralLint.Job
import LiteralLint.Json
import LiteralLint.Json.Reader
import LiteralLint.Json.Writer
import LiteralLint.Lint
import LiteralLint.Log
import LiteralLint.Main
import LiteralLint.MessagePack
import LiteralLint.MessagePack.Reader
import LiteralLint.MessagePack.Writer
import LiteralLint.Narrowing
import LiteralLint.Node
import LiteralLint.Options
import LiteralLint.Options.File
import LiteralLint.Options.Fingerprint
import LiteralLint.Options.Merge
import LiteralLint.Options.Shape
import LiteralLint.Path
import LiteralLint.Pattern
import LiteralLint.Pattern.Fault
import LiteralLint.Pattern.Matching
import LiteralLint.Pattern.Reader
import LiteralLint.Program
import LiteralLint.Report
import LiteralLint.Scan
import LiteralLint.Source
import LiteralLint.Source.Conversion
import LiteralLint.Source.Expansion
import LiteralLint.Source.Language
import LiteralLint.Source.NumberLiteral
import LiteralLint.Source.ParseTree
import LiteralLint.Source.StringLiteral
import LiteralLint.Source.TypeAnnotation
import LiteralLint.Text
import LiteralLint.Text.Blank
import LiteralLint.Text.Boundary
import LiteralLint.Text.Case
import LiteralLint.Text.Identifier
import LiteralLint.Text.IntegerNumeral
import LiteralLint.Text.Letter
import LiteralLint.Text.Numeral
import LiteralLint.Text.Printable
import LiteralLint.Text.Quoted
import LiteralLint.Text.Similarity
import LiteralLint.Text.Utf8
import LiteralLint.Tree
import LiteralLint.Verdict
import LiteralLint.Proofs.Arena
import LiteralLint.Proofs.Ruling
import LiteralLint.Proofs.SinglePass
import LiteralLint.Proofs.DecisionList
import LiteralLint.Proofs.ValuePattern
import LiteralLint.Proofs.Utf8
import LiteralLint.Proofs.MessagePack
import LiteralLint.Proofs.StoredFinding
import LiteralLint.Proofs.CacheDocument
import LiteralLint.Proofs.Jobs
import LiteralLint.Proofs.Places
import LiteralLint.Proofs.CachedRun
import LiteralLint.Proofs.CacheStore
import LiteralLint.Proofs.KeptCache
import LiteralLint.Proofs.RestedRun
import LiteralLint.Proofs.History
import LiteralLint.Proofs.Reporting
import LiteralLint.Proofs.Narrowing
import LiteralLint.Proofs.OptionsMerge
import LiteralLint.Proofs.Widening
import LiteralLint.Proofs.Embedding
import LiteralLint.Proofs.Siblings
import LiteralLint.Proofs.Recursion
import LiteralLint.Proofs.Conversion
import LiteralLint.Proofs.CacheLoading
import LiteralLint.Proofs.ContainerMarks
import LiteralLint.Proofs.SettledRun
import LiteralLint.Proofs.CommentFree
import LiteralLint.Proofs.CacheRoundTrip
import LiteralLint.Proofs.JsonReading
import LiteralLint.Proofs.OptionsReading
import LiteralLint.Proofs.OwnerTag
import LiteralLint.Proofs.PatternFaults
import LiteralLint.Proofs.TypeReferences
import LiteralLint.Proofs.ContextualType
import LiteralLint.Proofs.Provenance
import LiteralLint.Proofs.ObjectKeys
import LiteralLint.Proofs.Discovery
import LiteralLint.Proofs.CacheSteps
import LiteralLint.Proofs.SecondRun
import LiteralLint.Proofs.VerdictHistory
import LiteralLint.Proofs.WrittenString
import LiteralLint.Proofs.CalleeChain
import LiteralLint.Proofs.FilesBelow
import LiteralLint.Proofs.SeparateReports
import LiteralLint.Proofs.IgnoredPaths
import LiteralLint.Proofs.IgnoreFile
import LiteralLint.Proofs.ElementForms
import LiteralLint.Proofs.Placement
import LiteralLint.Proofs.Numbering
import LiteralLint.Proofs.Traversal
import LiteralLint.Proofs.JsonString
import LiteralLint.Proofs.JsonRoundTrip
import LiteralLint.Proofs.Fingerprint
import LiteralLint.Proofs.LetterlessText
