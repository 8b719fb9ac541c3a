import EarlyConfig.Command.Arguments
import EarlyConfig.Command.Run
import EarlyConfig.Conversion
import EarlyConfig.Defaults
import EarlyConfig.Diagnostic
import EarlyConfig.Dialect.Attribute
import EarlyConfig.Dialect.Backend
import EarlyConfig.Dialect.Basic
import EarlyConfig.Dialect.Family
import EarlyConfig.Dialect.Module.Basic
import EarlyConfig.Dialect.Module.Declaration
import EarlyConfig.Dialect.Module.Draft
import EarlyConfig.Dialect.Module.Resolve
import EarlyConfig.Dialect.ModuleOrigin
import EarlyConfig.Dialect.PolicyTest
import EarlyConfig.Dialect.RequiredProvider
import EarlyConfig.Dialect.Search
import EarlyConfig.Dialect.Stack.Basic
import EarlyConfig.Dialect.Stack.Declaration
import EarlyConfig.Dialect.Stack.Resolve
import EarlyConfig.Dialect.Test
import EarlyConfig.Dialect.Variable
import EarlyConfig.Disk
import EarlyConfig.Entries
import EarlyConfig.FileSet
import EarlyConfig.FileSet.Load
import EarlyConfig.FileSystem
import EarlyConfig.Hcl.Body
import EarlyConfig.Hcl.Expr
import EarlyConfig.Hcl.Read.Body
import EarlyConfig.Hcl.Read.Cursor
import EarlyConfig.Hcl.Read.Expr
import EarlyConfig.Hcl.Read.Heredoc
import EarlyConfig.Hcl.Read.Template
import EarlyConfig.Hcl.Read.Text
import EarlyConfig.Hcl.Read.Trivia
import EarlyConfig.Hcl.Span
import EarlyConfig.Literal.Eval
import EarlyConfig.Literal.Operator
import EarlyConfig.Main
import EarlyConfig.ModuleSource
import EarlyConfig.Number.Basic
import EarlyConfig.Number.Binary64
import EarlyConfig.Number.Decimal
import EarlyConfig.Number.Shortest
import EarlyConfig.Proofs.Collecting
import EarlyConfig.Proofs.LookUps
import EarlyConfig.Proofs.Selection
import EarlyConfig.Provider.Address
import EarlyConfig.Provider.Argument
import EarlyConfig.Provider.Reference
import EarlyConfig.Report.Configuration
import EarlyConfig.Report.Defaults
import EarlyConfig.Report.Diagnostic
import EarlyConfig.Report.Document
import EarlyConfig.Report.Json
import EarlyConfig.Report.Yaml
import EarlyConfig.Schema.Basic
import EarlyConfig.Schema.Tables
import EarlyConfig.SortedMap
import EarlyConfig.Text.Blank
import EarlyConfig.Text.CodeRange
import EarlyConfig.Text.Identifier
import EarlyConfig.Text.Letter
import EarlyConfig.Text.Printable
import EarlyConfig.Text.Quoted
import EarlyConfig.Text.Split
import EarlyConfig.Ty
import EarlyConfig.TypeExpr
import EarlyConfig.Value
import EarlyConfig.Version.Basic
import EarlyConfig.Version.Constraint
import EarlyConfig.Version.Order
import EarlyConfig.Proofs.Module.Requirements
import EarlyConfig.Proofs.Module.References
import EarlyConfig.Proofs.Module.Collected
import EarlyConfig.Proofs.Conformance
import EarlyConfig.Proofs.Defaults
import EarlyConfig.Proofs.TypeExpressions
import EarlyConfig.Proofs.VariableDefaults
import EarlyConfig.Proofs.FileLoading
import EarlyConfig.Proofs.Reading
import EarlyConfig.Proofs.KeyedBlocks
import EarlyConfig.Proofs.SharedVariables
import EarlyConfig.Proofs.Module.Resolution
import EarlyConfig.Proofs.Module.DefaultReferences
import EarlyConfig.Proofs.Module.Complaints
import EarlyConfig.Proofs.Reordering
import EarlyConfig.Proofs.Module.FileOrder
import EarlyConfig.Proofs.Places.Decoding
import EarlyConfig.Proofs.Places.Runs
import EarlyConfig.Proofs.Places.Dialects
import EarlyConfig.Proofs.FileBoundaries
import EarlyConfig.Proofs.Text
import EarlyConfig.Proofs.Constraints
import EarlyConfig.Proofs.Module.Siblings
import EarlyConfig.Proofs.TypeDefaults
import EarlyConfig.Proofs.Ranges.Dialects
import EarlyConfig.Proofs.LowerCase
import EarlyConfig.Proofs.Results
import EarlyConfig.Proofs.ProviderSources
import EarlyConfig.Proofs.ModuleSources
import EarlyConfig.Proofs.SearchReferences
import EarlyConfig.Proofs.Stack.Resolution
import EarlyConfig.Proofs.SharedRequirements
import EarlyConfig.Proofs.Module.LocalNames
import EarlyConfig.Proofs.ConfiguredProviders
import EarlyConfig.Proofs.Module.Addresses
import EarlyConfig.Proofs.EarlyComplaints
import EarlyConfig.Proofs.Module.LateComplaints
import EarlyConfig.Proofs.Module.VersionRequirements
import EarlyConfig.Proofs.ConversionErrors
import EarlyConfig.Proofs.Integers
import EarlyConfig.Proofs.MergedRequirements
import EarlyConfig.Proofs.RepeatedAttributes
import EarlyConfig.Proofs.Content
import EarlyConfig.Proofs.Equality
import EarlyConfig.Proofs.Module.Backends
import EarlyConfig.Proofs.SetMembers
import EarlyConfig.Proofs.VersionTexts
import EarlyConfig.Proofs.VersionOrder
import EarlyConfig.Proofs.Acceptance
import EarlyConfig.Proofs.Identifiers
import EarlyConfig.Proofs.ProviderReferences
import EarlyConfig.Proofs.ReportedTypes
import EarlyConfig.Proofs.Filling
import EarlyConfig.Proofs.ByteOrder
import EarlyConfig.Proofs.DirectoryLoading
import EarlyConfig.Proofs.NameLists
import EarlyConfig.Proofs.Parsing.Runs
import EarlyConfig.Proofs.Parsing.Terms
import EarlyConfig.Proofs.Parsing.Brackets
import EarlyConfig.Proofs.Parsing.Expressions
import EarlyConfig.Proofs.TypeSpelling
import EarlyConfig.Proofs.TypeParsing
import EarlyConfig.Proofs.DiagnosticGroups
