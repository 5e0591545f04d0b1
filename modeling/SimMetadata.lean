import SimMetadata.Archive
import SimMetadata.Artifact
import SimMetadata.Artifact.Aggregate
import SimMetadata.Artifact.EnumTables
import SimMetadata.Artifact.FlagTables
import SimMetadata.Artifact.Interface
import SimMetadata.Artifact.ScriptModules
import SimMetadata.BuildConfig
import SimMetadata.BuildEnv
import SimMetadata.Bundle
import SimMetadata.CommandLine
import SimMetadata.CommandLine.Arguments
import SimMetadata.CommandLine.ClassDescription
import SimMetadata.CommandLine.Help
import SimMetadata.CommandLine.Report
import SimMetadata.CompiledForm
import SimMetadata.ConfigClass
import SimMetadata.Decimal.Binary64
import SimMetadata.Decimal.Shortest
import SimMetadata.Digest.Crc32
import SimMetadata.Digest.Sha256
import SimMetadata.Disk
import SimMetadata.Enumeration
import SimMetadata.Failure
import SimMetadata.Generation
import SimMetadata.LittleEndian
import SimMetadata.Loader
import SimMetadata.Manifest
import SimMetadata.Module
import SimMetadata.NameMap
import SimMetadata.ParamType
import SimMetadata.ParamType.Scalar
import SimMetadata.Path
import SimMetadata.Proofs.Artifact.ClassBlocks
import SimMetadata.Proofs.Artifact.DataMembers
import SimMetadata.Proofs.Artifact.EnumReading
import SimMetadata.Proofs.Artifact.FlagReading
import SimMetadata.Proofs.Artifact.FlagTables
import SimMetadata.Proofs.Artifact.Header
import SimMetadata.Proofs.Artifact.Inclusion
import SimMetadata.Proofs.Artifact.Interface
import SimMetadata.Proofs.Artifact.NameTables
import SimMetadata.Proofs.Artifact.Target
import SimMetadata.Proofs.BuildEnv
import SimMetadata.Proofs.Bundle
import SimMetadata.Proofs.Bundle.Selection
import SimMetadata.Proofs.CompiledForm
import SimMetadata.Proofs.CompiledForm.LineEnding
import SimMetadata.Proofs.Discovery.Agenda
import SimMetadata.Proofs.Discovery.Breakdown
import SimMetadata.Proofs.Discovery.Congruence
import SimMetadata.Proofs.Discovery.Explore
import SimMetadata.Proofs.Discovery.GuardErasure
import SimMetadata.Proofs.Discovery.Outcome
import SimMetadata.Proofs.Discovery.Progress
import SimMetadata.Proofs.Discovery.Replay
import SimMetadata.Proofs.Discovery.Simulation
import SimMetadata.Proofs.Discovery.Termination
import SimMetadata.Proofs.Disk
import SimMetadata.Proofs.Enumeration
import SimMetadata.Proofs.Enumeration.Numbering
import SimMetadata.Proofs.Except
import SimMetadata.Proofs.FirstSeen
import SimMetadata.Proofs.Generation
import SimMetadata.Proofs.Generation.EmbeddedFiles
import SimMetadata.Proofs.Generation.Enumerators
import SimMetadata.Proofs.Generation.Inclusions
import SimMetadata.Proofs.Generation.Outputs
import SimMetadata.Proofs.Generation.Rejection
import SimMetadata.Proofs.Generation.Steps
import SimMetadata.Proofs.Generation.Targets
import SimMetadata.Proofs.Loader
import SimMetadata.Proofs.Loader.Packages
import SimMetadata.Proofs.Loader.Resolution
import SimMetadata.Proofs.NameMap
import SimMetadata.Proofs.ParamType
import SimMetadata.Proofs.ParamType.Grammar
import SimMetadata.Proofs.Path
import SimMetadata.Proofs.Path.Join
import SimMetadata.Proofs.Path.Plain
import SimMetadata.Proofs.Provenance
import SimMetadata.Proofs.Registry.Assembly
import SimMetadata.Proofs.Registry.BindingTypes
import SimMetadata.Proofs.Registry.Declarations
import SimMetadata.Proofs.Registry.Flattening
import SimMetadata.Proofs.Registry.GuardErasure
import SimMetadata.Proofs.Registry.Hierarchy
import SimMetadata.Proofs.Registry.HostTable
import SimMetadata.Proofs.Registry.Inputs
import SimMetadata.Proofs.Registry.Linearization
import SimMetadata.Proofs.Registry.OrderStability
import SimMetadata.Proofs.Registry.ParentLine
import SimMetadata.Proofs.Registry.References
import SimMetadata.Proofs.Registry.Requests
import SimMetadata.Proofs.Registry.Requirements
import SimMetadata.Proofs.Registry.UnknownParent
import SimMetadata.Proofs.Registry.Visit
import SimMetadata.Proofs.ScriptSource
import SimMetadata.Proofs.Statistics
import SimMetadata.Proofs.Text.Affix
import SimMetadata.Proofs.Text.Blank
import SimMetadata.Proofs.Text.Layout
import SimMetadata.Proofs.Text.LineReading
import SimMetadata.Proofs.Text.Literal
import SimMetadata.Proofs.Text.NativeLiteral
import SimMetadata.Proofs.Text.ScriptLiteral
import SimMetadata.Proofs.Text.ScriptToken
import SimMetadata.Proofs.Text.Utf8
import SimMetadata.Provenance
import SimMetadata.Registry
import SimMetadata.Registry.Assembly
import SimMetadata.Registry.Discovery
import SimMetadata.Registry.Linearization
import SimMetadata.Registry.Requirements
import SimMetadata.ScriptSource
import SimMetadata.Statistics
import SimMetadata.Text.Blank
import SimMetadata.Text.Identifier
import SimMetadata.Text.Json
import SimMetadata.Text.Layout
import SimMetadata.Text.LineEnding
import SimMetadata.Text.NativeLiteral
import SimMetadata.Text.ScriptLiteral
import SimMetadata.Text.Utf8
import SimMetadata.Toml.DateTime
import SimMetadata.Toml.Document
import SimMetadata.Toml.Fields
import SimMetadata.Toml.Lexical
import SimMetadata.Toml.Number
import SimMetadata.Toml.Value
import SimMetadata.TraceFlag
import SimMetadata.Main
