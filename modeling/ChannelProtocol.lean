import ChannelProtocol.Main
import ChannelProtocol.Registry.Check
import ChannelProtocol.Proofs.Schema.Splices
import ChannelProtocol.Proofs.Schema.References
import ChannelProtocol.Proofs.Compiled.Registrations
import ChannelProtocol.Proofs.Compiled.Declarations
import ChannelProtocol.Proofs.Compiled.Names
import ChannelProtocol.Proofs.Compiled.Acceptance
import ChannelProtocol.Proofs.Schema.Twins
import ChannelProtocol.Proofs.Compiled.Surface
import ChannelProtocol.Proofs.Registry.Checks
import ChannelProtocol.Proofs.Compiled.Inhabitants
import ChannelProtocol.Proofs.Registry.Calls
import ChannelProtocol.Proofs.Compiled.LateBinding
import ChannelProtocol.Proofs.Compiled.Scope
import ChannelProtocol.Proofs.Compiled.Agreement
import ChannelProtocol.Proofs.Schema.Reordering
import ChannelProtocol.Proofs.Compiled.Reordering
import ChannelProtocol.Proofs.Compiled.Projections
import ChannelProtocol.Proofs.TypeScript.Literals
import ChannelProtocol.Proofs.Registry.Printing
import ChannelProtocol.Proofs.Compiled.ValidatorsFile
import ChannelProtocol.Proofs.Project.Writes
import ChannelProtocol.Proofs.Project.Updates
import ChannelProtocol.Proofs.Project.Runs
import ChannelProtocol.Proofs.CommandLine.ExitStatus
import ChannelProtocol.Proofs.Schema.Reading
import ChannelProtocol.Proofs.Schema.Classification
import ChannelProtocol.Proofs.Yaml.Keys
import ChannelProtocol.Proofs.Schema.Spelling
import ChannelProtocol.Proofs.Schema.RoundTrip
import ChannelProtocol.Proofs.Compiled.CallSites
import ChannelProtocol.Proofs.Schema.Listings
import ChannelProtocol.Proofs.Compiled.Lexical
import ChannelProtocol.Proofs.Schema.Inlining
import ChannelProtocol.Proofs.Schema.Depth
import ChannelProtocol.Proofs.Schema.Lineages
import ChannelProtocol.Proofs.Schema.Faults
import ChannelProtocol.Proofs.Registry.Sanitizing
import ChannelProtocol.Proofs.Registry.Nulls
import ChannelProtocol.Proofs.Registry.Culprits
import ChannelProtocol.Proofs.Project.Batches
import ChannelProtocol.Proofs.TypeScript.Printing
import ChannelProtocol.Proofs.Schema.Flags
import ChannelProtocol.Proofs.TypeScript.StringValues
import ChannelProtocol.Proofs.Registry.Evaluation
import ChannelProtocol.Proofs.Registry.Registering
import ChannelProtocol.Proofs.Diff.Scripts
import ChannelProtocol.Proofs.Diff.Groups
import ChannelProtocol.Proofs.Diff.Printed
