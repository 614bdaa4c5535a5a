import BuilderControl.Json.Printer
import BuilderControl.Json.Reader
import BuilderControl.Patch
import BuilderControl.Base64
import BuilderControl.Instant
import BuilderControl.Text.Escaped
import BuilderControl.Schema.Decode
import BuilderControl.Resource
import BuilderControl.Registry
import BuilderControl.Mode
import BuilderControl.Error
import BuilderControl.Output.Router
import BuilderControl.Store.Memory
import BuilderControl.Api.Store
import BuilderControl.Invocation
import BuilderControl.Program
import BuilderControl.Main
import BuilderControl.Proofs.Entries
import BuilderControl.Proofs.Document
import BuilderControl.Proofs.Merge
import BuilderControl.Proofs.Settled
import BuilderControl.Proofs.Places
import BuilderControl.Proofs.Comparison
import BuilderControl.Proofs.Records
import BuilderControl.Proofs.NormalForm
import BuilderControl.Proofs.KeyOrder
import BuilderControl.Proofs.Mergeable
import BuilderControl.Proofs.BuildTypes
import BuilderControl.Proofs.Actions
import BuilderControl.Proofs.Generation
import BuilderControl.Proofs.Convergence
import BuilderControl.Proofs.Put
import BuilderControl.Proofs.Requests
import BuilderControl.Proofs.BuilderUpdates
import BuilderControl.Proofs.Waiting
import BuilderControl.Proofs.Reporting
import BuilderControl.Proofs.Stable
import BuilderControl.Proofs.BuilderDocuments
import BuilderControl.Proofs.Printing
import BuilderControl.Proofs.Foretelling
import BuilderControl.Proofs.DryRun
import BuilderControl.Proofs.Clients
import BuilderControl.Proofs.Conversations
import BuilderControl.Proofs.PatchClients
import BuilderControl.Proofs.SharedBuilders
import BuilderControl.Proofs.Courses
import BuilderControl.Proofs.Protocol
import BuilderControl.Proofs.Repetition
import BuilderControl.Proofs.Streams
import BuilderControl.Proofs.Saving
import BuilderControl.Proofs.CommandLines
import BuilderControl.Proofs.Agreement
import BuilderControl.Proofs.Leaves
import BuilderControl.Proofs.DisjointPatches
import BuilderControl.Proofs.LeastPatches
import BuilderControl.Proofs.Recomparison
import BuilderControl.Proofs.Locality
import BuilderControl.Proofs.Independence
import BuilderControl.Proofs.Ignored
import BuilderControl.Proofs.Routing
import BuilderControl.Proofs.Identities
import BuilderControl.Proofs.Instants
import BuilderControl.Proofs.Rereading
import BuilderControl.Proofs.Lookups
import BuilderControl.Proofs.Truncation
import BuilderControl.Proofs.Replacement
import BuilderControl.Proofs.Removal
import BuilderControl.Proofs.LeafOrder
import BuilderControl.Proofs.FlagWords
import BuilderControl.Proofs.RecordedFlags
import BuilderControl.Proofs.PathTexts
import BuilderControl.Proofs.ModeFlags
