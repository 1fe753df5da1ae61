import CommitCoordinator.Catalog.Client
import CommitCoordinator.Catalog.Document
import CommitCoordinator.Catalog.File
import CommitCoordinator.Catalog.Manifest
import CommitCoordinator.Catalog.Memory
import CommitCoordinator.Catalog.Table
import CommitCoordinator.Checkpoint.Snapshot
import CommitCoordinator.Checkpoint.Store
import CommitCoordinator.Collection.Sequenced
import CommitCoordinator.Collection.Sorted
import CommitCoordinator.CommandLine
import CommitCoordinator.Config.Basic
import CommitCoordinator.Config.Error
import CommitCoordinator.Config.Load
import CommitCoordinator.Config.Merge
import CommitCoordinator.Config.SinkOptions
import CommitCoordinator.Config.TableKey
import CommitCoordinator.Config.Template
import CommitCoordinator.Config.Validate
import CommitCoordinator.Coordinator.Attempt
import CommitCoordinator.Coordinator.Basic
import CommitCoordinator.Coordinator.Error
import CommitCoordinator.Coordinator.Operator
import CommitCoordinator.Coordinator.Payload
import CommitCoordinator.Coordinator.Scan
import CommitCoordinator.Data.Codec
import CommitCoordinator.Data.Loose
import CommitCoordinator.Data.Problem
import CommitCoordinator.Data.Record
import CommitCoordinator.Data.Value
import CommitCoordinator.HostEvent
import CommitCoordinator.Json.Number
import CommitCoordinator.Json.Printer
import CommitCoordinator.Json.Reader
import CommitCoordinator.Machine
import CommitCoordinator.Main
import CommitCoordinator.Metrics.Event
import CommitCoordinator.Metrics.Ledger
import CommitCoordinator.Metrics.Monad
import CommitCoordinator.Pending
import CommitCoordinator.Program
import CommitCoordinator.Quorum
import CommitCoordinator.Report
import CommitCoordinator.Router.Basic
import CommitCoordinator.Router.Error
import CommitCoordinator.Router.Replay
import CommitCoordinator.SocketAddress
import CommitCoordinator.Storage.Entry
import CommitCoordinator.Storage.Error
import CommitCoordinator.Storage.FileName
import CommitCoordinator.Storage.FileSystem
import CommitCoordinator.Storage.FileTree
import CommitCoordinator.Storage.Listing
import CommitCoordinator.Storage.Location
import CommitCoordinator.Storage.ObjectKey
import CommitCoordinator.Storage.ObjectListing
import CommitCoordinator.Storage.Replace
import CommitCoordinator.Text.Blank
import CommitCoordinator.Text.Decimal
import CommitCoordinator.Text.Hex
import CommitCoordinator.Text.Hidden
import CommitCoordinator.Text.Infix
import CommitCoordinator.Text.Quoted
import CommitCoordinator.Text.Utf8
import CommitCoordinator.Url.Basic
import CommitCoordinator.Url.Host
import CommitCoordinator.Url.Percent
import CommitCoordinator.Uuid
import CommitCoordinator.Yaml.Cursor
import CommitCoordinator.Yaml.Layout
import CommitCoordinator.Yaml.Node
import CommitCoordinator.Yaml.Reader
import CommitCoordinator.Yaml.Reference
import CommitCoordinator.Yaml.Scalar
import CommitCoordinator.Yaml.Tag
import CommitCoordinator.Yaml.Token
import CommitCoordinator.Proofs.Collection.FirstOccurrences
import CommitCoordinator.Proofs.Dialogue.Basic
import CommitCoordinator.Proofs.Dialogue.Handle
import CommitCoordinator.Proofs.Catalog.Agreement
import CommitCoordinator.Proofs.Coordinator.Conservation
import CommitCoordinator.Proofs.Coordinator.TwoPhase
import CommitCoordinator.Proofs.Failover.AtLeastOnce
import CommitCoordinator.Proofs.Quorum.Arrivals
import CommitCoordinator.Proofs.Quorum.Rounds
import CommitCoordinator.Proofs.Failover.Stored
import CommitCoordinator.Proofs.Text.Utf8
import CommitCoordinator.Proofs.Json.Scalars
import CommitCoordinator.Proofs.Json.Document
import CommitCoordinator.Proofs.Collection.Entries
import CommitCoordinator.Proofs.Data.Identifier
import CommitCoordinator.Proofs.Catalog.Encoding
import CommitCoordinator.Proofs.Storage.Replacing
import CommitCoordinator.Proofs.Catalog.Calls
import CommitCoordinator.Proofs.Storage.LinkFree
import CommitCoordinator.Proofs.Catalog.FileRefinement
import CommitCoordinator.Proofs.Storage.Hosting
import CommitCoordinator.Proofs.Dialogue.Similar
import CommitCoordinator.Proofs.Coordinator.Twins
import CommitCoordinator.Proofs.Failover.Restored
import CommitCoordinator.Proofs.Storage.KeySegments
import CommitCoordinator.Proofs.Storage.ExactListing
import CommitCoordinator.Proofs.Coordinator.Informed
import CommitCoordinator.Proofs.Catalog.Admission
import CommitCoordinator.Proofs.Url.FilePath
import CommitCoordinator.Proofs.Storage.FileLocations
import CommitCoordinator.Proofs.Catalog.Share
import CommitCoordinator.Proofs.Coordinator.Mirror
import CommitCoordinator.Proofs.Router.Building
import CommitCoordinator.Proofs.Router.Lockstep
import CommitCoordinator.Proofs.Router.Premises
import CommitCoordinator.Proofs.Router.Isolation
import CommitCoordinator.Proofs.Storage.OrderlyTrees
import CommitCoordinator.Proofs.Storage.SpelledPaths
import CommitCoordinator.Proofs.Config.Merging
import CommitCoordinator.Proofs.Config.Sources
import CommitCoordinator.Proofs.Config.Stated
import CommitCoordinator.Proofs.Storage.KeysBelow
import CommitCoordinator.Proofs.Data.Keeping
import CommitCoordinator.Proofs.Data.RoundTrip
import CommitCoordinator.Proofs.Router.Checkpoints
import CommitCoordinator.Proofs.Catalog.Growth
import CommitCoordinator.Proofs.Catalog.Repeats
import CommitCoordinator.Proofs.Checkpoint.Cells
import CommitCoordinator.Proofs.Quorum.Counting
import CommitCoordinator.Proofs.Coordinator.Refusals
import CommitCoordinator.Proofs.Coordinator.Schedules
import CommitCoordinator.Proofs.Coordinator.Registered
import CommitCoordinator.Proofs.Storage.Halting
import CommitCoordinator.Proofs.Storage.Creating
import CommitCoordinator.Proofs.Storage.Replacement
import CommitCoordinator.Proofs.Storage.Sheltered
import CommitCoordinator.Proofs.Catalog.Faults
import CommitCoordinator.Proofs.Catalog.Failures
import CommitCoordinator.Proofs.Config.Expanding
import CommitCoordinator.Proofs.Metrics.Accounting
import CommitCoordinator.Proofs.Metrics.Bookkeeping
import CommitCoordinator.Proofs.Catalog.Likeness
import CommitCoordinator.Proofs.Router.Desk
import CommitCoordinator.Proofs.Router.Undisturbed
import CommitCoordinator.Proofs.Json.Lines
import CommitCoordinator.Proofs.Router.Replaying
import CommitCoordinator.Proofs.Failover.Undone
