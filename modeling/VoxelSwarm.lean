import VoxelSwarm.Main
import VoxelSwarm.Matrix.Lemmas
import VoxelSwarm.Navigation.Removal
import VoxelSwarm.Navigation.Search
import VoxelSwarm.Proofs.Geometry.Boxes
import VoxelSwarm.Proofs.Matrix.Consistent
import VoxelSwarm.Proofs.Swarm.Slots
import VoxelSwarm.Proofs.Swarm.Coherent
import VoxelSwarm.Proofs.Step.Footprints
import VoxelSwarm.Proofs.Step.Legal
import VoxelSwarm.Proofs.Step.Interference
import VoxelSwarm.Proofs.Step.Turn
import VoxelSwarm.Proofs.Step.Midway
import VoxelSwarm.Proofs.Step.Advance
import VoxelSwarm.Proofs.Step.Order
import VoxelSwarm.Proofs.Step.Outcome
import VoxelSwarm.Proofs.Step.Invariant
import VoxelSwarm.Proofs.Step.Runs
import VoxelSwarm.Proofs.Step.Ledger
import VoxelSwarm.Proofs.Step.Groups
import VoxelSwarm.Proofs.Matrix.Format
import VoxelSwarm.Proofs.Step.Hollow
import VoxelSwarm.Proofs.Step.Conservation
import VoxelSwarm.Proofs.Geometry.Links
import VoxelSwarm.Proofs.Matrix.Flood
import VoxelSwarm.Proofs.Matrix.Voxels
import VoxelSwarm.Proofs.Matrix.Floating
import VoxelSwarm.Proofs.Matrix.Guarded
import VoxelSwarm.Proofs.Navigation.Removal
import VoxelSwarm.Proofs.Navigation.Moves
import VoxelSwarm.Proofs.Navigation.Search
import VoxelSwarm.Proofs.Navigation.Nearest
import VoxelSwarm.Proofs.Navigation.Questions
import VoxelSwarm.Proofs.Navigation.MoveGraph
import VoxelSwarm.Proofs.Navigation.Reversal
import VoxelSwarm.Proofs.Step.Alone
import VoxelSwarm.Proofs.Step.Placement
import VoxelSwarm.Proofs.Step.Travel
import VoxelSwarm.Proofs.Session.Reachable
import VoxelSwarm.Proofs.Step.Prefix
import VoxelSwarm.Proofs.Step.Atomic
import VoxelSwarm.Proofs.Step.SeedOrder
import VoxelSwarm.Proofs.Step.Restoration
import VoxelSwarm.Proofs.Step.Sources
import VoxelSwarm.Proofs.Step.Halting
import VoxelSwarm.Proofs.Swarm.Guarded
import VoxelSwarm.Proofs.Swarm.Tables
import VoxelSwarm.Proofs.Step.Guarded
import VoxelSwarm.Proofs.Session.Staging
import VoxelSwarm.Proofs.Geometry.Along
import VoxelSwarm.Proofs.Command.Cursor
import VoxelSwarm.Proofs.Command.RoundTrip
import VoxelSwarm.Proofs.Command.Layout
import VoxelSwarm.Proofs.Session.Drive
import VoxelSwarm.Proofs.Session.Shift
import VoxelSwarm.Proofs.Session.Stepwise
import VoxelSwarm.Proofs.Session.Abort
import VoxelSwarm.Proofs.Session.Restore
import VoxelSwarm.Proofs.Session.Setup
import VoxelSwarm.Proofs.Session.Sources
import VoxelSwarm.Proofs.Session.Routes
import VoxelSwarm.Proofs.Session.Grading
import VoxelSwarm.Proofs.Session.Guarded
import VoxelSwarm.Proofs.Text.Utf8
import VoxelSwarm.Proofs.Text.Base64
import VoxelSwarm.Proofs.Text.Natural
import VoxelSwarm.Proofs.Json.Scalars
import VoxelSwarm.Proofs.Json.RoundTrip
import VoxelSwarm.Proofs.Json.Decoding
import VoxelSwarm.Proofs.Json.Yields
import VoxelSwarm.Proofs.Snapshot.Serial
import VoxelSwarm.Proofs.Snapshot.RoundTrip
import VoxelSwarm.Proofs.Snapshot.Runs
import VoxelSwarm.Proofs.Snapshot.Storable
import VoxelSwarm.Proofs.Session.Resume
import VoxelSwarm.Proofs.CommandLine.Resume
import VoxelSwarm.Proofs.Session.Effects
import VoxelSwarm.Proofs.Session.Bookkeeping
import VoxelSwarm.Proofs.Session.Lifecycle
import VoxelSwarm.Proofs.Session.Termination
import VoxelSwarm.Proofs.Session.Reports
import VoxelSwarm.Proofs.Session.Seeds
import VoxelSwarm.Proofs.Command.Reads
import VoxelSwarm.Proofs.Command.Canonical
import VoxelSwarm.Proofs.Matrix.ModelFile
import VoxelSwarm.Proofs.Snapshot.Obtained
import VoxelSwarm.Proofs.Snapshot.Layout
import VoxelSwarm.Proofs.Geometry.Words
import VoxelSwarm.Proofs.Geometry.Spanning
import VoxelSwarm.Proofs.Step.Lookups
import VoxelSwarm.Proofs.Step.Coverage
