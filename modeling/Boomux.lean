import Boomux.Attach.Delivery
import Boomux.Attach.FocusInput
import Boomux.Attach.Frames
import Boomux.Attach.Progress
import Boomux.Attach.Queue
import Boomux.Attach.Runtime
import Boomux.Basic.BTreeMap
import Boomux.Basic.Bytes
import Boomux.Basic.Feed
import Boomux.Basic.Float32
import Boomux.Basic.HashMap
import Boomux.Basic.Json
import Boomux.Basic.Keyed
import Boomux.Basic.Lines
import Boomux.Basic.Listing
import Boomux.Basic.Paging
import Boomux.Basic.Run
import Boomux.Basic.Rust
import Boomux.Basic.Select
import Boomux.Basic.Undo
import Boomux.Basic.Utf8
import Boomux.Coordinator.Cancellation
import Boomux.Coordinator.Effects
import Boomux.Coordinator.Machine
import Boomux.Coordinator.Operations
import Boomux.Coordinator.Prepare
import Boomux.Coordinator.Retries
import Boomux.Coordinator.Runs
import Boomux.Coordinator.Store
import Boomux.Coordinator.Validity
import Boomux.Daemon.Agent
import Boomux.Daemon.Agents
import Boomux.Daemon.Coalescing
import Boomux.Daemon.Compensation
import Boomux.Daemon.Error
import Boomux.Daemon.Integrations
import Boomux.Daemon.Ledger
import Boomux.Daemon.LedgerPaths
import Boomux.Daemon.Lifecycle
import Boomux.Daemon.LifecycleFailure
import Boomux.Daemon.LifecycleSteps
import Boomux.Daemon.Machine
import Boomux.Daemon.OpenCode
import Boomux.Daemon.OpenCodeClaims
import Boomux.Daemon.OpenCodeRelease
import Boomux.Daemon.Output
import Boomux.Daemon.OutputEnds
import Boomux.Daemon.OutputLog
import Boomux.Daemon.OutputOrder
import Boomux.Daemon.OutputPaths
import Boomux.Daemon.PersistedAgent
import Boomux.Daemon.Projection
import Boomux.Daemon.Publication
import Boomux.Daemon.Readers
import Boomux.Daemon.Recovery
import Boomux.Daemon.Registry
import Boomux.Daemon.Replay
import Boomux.Daemon.Resume
import Boomux.Daemon.Shell
import Boomux.Daemon.Start
import Boomux.Daemon.StartAtomic
import Boomux.Daemon.Stream
import Boomux.Daemon.Transitions
import Boomux.Desktop.Layout
import Boomux.Desktop.LayoutFile
import Boomux.Desktop.LayoutPersistence
import Boomux.Desktop.LayoutState
import Boomux.Desktop.LayoutStore
import Boomux.Desktop.LayoutValidity
import Boomux.Desktop.Node
import Boomux.Desktop.Recovery
import Boomux.Desktop.Tiling
import Boomux.Desktop.TilingEdits
import Boomux.Desktop.TilingNavigation
import Boomux.Git.Status
import Boomux.Handoff.Authority
import Boomux.Handoff.Continuity
import Boomux.Handoff.Cursor
import Boomux.Handoff.Custody
import Boomux.Handoff.Exchange
import Boomux.Handoff.Manifest
import Boomux.Handoff.Observation
import Boomux.Handoff.Ownership
import Boomux.Handoff.Reconcile
import Boomux.Handoff.Transfer
import Boomux.Journal.LocalShell
import Boomux.Journal.TornWrites
import Boomux.Journal.View
import Boomux.Nodes.Admission
import Boomux.Nodes.Cache
import Boomux.Nodes.Drain
import Boomux.Nodes.Epochs
import Boomux.Nodes.Evolution
import Boomux.Nodes.Freshness
import Boomux.Nodes.Identity
import Boomux.Nodes.Isolation
import Boomux.Nodes.Machine
import Boomux.Nodes.Manager
import Boomux.Nodes.Notifications
import Boomux.Nodes.NotifiedOnce
import Boomux.Nodes.Owner
import Boomux.Nodes.Proceeds
import Boomux.Nodes.Steps
import Boomux.Registry.Catalogue
import Boomux.Registry.Durable
import Boomux.Registry.Log
import Boomux.Registry.Operations
import Boomux.Registry.Requests
import Boomux.Registry.Rollback
import Boomux.Registry.Sound
import Boomux.Registry.State
import Boomux.Terminal.Modes
import Boomux.Terminal.Preview
import Boomux.Terminal.Screen
import Boomux.Terminal.Text
import Boomux.Workspaces.Conversations
import Boomux.Workspaces.Sessions
import Boomux.Workspaces.Snapshot
