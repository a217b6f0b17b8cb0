import EdgeLb.Common.Flow
import EdgeLb.Lib.Run
import EdgeLb.Lib.PairMap
import EdgeLb.Lib.Text
import EdgeLb.Lib.Net
import EdgeLb.Config.Model
import EdgeLb.Lib.Check
import EdgeLb.Config.Overlay
import EdgeLb.Config.Validate
import EdgeLb.Provider.Native
import EdgeLb.Datapath.Select
import EdgeLb.Lib.Rotation
import EdgeLb.Datapath.Selectors
import EdgeLb.Datapath.Selected
import EdgeLb.Datapath.Turns
import EdgeLb.Datapath.LeastConnections
import EdgeLb.Datapath.FlowNames
import EdgeLb.Datapath.Disruption
import EdgeLb.Datapath.Checksums
import EdgeLb.Datapath.Packet
import EdgeLb.Datapath.Dnat
import EdgeLb.Datapath.Underlay
import EdgeLb.Datapath.Publish
import EdgeLb.Lib.MapSync
import EdgeLb.Datapath.Interleave
import EdgeLb.Datapath.ListenerIds
import EdgeLb.Datapath.ConsistentHash
import EdgeLb.Datapath.Whole
import EdgeLb.Datapath.BackendReturn
import EdgeLb.Datapath.RedirectPublish
import EdgeLb.Datapath.RedirectCache
import EdgeLb.Datapath.Admission
import EdgeLb.Datapath.Overlay
import EdgeLb.Provider.FlowTransfer
import EdgeLb.Lib.DocStore
import EdgeLb.Lib.Optimistic
import EdgeLb.Storage.ProxyReplication
import EdgeLb.Storage.Pair
import EdgeLb.Config.Normalize
import EdgeLb.Config.OverlayAssign
import EdgeLb.Lib.SortedMap
import EdgeLb.Control.Registry
import EdgeLb.Control.OverlayStable
import EdgeLb.Control.Streams
import EdgeLb.Config.Accepts
import EdgeLb.Provider.Listeners
import EdgeLb.Storage.Mutate
import EdgeLb.Api.Operations
import EdgeLb.Api.Commits
import EdgeLb.Api.Limits
import EdgeLb.Api.Revalidate
import EdgeLb.Api.Router
import EdgeLb.Api.Authority
import EdgeLb.Api.Forward
import EdgeLb.Automation.Template
import EdgeLb.Automation.Reconcile
import EdgeLb.Automation.Edits
import EdgeLb.Config.Active
import EdgeLb.Ha.Role
import EdgeLb.Ha.Hooks
import EdgeLb.Ha.Switch
import EdgeLb.Ha.Election
import EdgeLb.Ha.Pairing
import EdgeLb.Ha.Bfd
import EdgeLb.Lib.Cell
import EdgeLb.Provider.XSync
import EdgeLb.Provider.PendingFlows
import EdgeLb.Provider.FlowApply
import EdgeLb.Lib.Wire
import EdgeLb.Provider.Snapshot
import EdgeLb.Lib.Group
import EdgeLb.Provider.Restore
import EdgeLb.Lib.CountMap
import EdgeLb.Datapath.ActiveFlows
import EdgeLb.Control.BackendApply
import EdgeLb.Datapath.Apply
import EdgeLb.Lib.Since
import EdgeLb.Provider.Health
import EdgeLb.Provider.Probe
import EdgeLb.Lib.Protobuf
import EdgeLb.Control.Combine
import EdgeLb.Lib.FaultyMap
import EdgeLb.Linux.DscpPorts
import EdgeLb.Linux.DscpMarker
import EdgeLb.Lib.Settle
import EdgeLb.Automation.Views
import EdgeLb.Lib.Prefix
import EdgeLb.Role.Mirror
import EdgeLb.Config.OverlayFill
import EdgeLb.Storage.LocalVips
import EdgeLb.Api.ClientRequests
import EdgeLb.Lib.Upsert
import EdgeLb.Provider.Projection
import EdgeLb.Lib.Refresh
