import NearCache.Cache
import NearCache.Client.Action
import NearCache.Client.Schedule
import NearCache.Client.State
import NearCache.Client.Step
import NearCache.Client.Worker
import NearCache.Cluster.Basic
import NearCache.Cluster.Round
import NearCache.Config.Cache
import NearCache.Config.Catalog
import NearCache.Config.Coherence
import NearCache.Duration
import NearCache.Error
import NearCache.Event
import NearCache.Fault
import NearCache.Identity
import NearCache.Json.Basic
import NearCache.Json.Configuration
import NearCache.Json.Draft
import NearCache.Json.Form
import NearCache.Json.Messages
import NearCache.Json.Number
import NearCache.Json.Printer
import NearCache.Json.Service
import NearCache.Json.Value
import NearCache.Member
import NearCache.Message
import NearCache.Partition
import NearCache.Proofs.Cache.Conversion
import NearCache.Proofs.Cache.Provenance
import NearCache.Proofs.Cache.Redelivery
import NearCache.Proofs.Cache.Run
import NearCache.Proofs.Client.Accounting
import NearCache.Proofs.Client.Apart
import NearCache.Proofs.Client.Attempts
import NearCache.Proofs.Client.Background
import NearCache.Proofs.Client.Bindings
import NearCache.Proofs.Client.Books
import NearCache.Proofs.Client.Construction
import NearCache.Proofs.Client.Failover
import NearCache.Proofs.Client.Fetching
import NearCache.Proofs.Client.Grants
import NearCache.Proofs.Client.Listeners
import NearCache.Proofs.Client.Opening
import NearCache.Proofs.Client.Ownership
import NearCache.Proofs.Client.Passes
import NearCache.Proofs.Client.Plan
import NearCache.Proofs.Client.Reconnection
import NearCache.Proofs.Client.Renewal
import NearCache.Proofs.Client.Rounds
import NearCache.Proofs.Client.Runs
import NearCache.Proofs.Client.Shutdown
import NearCache.Proofs.Client.Staff
import NearCache.Proofs.Client.Traffic
import NearCache.Proofs.Client.Turn
import NearCache.Proofs.Client.Upkeep
import NearCache.Proofs.Client.Visits
import NearCache.Proofs.Cluster.FanOut
import NearCache.Proofs.Cluster.Round
import NearCache.Proofs.Config.Lookup
import NearCache.Proofs.History
import NearCache.Proofs.Json.Forms
import NearCache.Proofs.Json.Roundtrip
import NearCache.Proofs.Json.Scan
import NearCache.Proofs.Json.Value
import NearCache.Proofs.Partition
import NearCache.Proofs.Reconcile.Healing
import NearCache.Proofs.Reconcile.Knowledge
import NearCache.Proofs.Reconcile.Overtaken
import NearCache.Proofs.Reconcile.Repetition
import NearCache.Proofs.Reconcile.Report
import NearCache.Proofs.Reconcile.Seeding
import NearCache.Proofs.Store.Admission
import NearCache.Proofs.Store.Batch
import NearCache.Proofs.Store.Capacity
import NearCache.Proofs.Store.Conservation
import NearCache.Proofs.Store.Effects
import NearCache.Proofs.Store.Expiry
import NearCache.Proofs.Store.LastUse
import NearCache.Proofs.Store.Order
import NearCache.Proofs.Store.Recency
import NearCache.Proofs.Store.Reservation
import NearCache.Proofs.Store.Slots
import NearCache.Proofs.Text.Bytes
import NearCache.Proofs.Text.Hex
import NearCache.Proofs.Text.Numeral
import NearCache.Proofs.Tracker.GapBound
import NearCache.Proofs.Tracker.Independence
import NearCache.Proofs.Tracker.Range
import NearCache.Proofs.Tracker.Repair
import NearCache.Proofs.Tracker.Replay
import NearCache.Proofs.Tracker.Run
import NearCache.Proofs.Tracker.Staleness
import NearCache.Proofs.Version
import NearCache.Reconcile
import NearCache.Samples
import NearCache.Session
import NearCache.Store.Basic
import NearCache.Store.Counters
import NearCache.Store.Entry
import NearCache.Store.Invalidation
import NearCache.Store.Slots
import NearCache.Text.Blank
import NearCache.Text.Decimal
import NearCache.Text.Hex
import NearCache.Text.Hidden
import NearCache.Text.Quoted
import NearCache.Text.Record
import NearCache.Text.Shortest
import NearCache.Text.Split
import NearCache.Text.Uuid
import NearCache.Tracker
import NearCache.Version
