import WhatsAppMcp.Controller.Redis.Coherence
import WhatsAppMcp.Controller.Redis.Fencing
import WhatsAppMcp.Controller.Redis.Journal
import WhatsAppMcp.Controller.Redis.Linearization
import WhatsAppMcp.Controller.Redis.Counters
import WhatsAppMcp.Controller.Scheduler.Turns
import WhatsAppMcp.Bridge.Store.Suppression
import WhatsAppMcp.Bridge.Store.Sequences
import WhatsAppMcp.Bridge.Connection.Stability
import WhatsAppMcp.Bridge.Store.Leases
import WhatsAppMcp.Controller.Redis.Repair
import WhatsAppMcp.Controller.Redis.Checkpoints
import WhatsAppMcp.Controller.Pi.OwnMessages
import WhatsAppMcp.Controller.Compaction.History
import WhatsAppMcp.Controller.Compaction.Recovery
import WhatsAppMcp.Controller.Pi.MutationLaws
import WhatsAppMcp.Bridge.Client.ChatLaws
import WhatsAppMcp.Embedder.Worker
import WhatsAppMcp.Bridge.Connection.Connect
import WhatsAppMcp.Bridge.Store.Triggers
import WhatsAppMcp.Bridge.Store.Watermarks
import WhatsAppMcp.Bridge.Notify.Worker
import WhatsAppMcp.Bridge.Store.Search
import WhatsAppMcp.Delivery.Agreement
import WhatsAppMcp.Delivery.Enqueue
import WhatsAppMcp.Delivery.Order
import WhatsAppMcp.Downloads.Content
import WhatsAppMcp.Downloads.Budget
import WhatsAppMcp.Controller.Pi.Destinations
import WhatsAppMcp.Bridge.Media.Placement
import WhatsAppMcp.Controller.Pi.CompletionIndex
import WhatsAppMcp.Controller.Compaction.OrphanRecovery
import WhatsAppMcp.Bridge.Media.OggPages
import WhatsAppMcp.Controller.Scheduler.Bounds
import WhatsAppMcp.Controller.Intake.Server
import WhatsAppMcp.Delivery.Link
import WhatsAppMcp.Bridge.Store.WriterLoop
import WhatsAppMcp.Controller.Lifecycle
import WhatsAppMcp.Controller.Pi.Evidence
import WhatsAppMcp.Controller.Pi.FileIndex
import WhatsAppMcp.Controller.Pi.IndexLaws
import WhatsAppMcp.Controller.Pi.IndexRuns
import WhatsAppMcp.Delivery.Signature
