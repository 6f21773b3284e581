import ClusterLedger.Table
import ClusterLedger.Name
import ClusterLedger.Calculator
import ClusterLedger.Usage
import ClusterLedger.Accrual
import ClusterLedger.Demand
import ClusterLedger.Container
import ClusterLedger.Marks
import ClusterLedger.Node
import ClusterLedger.Queue
import ClusterLedger.Launch
import ClusterLedger.Snapshot
import ClusterLedger.Config
import ClusterLedger.Attempt
import ClusterLedger.World.Containers
import ClusterLedger.World.Reservations
import ClusterLedger.World.Heartbeat
import ClusterLedger.Config.Cluster
import ClusterLedger.Simulation
import ClusterLedger.Codec.Config
import ClusterLedger.Codec.Simulation
import ClusterLedger.Document.Json
import ClusterLedger.Document.Toml.Writer
import ClusterLedger.Main
import ClusterLedger.Proofs.Amount
import ClusterLedger.Proofs.Agreement
import ClusterLedger.Proofs.Outcome
import ClusterLedger.Proofs.Slots
import ClusterLedger.Proofs.Holding
import ClusterLedger.Proofs.Booking
import ClusterLedger.Proofs.Ledger
import ClusterLedger.Proofs.Mirror
import ClusterLedger.Proofs.ReservedMetric
import ClusterLedger.Proofs.Delivery
import ClusterLedger.Proofs.Refusal
import ClusterLedger.Proofs.Completion
import ClusterLedger.Proofs.Replacement
import ClusterLedger.Proofs.Isolation
import ClusterLedger.Proofs.Conservation
import ClusterLedger.Proofs.Lifecycle
import ClusterLedger.Proofs.Serving
import ClusterLedger.Proofs.Reclaim
import ClusterLedger.Proofs.Progress
import ClusterLedger.Proofs.Consumption
import ClusterLedger.Proofs.Relocation
import ClusterLedger.Proofs.Reversal
import ClusterLedger.Proofs.Quotient
import ClusterLedger.Proofs.Cover
import ClusterLedger.Proofs.Recount
import ClusterLedger.Proofs.Survival
import ClusterLedger.Proofs.Seniority
import ClusterLedger.Proofs.Mastery
import ClusterLedger.Proofs.Choice
import ClusterLedger.Proofs.Ranking
import ClusterLedger.Proofs.Described
import ClusterLedger.Proofs.Pending
import ClusterLedger.Proofs.Seconds
import ClusterLedger.Proofs.Charges
import ClusterLedger.Proofs.Settings
import ClusterLedger.Proofs.Counters
