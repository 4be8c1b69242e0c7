import Shardd.Account
import Shardd.Billing.Checkout
import Shardd.Billing.Credits
import Shardd.Billing.Deductions
import Shardd.Billing.Deliveries
import Shardd.Billing.Grants
import Shardd.Billing.Repo
import Shardd.Billing.Webhooks
import Shardd.Broadcast.Acks
import Shardd.Broadcast.Selection
import Shardd.Cluster.Cascade
import Shardd.Cluster.Effects
import Shardd.Cluster.Filing
import Shardd.Cluster.Ledgers
import Shardd.Cluster.Numbers
import Shardd.Cluster.Run
import Shardd.Cluster.Transfers
import Shardd.Cluster.Winners
import Shardd.Concurrency.Captures
import Shardd.Concurrency.Deadlock
import Shardd.Concurrency.ExactlyOnce
import Shardd.Concurrency.Identities
import Shardd.Concurrency.Namespaces
import Shardd.Concurrency.Operations
import Shardd.Concurrency.Reports
import Shardd.Concurrency.Retries
import Shardd.Concurrency.Sweeps
import Shardd.Dashboard.Buckets
import Shardd.Dashboard.Calls
import Shardd.Dashboard.CliAuth
import Shardd.Dashboard.Gates
import Shardd.Dashboard.Keys
import Shardd.Gateway.Authorize
import Shardd.Gateway.Blocks
import Shardd.Gateway.Chain
import Shardd.Gateway.ChainHistory
import Shardd.Gateway.ChainNonces
import Shardd.Gateway.ChainReads
import Shardd.Gateway.Introspect
import Shardd.Gateway.Names
import Shardd.Gateway.Submission
import Shardd.Gateway.Summaries
import Shardd.Gateway.Tenants
import Shardd.Gateway.Transactions
import Shardd.Isolation.Programs
import Shardd.Isolation.Runs
import Shardd.Isolation.View
import Shardd.Ledger.Admission
import Shardd.Ledger.FailedWrite
import Shardd.Ledger.ImplicitHold
import Shardd.Ledger.Overdraft
import Shardd.Ledger.Transfer
import Shardd.Lib.Client
import Shardd.Lib.Compartment
import Shardd.Lib.Contest
import Shardd.Lib.Contiguous
import Shardd.Lib.Coupling
import Shardd.Lib.Grouping
import Shardd.Lib.Hex
import Shardd.Lib.Interleave
import Shardd.Lib.Json
import Shardd.Lib.Like
import Shardd.Lib.Machine
import Shardd.Lib.Map
import Shardd.Lib.Pool
import Shardd.Lib.Postgres
import Shardd.Lib.Proc
import Shardd.Lib.Ranking
import Shardd.Lib.Recorded
import Shardd.Lib.Rekey
import Shardd.Lib.Text
import Shardd.Lib.Traced
import Shardd.Lib.WaitGraph
import Shardd.Lib.Zoom
import Shardd.Node.Acts
import Shardd.Node.Allocator
import Shardd.Node.AllocatorSpec
import Shardd.Node.Calls
import Shardd.Node.Collapsed
import Shardd.Node.Create
import Shardd.Node.CreateRules
import Shardd.Node.CreateSpec
import Shardd.Node.DeleteRules
import Shardd.Node.DeleteSpec
import Shardd.Node.Exec
import Shardd.Node.Fine
import Shardd.Node.FineRules
import Shardd.Node.HeadSpec
import Shardd.Node.Heads
import Shardd.Node.InsertRules
import Shardd.Node.Network
import Shardd.Node.Nonces
import Shardd.Node.Replicate
import Shardd.Node.ReplicateSpec
import Shardd.Node.Rules
import Shardd.Node.Service
import Shardd.Node.Startup
import Shardd.Node.StartupSpec
import Shardd.Node.State
import Shardd.Postgres.Events
import Shardd.Postgres.Persistence
import Shardd.Postgres.Search
import Shardd.Recovery.Accounts
import Shardd.Recovery.Booked
import Shardd.Recovery.Books
import Shardd.Recovery.Contiguity
import Shardd.Recovery.Counter
import Shardd.Recovery.History
import Shardd.Recovery.Lifetime
import Shardd.Recovery.Listing
import Shardd.Recovery.Rebuild
import Shardd.Recovery.Restart
import Shardd.Recovery.Retained
import Shardd.Recovery.Start
import Shardd.Recovery.Winners
import Shardd.Registry.Backends
import Shardd.Registry.Entry
import Shardd.Registry.Merge
import Shardd.Replication.Canonical
import Shardd.Replication.CatchUp
import Shardd.Replication.Convergence
import Shardd.Replication.HeadKeys
import Shardd.Replication.OwnLog
import Shardd.Replication.Ranges
import Shardd.Sdk.Amounts
import Shardd.Sdk.Edges
import Shardd.Storage
import Shardd.Types
