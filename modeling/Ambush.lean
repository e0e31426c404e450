import Ambush.Lib.Maps
import Ambush.Lib.Ints
import Ambush.Lib.Runs
import Ambush.Lib.Results
import Ambush.Lib.Quorum
import Ambush.Lib.Coding
import Ambush.Lib.Chains
import Ambush.Lib.Utf16
import Ambush.Lib.Files
import Ambush.Lib.Tables
import Ambush.Core.Value
import Ambush.Core.Canonical
import Ambush.Core.Rfc8785
import Ambush.Core.Json
import Ambush.Core.Reading
import Ambush.Core.Unambiguous
import Ambush.Core.Signing
import Ambush.Core.Coding
import Ambush.Core.Types
import Ambush.Consensus.Committee
import Ambush.Consensus.Messages
import Ambush.Consensus.Receipts
import Ambush.Consensus.Ledger
import Ambush.Consensus.Node
import Ambush.Consensus.Transport
import Ambush.Consensus.Effects
import Ambush.Consensus.Calls
import Ambush.Consensus.Heads
import Ambush.Consensus.Quorums
import Ambush.Consensus.Moves
import Ambush.Consensus.Voting
import Ambush.Consensus.Network
import Ambush.Consensus.Agreement
import Ambush.Consensus.Safety
import Ambush.Consensus.Readiness
import Ambush.Consensus.Exclusion
import Ambush.Consensus.Confinement
import Ambush.Consensus.Rejection
import Ambush.Consensus.Account
import Ambush.Consensus.Disclosure
import Ambush.Consensus.Quiet
import Ambush.Consensus.DriveCalls
import Ambush.Consensus.Budget
import Ambush.Policy.Gate
import Ambush.Policy.Lease
import Ambush.Policy.RateLimit
import Ambush.Policy.Configurable
import Ambush.Governance.Lease
import Ambush.Governance.Targets
import Ambush.Runtime.HeldAction
import Ambush.Runtime.HoldFiles
import Ambush.Runtime.Decisions
import Ambush.Runtime.Abandon
import Ambush.Runtime.DispatchJournal
import Ambush.Runtime.Replay
import Ambush.Runtime.LiveJournal
import Ambush.Runtime.AtMostOnce
import Ambush.Governance.State
import Ambush.Governance.Policy
import Ambush.Governance.Calls
import Ambush.Governance.LeaseBook
import Ambush.Governance.BlastRadius
import Ambush.Governance.Keyless
import Ambush.Governance.ReceiptChain
import Ambush.Governance.Reconciliation
import Ambush.Governance.Minting
import Ambush.Governance.Preview
import Ambush.Bridge.Events
import Ambush.Bridge.Coalesce
import Ambush.Bridge.Windows
import Ambush.Bridge.Cards
import Ambush.Bridge.Spool
import Ambush.Bridge.ChainHeads
import Ambush.Bridge.Pacer
import Ambush.Bridge.Gaps
import Ambush.Bridge.Postings
import Ambush.Bridge.Holds
import Ambush.Bridge.Numbering
import Ambush.Bridge.Continuity
import Ambush.Lib.LittleEndian
import Ambush.Bridge.Segment
import Ambush.Bridge.DiskSpool
import Ambush.Bridge.Sequences
import Ambush.Bridge.Routing
import Ambush.Bridge.CaseChannels
import Ambush.Bridge.HoldPlans
import Ambush.Bridge.HoldCards
import Ambush.Lib.Logs
import Ambush.Pheromone.Deposits
import Ambush.Pheromone.Collection
import Ambush.Pheromone.Journal
import Ambush.Runtime.Escalation
import Ambush.Runtime.SharedMode
import Ambush.Response.Containment
import Ambush.Response.Releases
import Ambush.Runtime.Lanes
import Ambush.Runtime.LaneAgreement
import Ambush.Lib.Multimaps
import Ambush.Acp.Queue
import Ambush.Acp.Accounting
import Ambush.Core.Uuid
import Ambush.Lib.Levels
import Ambush.Core.Merkle
import Ambush.Lib.Loops
import Ambush.Relay.Filters
import Ambush.Relay.Subscriptions
import Ambush.Relay.FanOut
import Ambush.Relay.Interleavings
import Ambush.Lib.Texts
import Ambush.Tunnel.Directory
import Ambush.Tunnel.Fencing
import Ambush.Lib.Programs
import Ambush.Lib.Sets
import Ambush.Git.Manifest
import Ambush.Git.ManifestText
import Ambush.Git.Store
import Ambush.Git.Publish
import Ambush.Git.Invariant
import Ambush.Git.NoFork
import Ambush.Git.PackCache
import Ambush.Git.PackFlights
import Ambush.Git.PackRuns
import Ambush.Git.ManifestSize
import Ambush.Git.Readable
import Ambush.Git.Snapshot
import Ambush.Git.Closed
import Ambush.Git.Protection
import Ambush.Lib.Sql
import Ambush.Deletion.Stages
import Ambush.Deletion.Manifest
import Ambush.Deletion.KeyStreams
import Ambush.Deletion.Store
import Ambush.Deletion.System
import Ambush.Deletion.Effects
import Ambush.Deletion.Serving
import Ambush.Deletion.Lifecycle
import Ambush.Pairing.Session
import Ambush.Pairing.Calls
import Ambush.Pairing.Plain
import Ambush.Pairing.Safety
import Ambush.Spine.ReplayStore
import Ambush.Spine.EnvelopeChains
import Ambush.Lib.Frames
import Ambush.Bridge.RecordStream
import Ambush.Bridge.Shelves
import Ambush.Bridge.Housed
import Ambush.Bridge.Reopening
import Ambush.Bridge.Histories
import Ambush.Bridge.CrashRecovery
import Ambush.Bridge.TornWrites
import Ambush.Bridge.Fouled
import Ambush.Bridge.FailedAppends
import Ambush.Bridge.Evictions
import Ambush.Lib.Picking
import Ambush.Runtime.EventWindow
import Ambush.Runtime.KillChains
import Ambush.Acp.Retries
import Ambush.Acp.Idle
import Ambush.Acp.Order
import Ambush.Runtime.RisingEdges
import Ambush.Response.Resilience
import Ambush.Bridge.Parked
import Ambush.Bridge.AlarmDrainer
import Ambush.Bridge.Rotation
import Ambush.Pheromone.Sources
import Ambush.Pheromone.Intel
import Ambush.Lib.LineFiles
import Ambush.Core.SignedState
import Ambush.Pheromone.Disk
import Ambush.Pheromone.DiskLogs
import Ambush.Pheromone.TornJournal
import Ambush.Lib.PrefixCodes
import Ambush.Audit.CanonicalJson
import Ambush.Audit.Hash
import Ambush.Audit.Chain
import Ambush.Lib.Substrings
import Ambush.Bridge.Markers
import Ambush.Lib.TypedStores
import Ambush.Workflow.Conditions
