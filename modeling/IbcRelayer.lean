import IbcRelayer.Lib.CallTree
import IbcRelayer.Lib.Protocol
import IbcRelayer.Lib.Machine
import IbcRelayer.Lib.Escape
import IbcRelayer.Lib.Ttl
import IbcRelayer.Golang
import IbcRelayer.ProcessorMw
import IbcRelayer.Processor.Check
import IbcRelayer.Processor.Submitted
import IbcRelayer.Processor.Batch
import IbcRelayer.Processor.Finish
import IbcRelayer.PipelineOpts
import IbcRelayer.Pipeline
import IbcRelayer.RelayApi
import IbcRelayer.RelayCall
import IbcRelayer.Dispatcher
import IbcRelayer.Bridge.Once
import IbcRelayer.Bridge.Client
import IbcRelayer.Bridge.TxOnce
import IbcRelayer.Spec.Basic
import IbcRelayer.Spec.Processor
import IbcRelayer.Spec.Batch
import IbcRelayer.Spec.Wrapper
import IbcRelayer.Spec.BatchWrapper
import IbcRelayer.Spec.Stage
import IbcRelayer.Spec.Pass
import IbcRelayer.Spec.Flow
import IbcRelayer.Spec.Insert
import IbcRelayer.Spec.Task
import IbcRelayer.Spec.System
import IbcRelayer.LifeCycle
import IbcRelayer.Agreement
import IbcRelayer.Passage
import IbcRelayer.Delivery
import IbcRelayer.Completion
import IbcRelayer.StageOutput
import IbcRelayer.Snapshot
import IbcRelayer.Routes
import IbcRelayer.Exclusion
import IbcRelayer.GasCost
import IbcRelayer.Requests
import IbcRelayer.Sequences
import IbcRelayer.TxHashes
import IbcRelayer.Cancellation
import IbcRelayer.Lib.Proc
import IbcRelayer.Lib.Proc.Live
import IbcRelayer.Lib.Proc.Drive
import IbcRelayer.Goroutines
import IbcRelayer.Spec.Goroutines
import IbcRelayer.Batching
import IbcRelayer.Deduper
import IbcRelayer.Spec.Deduper
import IbcRelayer.SingleFlight
import IbcRelayer.Lib.Proc.Fill
import IbcRelayer.Spec.Fill
import IbcRelayer.Deadlock
import IbcRelayer.Submissions
import IbcRelayer.Recording
import IbcRelayer.Bridge.Evm
import IbcRelayer.Bridge.Cosmos
import IbcRelayer.Finality
import IbcRelayer.Forgery
import IbcRelayer.Packets
import IbcRelayer.ClientUpdates
import IbcRelayer.Retry
import IbcRelayer.Polling
import IbcRelayer.CostTracker
import IbcRelayer.Resolution
import IbcRelayer.PriceCache
import IbcRelayer.Pricing
import IbcRelayer.Caching
import IbcRelayer.Lookup
import IbcRelayer.Expiry
import IbcRelayer.Counters
import IbcRelayer.Accounting
import IbcRelayer.Lib.Mutex
import IbcRelayer.Bridge.Deliver
import IbcRelayer.Pacing
import IbcRelayer.Nonces
import IbcRelayer.Interleaving
import IbcRelayer.Provenance
import IbcRelayer.Retention
import IbcRelayer.Lib.Store
import IbcRelayer.TransferStats
import IbcRelayer.InFlight
import IbcRelayer.Ledger
import IbcRelayer.Solo
import IbcRelayer.Obliging
import IbcRelayer.Recovery
import IbcRelayer.Bridge.Find
import IbcRelayer.Commitments
import IbcRelayer.Evidence
