import MultiPartEvent.Actions
import MultiPartEvent.Calls
import MultiPartEvent.Cli.ByteFiles
import MultiPartEvent.Cli.CommandLine
import MultiPartEvent.Cli.Entries
import MultiPartEvent.Cli.Exactness
import MultiPartEvent.Cli.Flags
import MultiPartEvent.Cli.IndexerSource
import MultiPartEvent.Cli.Levels
import MultiPartEvent.Cli.Listing
import MultiPartEvent.Cli.LostProblems
import MultiPartEvent.Cli.Main
import MultiPartEvent.Cli.Offline
import MultiPartEvent.Cli.Options
import MultiPartEvent.Cli.Reports
import MultiPartEvent.Cli.SavedBytes
import MultiPartEvent.Cli.Soundness
import MultiPartEvent.Cli.Verify
import MultiPartEvent.ContractExamples.Board
import MultiPartEvent.ContractExamples.Notice
import MultiPartEvent.ContractExamples.Whitelist
import MultiPartEvent.Contracts
import MultiPartEvent.Cooperation
import MultiPartEvent.DeployTools.Artifacts
import MultiPartEvent.DeployTools.CacheFiles
import MultiPartEvent.DeployTools.CacheOwner
import MultiPartEvent.DeployTools.CacheSaving
import MultiPartEvent.DeployTools.CircuitCall
import MultiPartEvent.DeployTools.CommandRuns
import MultiPartEvent.DeployTools.CommandState
import MultiPartEvent.DeployTools.CommandSteps
import MultiPartEvent.DeployTools.Commands
import MultiPartEvent.DeployTools.Deploy
import MultiPartEvent.DeployTools.FileTree
import MultiPartEvent.DeployTools.Files
import MultiPartEvent.DeployTools.Inclusion
import MultiPartEvent.DeployTools.IntentChecks
import MultiPartEvent.DeployTools.Limiter
import MultiPartEvent.DeployTools.OpenSession
import MultiPartEvent.DeployTools.ProofRequests
import MultiPartEvent.DeployTools.ProofRuns
import MultiPartEvent.DeployTools.Prover
import MultiPartEvent.DeployTools.Publication
import MultiPartEvent.DeployTools.RecordFirst
import MultiPartEvent.DeployTools.Repositories
import MultiPartEvent.DeployTools.Secrets
import MultiPartEvent.DeployTools.SessionRules
import MultiPartEvent.DeployTools.SharedRecord
import MultiPartEvent.DeployTools.Tool
import MultiPartEvent.DeployTools.ToolRecords
import MultiPartEvent.DeployTools.ToolRuns
import MultiPartEvent.DeployTools.TransactionProver
import MultiPartEvent.DeployTools.VerifiedRecords
import MultiPartEvent.DeployTools.WalletCache
import MultiPartEvent.DeployTools.WalletSession
import MultiPartEvent.DeployTools.WalletSync
import MultiPartEvent.Errors
import MultiPartEvent.Indexer.Accounting
import MultiPartEvent.Indexer.Conversion
import MultiPartEvent.Indexer.HexText
import MultiPartEvent.Indexer.NodeCheck
import MultiPartEvent.Indexer.Paging
import MultiPartEvent.Indexer.PagingEnds
import MultiPartEvent.Indexer.Requests
import MultiPartEvent.Indexer.Restoration
import MultiPartEvent.Indexer.Waiting
import MultiPartEvent.Interleaving
import MultiPartEvent.Journal
import MultiPartEvent.Js.Date
import MultiPartEvent.Js.FileText
import MultiPartEvent.Js.InsertionMap
import MultiPartEvent.Js.Json
import MultiPartEvent.Js.JsonParse
import MultiPartEvent.Js.JsonReader
import MultiPartEvent.Js.JsonValues
import MultiPartEvent.Js.Malformed
import MultiPartEvent.Js.Numbers
import MultiPartEvent.Js.StrictUtf8
import MultiPartEvent.Js.Text
import MultiPartEvent.Js.Utf8
import MultiPartEvent.Ledger
import MultiPartEvent.Polling
import MultiPartEvent.Publisher.Assembly
import MultiPartEvent.Publisher.Compose
import MultiPartEvent.Publisher.EntryPoints
import MultiPartEvent.Publisher.Finalize
import MultiPartEvent.Publisher.Gate
import MultiPartEvent.Publisher.Generic
import MultiPartEvent.Publisher.Guard
import MultiPartEvent.Publisher.GuardReader
import MultiPartEvent.Publisher.Merge
import MultiPartEvent.Publisher.OneIntent
import MultiPartEvent.Publisher.Parts
import MultiPartEvent.Publisher.Record
import MultiPartEvent.Publisher.Submission
import MultiPartEvent.Reader.Activity
import MultiPartEvent.Reader.Bytes
import MultiPartEvent.Reader.DeliveryOrder
import MultiPartEvent.Reader.Event
import MultiPartEvent.Reader.Extraction
import MultiPartEvent.Reader.Grouping
import MultiPartEvent.Reader.Level2
import MultiPartEvent.Reader.Merging
import MultiPartEvent.Reader.MultiPartRule
import MultiPartEvent.Reader.Packages
import MultiPartEvent.Reader.Sources
import MultiPartEvent.Reader.Transaction
import MultiPartEvent.Reader.VerifyTransaction
import MultiPartEvent.Retrying
import MultiPartEvent.Semaphore
import MultiPartEvent.Transcripts
import MultiPartEvent.Transitions
