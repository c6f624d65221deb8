import CctvMemory.Library.Table
import CctvMemory.Library.IsoText
import CctvMemory.Domain.Enums
import CctvMemory.Publication.Store
import CctvMemory.Publication.Invariant
import CctvMemory.Publication.Summary
import CctvMemory.Authorization.Scope
import CctvMemory.Authorization.Tightening
import CctvMemory.Search.Ranking
import CctvMemory.Search.Service
import CctvMemory.Search.Postgres
import CctvMemory.Search.Confinement
import CctvMemory.Search.Outcome
import CctvMemory.Search.Overlap
import CctvMemory.Library.Like
import CctvMemory.Search.Tags
import CctvMemory.Search.Completeness
import CctvMemory.Search.Noninterference
import CctvMemory.Search.RankOrder
import CctvMemory.Search.TextMatch
import CctvMemory.Search.Tenants
import CctvMemory.Library.Act
import CctvMemory.Library.Amid
import CctvMemory.Library.Pool
import CctvMemory.Worker.Retry
import CctvMemory.Worker.VlmRetry
import CctvMemory.Worker.MotionScan
import CctvMemory.Worker.MotionWindows
import CctvMemory.Library.Picking
import CctvMemory.Worker.Frames
import CctvMemory.Worker.Unit
import CctvMemory.Worker.UnitSpec
import CctvMemory.Worker.Moves
import CctvMemory.Worker.Plan
import CctvMemory.Worker.Job
import CctvMemory.Worker.Process
import CctvMemory.Worker.Eval
import CctvMemory.Worker.Pools
import CctvMemory.Worker.Phases
import CctvMemory.Worker.Tally
import CctvMemory.Worker.Stages
import CctvMemory.Worker.Agreement
import CctvMemory.Worker.Steady
import CctvMemory.Worker.Optional
import CctvMemory.Worker.Paths
import CctvMemory.Worker.Isolation
import CctvMemory.Worker.Resume
import CctvMemory.Worker.Gate
import CctvMemory.Worker.Keys
import CctvMemory.Library.Trace
import CctvMemory.Library.Clients
import CctvMemory.Queue.Store
import CctvMemory.Queue.System
import CctvMemory.Queue.Leases
import CctvMemory.Queue.Outcomes
import CctvMemory.Queue.Heartbeat
import CctvMemory.Queue.Drain
import CctvMemory.Fleet.Orphans
import CctvMemory.Fleet.Writers
import CctvMemory.Fleet.Recovery
import CctvMemory.Fleet.Redelivery
import CctvMemory.Worker.Crash
import CctvMemory.Fleet.Sweep
import CctvMemory.Provisioning.Store
import CctvMemory.Provisioning.Chain
import CctvMemory.Provisioning.Registrations
import CctvMemory.Export.User
import CctvMemory.Search.Contexts
import CctvMemory.Search.Expiry
import CctvMemory.Search.Idle
import CctvMemory.Search.Revisions
import CctvMemory.Library.Indexed
import CctvMemory.Library.FirstCome
import CctvMemory.Ingestion.Store
import CctvMemory.Ingestion.Race
import CctvMemory.Ingestion.Service
import CctvMemory.Ingestion.Backends
import CctvMemory.Ingestion.Submission
import CctvMemory.Library.References
import CctvMemory.Maintenance.Reindex
import CctvMemory.Maintenance.VectorScores
import CctvMemory.Maintenance.Tracking
import CctvMemory.Maintenance.Convergence
import CctvMemory.Library.Base64
import CctvMemory.Library.Json
import CctvMemory.Worker.VlmInput
import CctvMemory.Worker.PayloadHash
import CctvMemory.Search.Playback
import CctvMemory.Search.Locators
import CctvMemory.Library.Cover
import CctvMemory.Worker.Windows
import CctvMemory.Library.Executor
import CctvMemory.Worker.Scheduler
import CctvMemory.Library.Tally
import CctvMemory.Search.Facets
import CctvMemory.Search.Reranker
import CctvMemory.Library.KeySort
import CctvMemory.Library.Record
import CctvMemory.Worker.CallLog
import CctvMemory.Worker.GateEvidence
import CctvMemory.Maintenance.EmbeddingFormat
import CctvMemory.Video.RingBuffer
import CctvMemory.Video.Sampling
import CctvMemory.Worker.Backoff
import CctvMemory.Search.ScopeBinding
import CctvMemory.Worker.Pacing
import CctvMemory.Provisioning.Upsert
import CctvMemory.Library.JsonScan
import CctvMemory.Worker.ModelOutput
import CctvMemory.Library.Regex
import CctvMemory.Worker.Redaction
import CctvMemory.Worker.Timeline
import CctvMemory.Ops.Outbound
import CctvMemory.Worker.FrameUnits
import CctvMemory.Storage.WriteSections
import CctvMemory.Queue.Postgres
import CctvMemory.Publication.Postgres
import CctvMemory.Worker.GateRunner
