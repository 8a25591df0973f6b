import AgentLearning.Lib.Dict
import AgentLearning.Lib.Prog
import AgentLearning.Lib.Dag
import AgentLearning.Lib.Lease
import AgentLearning.Lib.Table
import AgentLearning.Lib.Trace
import AgentLearning.Lib.RecordHash
import AgentLearning.Value
import AgentLearning.Planner
import AgentLearning.Replanner
import AgentLearning.Store
import AgentLearning.StoreProgram
import AgentLearning.TaskQueue
import AgentLearning.RedisQueue
import AgentLearning.DistributedLock
import AgentLearning.MemoryBackend
import AgentLearning.SharedMemory
import AgentLearning.Recovery
import AgentLearning.ConfigBackend
import AgentLearning.ConfigCenter
import AgentLearning.MessageBus
import AgentLearning.Dispatcher
import AgentLearning.ToolCenter
import AgentLearning.Validator
import AgentLearning.CircuitBreaker
import AgentLearning.Authorizer
import AgentLearning.Arbitrator
import AgentLearning.Proofs.CircuitCounts
import AgentLearning.Proofs.CircuitRestart
import AgentLearning.RateLimiter
import AgentLearning.RagCache
import AgentLearning.Context
import AgentLearning.Gateway
import AgentLearning.Executor
import AgentLearning.Execute
import AgentLearning.Proofs.Validate
import AgentLearning.Proofs.Rename
import AgentLearning.Proofs.Replan
import AgentLearning.Proofs.ReplanIds
import AgentLearning.Proofs.StoreOps
import AgentLearning.Proofs.StoreInvariant
import AgentLearning.Proofs.ReplanChain
import AgentLearning.Proofs.SingleStep
import AgentLearning.Proofs.MainThread
import AgentLearning.Proofs.Run
import AgentLearning.Proofs.Protocol
import AgentLearning.Proofs.Safety
import AgentLearning.Proofs.Guards
import AgentLearning.Proofs.Snapshots
import AgentLearning.Proofs.Termination
import AgentLearning.Proofs.Handoff
import AgentLearning.Proofs.Outcome
import AgentLearning.Proofs.Resubmit
import AgentLearning.Proofs.QueuePool
import AgentLearning.Proofs.QueueRun
import AgentLearning.Proofs.RedisClients
import AgentLearning.Proofs.Custody
import AgentLearning.Proofs.ClientSafety
import AgentLearning.Proofs.InMemoryLock
import AgentLearning.Proofs.RedisLock
import AgentLearning.Proofs.MemoryOps
import AgentLearning.Proofs.MemoryVersions
import AgentLearning.Proofs.CompareAndSet
import AgentLearning.Proofs.MemoryPaths
import AgentLearning.Proofs.Sweep
import AgentLearning.Proofs.SweepRuns
import AgentLearning.Proofs.SweepStages
import AgentLearning.Proofs.InterruptedSweeps
import AgentLearning.Proofs.ConcurrentSweeps
import AgentLearning.Proofs.ConfigBackends
import AgentLearning.Proofs.ConfigVersions
import AgentLearning.Proofs.BusDelivery
import AgentLearning.Proofs.DispatchBudget
import AgentLearning.Proofs.ActiveVersion
import AgentLearning.Proofs.NamedVersion
import AgentLearning.Proofs.ToolPolicy
import AgentLearning.Proofs.Arbitration
import AgentLearning.Proofs.TokenBucket
import AgentLearning.Proofs.FreeChecks
import AgentLearning.Proofs.RetryAfter
import AgentLearning.Proofs.QuotaAdmission
import AgentLearning.Proofs.CacheSteps
import AgentLearning.Proofs.CacheRoles
import AgentLearning.Proofs.CacheRecency
import AgentLearning.Retriever
import AgentLearning.Proofs.RetrievalLeak
import AgentLearning.Proofs.RankFusion
import AgentLearning.AbRouter
import AgentLearning.Proofs.TrafficSplit
import AgentLearning.ErrorBudget
import AgentLearning.Proofs.BudgetVerdict
import AgentLearning.KeywordIndex
import AgentLearning.Proofs.KeywordSearch
import AgentLearning.Compressor
import AgentLearning.Proofs.Compression
import AgentLearning.ContractValidator
import AgentLearning.ProtocolValidator
import AgentLearning.Proofs.ContractSchemas
import AgentLearning.Proofs.MessageContract
import AgentLearning.Proofs.ToolSchemas
import AgentLearning.Proofs.PlanGraph
import AgentLearning.Proofs.Redaction
import AgentLearning.Proofs.LockRelease
import AgentLearning.Proofs.WatchDelivery
import AgentLearning.Proofs.PoolAccounting
import AgentLearning.Proofs.TerminalTasks
import AgentLearning.Proofs.FailingSubscribers
import AgentLearning.Proofs.CircuitPromises
import AgentLearning.Lib.OrderStatistic
import AgentLearning.Lib.FoldBy
import AgentLearning.Scorer
import AgentLearning.LatencyAnalyzer
import AgentLearning.Proofs.NearestRank
import AgentLearning.Proofs.GroupMetrics
import AgentLearning.Proofs.IdempotencyKeys
import AgentLearning.Chaos
import AgentLearning.Lib.Representatives
import AgentLearning.Proofs.FaultRestoration
import AgentLearning.Proofs.ResilienceMean
import AgentLearning.Metrics
import AgentLearning.Proofs.MetricSeries
import AgentLearning.Lib.ComparisonSort
import AgentLearning.ErrorBucket
import AgentLearning.Proofs.FailureHistograms
import AgentLearning.EvaluationRunner
import AgentLearning.Proofs.ExpectedErrors
import AgentLearning.RequestPlanning
import AgentLearning.Application
import AgentLearning.Proofs.RequestPlanning
import AgentLearning.Proofs.ContractForms
import AgentLearning.Proofs.ReportedErrors
import AgentLearning.Proofs.ContractFiles
import AgentLearning.Proofs.Application
import AgentLearning.Proofs.SessionStart
import AgentLearning.Proofs.TransientFailures
import AgentLearning.RedisBackend
import AgentLearning.Proofs.MemoryBackends
import AgentLearning.Proofs.CircuitBackends
import AgentLearning.ConfigScripts
import AgentLearning.Proofs.ConfigScripts
import AgentLearning.Lib.Buffered
import AgentLearning.Observability
import AgentLearning.Proofs.Spans
import AgentLearning.Proofs.GatewayResults
import AgentLearning.Proofs.DatasetSummaries
import AgentLearning.Lib.WorkerPool
import AgentLearning.Reranker
import AgentLearning.RagEvaluation
import AgentLearning.Proofs.AnswerMetrics
import AgentLearning.Replay
import AgentLearning.Proofs.CapturedTraffic
