import FinancialRag.Lib.Machine
import FinancialRag.Lib.PyFloat
import FinancialRag.Lib.PyText
import FinancialRag.Lib.PyList
import FinancialRag.Lib.Dict
import FinancialRag.Lib.Sweep
import FinancialRag.Lib.Regex
import FinancialRag.Lib.RankFusion
import FinancialRag.Lib.RateLimit
import FinancialRag.Lib.Proc
import FinancialRag.Lib.Executor
import FinancialRag.Lib.ExecutorCalls
import FinancialRag.Lib.ExecutorCredit
import FinancialRag.Lib.ExecutorTickets
import FinancialRag.Lib.Segments
import FinancialRag.Lib.ClassRuns
import FinancialRag.Lib.Directory
import FinancialRag.Lib.PyStr
import FinancialRag.Lib.JsText
import FinancialRag.Lib.Strip
import FinancialRag.Lib.PrefixCode
import FinancialRag.Lib.Utf8
import FinancialRag.Lib.Glob
import FinancialRag.Lib.Json
import FinancialRag.Lib.FloatFormat
import FinancialRag.Lib.FloatSum
import FinancialRag.Lib.Decimal
import FinancialRag.Lib.JsonText
import FinancialRag.Lib.JsonCode
import FinancialRag.Lib.JsonSchema
import FinancialRag.Storage.VectorModels
import FinancialRag.Storage.ChromaStore
import FinancialRag.Storage.Entries
import FinancialRag.Storage.Writes
import FinancialRag.Ingestion.DocumentLoader
import FinancialRag.Ingestion.Chunking
import FinancialRag.Ingestion.Splitting
import FinancialRag.Ingestion.Placement
import FinancialRag.Ingestion.BlockWindows
import FinancialRag.Ingestion.Merging
import FinancialRag.Ingestion.Parsing
import FinancialRag.Ingestion.Sections
import FinancialRag.Ingestion.OcrQuality
import FinancialRag.Tasks.Repository
import FinancialRag.Tasks.Worker
import FinancialRag.Tasks.AgentTasks
import FinancialRag.Tasks.KnowledgeTasks
import FinancialRag.Tasks.Exclusion
import FinancialRag.Tasks.Broker
import FinancialRag.Tasks.Wakeup
import FinancialRag.Tasks.Acknowledgement
import FinancialRag.Tasks.Record
import FinancialRag.Tasks.Success
import FinancialRag.Tasks.Charging
import FinancialRag.Tasks.Retries
import FinancialRag.Tasks.Documents
import FinancialRag.Tasks.Reindex
import FinancialRag.Tasks.PublicRefresh
import FinancialRag.Tasks.PublicBase
import FinancialRag.Tasks.BootstrapKnowledge
import FinancialRag.Retrieval.QueryEnrichment
import FinancialRag.Retrieval.Bm25Retriever
import FinancialRag.Retrieval.HybridRetriever
import FinancialRag.Retrieval.Evidence
import FinancialRag.Retrieval.Safety
import FinancialRag.Retrieval.Noninterference
import FinancialRag.Retrieval.RankFusion
import FinancialRag.Retrieval.VectorRanking
import FinancialRag.Retrieval.Channels
import FinancialRag.Retrieval.QueryPadding
import FinancialRag.Agent.PlanExecution
import FinancialRag.Agent.Schedule
import FinancialRag.Agent.Agreement
import FinancialRag.Agent.EvidenceOrder
import FinancialRag.Agent.RetrievalContract
import FinancialRag.Agent.ToolBoundary
import FinancialRag.Agent.FinancialMetricParser
import FinancialRag.Agent.MetricTokens
import FinancialRag.Agent.FinancialMetricsTool
import FinancialRag.Agent.FiniteMetrics
import FinancialRag.Agent.TaskAnalysis
import FinancialRag.Agent.QueryPlanner
import FinancialRag.Agent.Strategies
import FinancialRag.Agent.ToolCalling
import FinancialRag.Agent.RetrievalStep
import FinancialRag.Agent.Dispatch
import FinancialRag.Agent.Answering
import FinancialRag.Reliability.Mechanisms
import FinancialRag.Reliability.Engine
import FinancialRag.Reliability.Soundness
import FinancialRag.Reliability.Invocations
import FinancialRag.Reliability.CircuitBreaker
import FinancialRag.Reliability.RateLimiter
import FinancialRag.Cache.Redis
import FinancialRag.Cache.Session
import FinancialRag.Cache.Isolation
import FinancialRag.Cache.ThreadDeletion
import FinancialRag.Services.AgentRuntime
import FinancialRag.Llm.ModelRouter
import FinancialRag.Services.LlmSettings
import FinancialRag.Services.LlmRuntime
import FinancialRag.Middleware.Security
import FinancialRag.Api.Knowledge
import FinancialRag.Api.DocumentDeletion
import FinancialRag.Api.Staging
import FinancialRag.Api.Upload
import FinancialRag.Api.UploadStorage
import FinancialRag.Api.AgentSessions
import FinancialRag.Mcp.Schema
import FinancialRag.Mcp.Validation
import FinancialRag.Mcp.Exactness
import FinancialRag.Mcp.LocalAdapter
import FinancialRag.Mcp.Server
import FinancialRag.Mcp.Lifecycle
import FinancialRag.Mcp.Access
import FinancialRag.Mcp.Stdio
import FinancialRag.Mcp.Survival
import FinancialRag.Frontend.ReportPresentation
import FinancialRag.Frontend.Markdown
import FinancialRag.Frontend.ReportBuilder
import FinancialRag.Frontend.ReportRoundTrip
import FinancialRag.Training.Dataset
import FinancialRag.Training.Splits
import FinancialRag.Training.Serialization
import FinancialRag.Training.CardScan
import FinancialRag.Lib.Rounding
import FinancialRag.Lib.Discount
import FinancialRag.Evaluation.Metrics
import FinancialRag.Evaluation.Ndcg
import FinancialRag.Services.Usage
import FinancialRag.Frontend.MarkdownLines
import FinancialRag.Observability.Serialization
import FinancialRag.Observability.Calls
import FinancialRag.Observability.Redaction
import FinancialRag.Scripts.Backup
import FinancialRag.Scripts.Retention
import FinancialRag.Scripts.Publication
import FinancialRag.Api.Conversations
