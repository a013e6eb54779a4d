import Agentops.Foundations.LabelledRun
import Agentops.Foundations.KeyedTable
import Agentops.Foundations.Decimal
import Agentops.Foundations.Transaction
import Agentops.Foundations.Serialisability
import Agentops.Foundations.Coroutine
import Agentops.Foundations.DurableRun
import Agentops.Foundations.DurableSystem
import Agentops.Foundations.StateGraph
import Agentops.Store.Tables
import Agentops.Store.Statements
import Agentops.Store.Functions
import Agentops.Store.Outcomes
import Agentops.Store.Lifecycle
import Agentops.Store.Invariant
import Agentops.Store.WholeRuns
import Agentops.Store.Locking
import Agentops.Store.Concurrency
import Agentops.Workflow.Activities
import Agentops.Workflow.Workflows
import Agentops.Workflow.Service
import Agentops.Workflow.CancelRuns
import Agentops.Workflow.RefundRuns
import Agentops.Workflow.Executions
import Agentops.Workflow.Amounts
import Agentops.Workflow.ApprovalGate
import Agentops.Workflow.Decisions
import Agentops.Workflow.Endings
import Agentops.Agent.OrderIds
import Agentops.Agent.OrderTools
import Agentops.Agent.Requesters
import Agentops.Agent.Messages
import Agentops.Agent.Graph
import Agentops.Agent.Confinement
import Agentops.Agent.Termination
import Agentops.Agent.Histories
import Agentops.Foundations.Separated
import Agentops.Api.Identity
import Agentops.Store.Customers
import Agentops.Store.Noninterference
import Agentops.Foundations.Json
import Agentops.Api.Conversations
import Agentops.Agent.Tools
import Agentops.Agent.Chat
import Agentops.Agent.Callers
import Agentops.Foundations.SortedSet
import Agentops.Memory.Transcripts
import Agentops.Memory.Activity
import Agentops.Memory.Conversations
import Agentops.Memory.Provenance
import Agentops.Memory.Search
import Agentops.Memory.Isolation
import Agentops.Memory.Sweeping
import Agentops.Memory.Overtaking
import Agentops.Foundations.Backtracking
import Agentops.Agent.Guardrails
import Agentops.Agent.Streaming
import Agentops.Foundations.Splitting
import Agentops.Foundations.TextDecoder
import Agentops.Foundations.JsonText
import Agentops.Frontend.EventStream
import Agentops.Frontend.ReplyDecoding
import Agentops.Foundations.Matching
import Agentops.Foundations.Blocks
import Agentops.Foundations.Layouts
import Agentops.Foundations.Trimming
import Agentops.Foundations.Nesting
import Agentops.Foundations.Marks
import Agentops.Foundations.Following
import Agentops.Foundations.Generator
import Agentops.Foundations.Scanning
import Agentops.Agent.Reasoning
import Agentops.Agent.ReasoningDepth
import Agentops.Agent.TurnEnds
import Agentops.Agent.StreamFrames
import Agentops.Agent.Secrets
import Agentops.Agent.CardNumbers
import Agentops.Agent.SensitiveData
import Agentops.Memory.SweepIdle
import Agentops.Memory.SummaryGuards
import Agentops.Workflow.Payable
import Agentops.Foundations.Numbering
import Agentops.Store.OrderNumbers
import Agentops.Foundations.Numerals
import Agentops.Foundations.LetterCase
import Agentops.Agent.OrderIdTexts
import Agentops.Api.Orders
import Agentops.Foundations.StableSort
import Agentops.Memory.NearestRows
import Agentops.Frontend.AuthService
import Agentops.Frontend.SigningIn
import Agentops.Frontend.PlainFrames
import Agentops.Foundations.InFlight
import Agentops.Frontend.StoreService
import Agentops.Frontend.LatestListing
import Agentops.Frontend.CreatedOrders
import Agentops.Foundations.Url
import Agentops.Frontend.AuthInterceptor
import Agentops.Frontend.Reloading
import Agentops.Frontend.VisibleOrders
import Agentops.Foundations.KeyedMaps
import Agentops.Agent.Preferences
import Agentops.Foundations.Refinement
import Agentops.Frontend.AgentChat
import Agentops.Frontend.ChatTranscripts
import Agentops.Frontend.ChatReplies
import Agentops.Frontend.CustomerPortal
import Agentops.Api.Approvals
import Agentops.Workflow.Effects
import Agentops.Frontend.Sessions
import Agentops.Foundations.Base64
import Agentops.Foundations.FormUrlencoded
import Agentops.Frontend.LoginRequests
import Agentops.Frontend.TokenClaims
import Agentops.Agent.Refusals
import Agentops.Frontend.OrderForm
import Agentops.Foundations.Delays
import Agentops.Frontend.Notices
import Agentops.Foundations.RecentlyUsed
import Agentops.Agent.Models
import Agentops.Foundations.DurableProgress
import Agentops.Workflow.Progress
