import McpOps.Agent.AtGateway
import McpOps.Agent.Governance
import McpOps.Agent.Service
import McpOps.Capabilities.LowestRisk
import McpOps.Capabilities.Prerequisites
import McpOps.Capabilities.Sequences
import McpOps.Discovery.Authorization
import McpOps.Discovery.Coverage
import McpOps.Discovery.Intent
import McpOps.Discovery.Retrieval
import McpOps.Discovery.RetrievalSafety
import McpOps.Gateway.ApprovalOrder
import McpOps.Gateway.ApprovalSafety
import McpOps.Gateway.ApprovalTransactions
import McpOps.Gateway.ArgumentHashes
import McpOps.Gateway.ExecutesOnce
import McpOps.Gateway.Idempotency
import McpOps.Gateway.IdempotencyCapacity
import McpOps.Gateway.Isolation
import McpOps.Gateway.JwtAuth
import McpOps.Gateway.RefusedWrites
import McpOps.Gateway.RemoteTotality
import McpOps.Gateway.SqlGateway
import McpOps.Gateway.SqlIdempotency
import McpOps.Gateway.SqlRateLimits
import McpOps.Gateway.Totality
import McpOps.Knowledge.IngestionSafety
import McpOps.Knowledge.SearchOrder
import McpOps.Lib.Interleaving
import McpOps.Lib.Lockstep
import McpOps.Lib.Ranking
import McpOps.Lib.Rounding
import McpOps.Observability.Secrets
import McpOps.Planner.CircuitBreaker
import McpOps.Planner.ConditionTexts
import McpOps.Planner.Deterministic
import McpOps.Planner.DeterministicPlans
import McpOps.Planner.LlmPlanSafety
import McpOps.Planner.NodeIds
import McpOps.Planner.ReferencePaths
import McpOps.Policy.PromptInjection
import McpOps.Policy.RegistrationSafety
import McpOps.Python.Numbers
import McpOps.Python.Regex
import McpOps.Python.Sorting
import McpOps.Simulator.AlertReasons
import McpOps.Simulator.Health
import McpOps.Simulator.Telemetry
import McpOps.Tools.Configurations
import McpOps.Tools.DiagnosticsSafety
import McpOps.Tools.JobLogs
import McpOps.Tools.ServiceViews
import McpOps.Tools.TicketCreation
import McpOps.Workflow.Approvals
import McpOps.Workflow.Cancellation
import McpOps.Workflow.ConditionSafety
import McpOps.Workflow.Conditions
import McpOps.Workflow.Graph
import McpOps.Workflow.HoldUps
import McpOps.Workflow.Outbox
import McpOps.Workflow.OutputPaths
import McpOps.Workflow.PlannedFields
import McpOps.Workflow.Planning
import McpOps.Workflow.PlanningSafety
import McpOps.Workflow.PolicyEnforcement
import McpOps.Workflow.RetryBudget
import McpOps.Workflow.SettledCalls
import McpOps.Workflow.SqlRuns
import McpOps.Workflow.Structure
import McpOps.Workflow.Waiting
