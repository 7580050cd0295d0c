import Cygnus.Access.Skill
import Cygnus.Access.Document
import Cygnus.Data.Sql
import Cygnus.Publish.PipelineLaws
import Cygnus.Publish.Pipeline
import Cygnus.Queue.Serializer
import Cygnus.Queue.SerializerLaws
import Cygnus.Queue.RoundTrip
import Cygnus.Queue.RoundTripConverse
import Cygnus.Queue.Payload
import Cygnus.Queue.Plain
import Cygnus.Queue.Canonical
import Cygnus.Data.Json
import Cygnus.Data.Regex
import Cygnus.Wiki.Service
import Cygnus.Wiki.Effects
import Cygnus.Wiki.ServiceLaws
import Cygnus.Wiki.Wikilinks
import Cygnus.Data.Machine
import Cygnus.Governance.Ledger
import Cygnus.Governance.LedgerLaws
import Cygnus.Governance.ApprovalGuards
import Cygnus.Review.Contributions
import Cygnus.Review.Approval
import Cygnus.Review.Branches
import Cygnus.Review.ApprovalLaws
import Cygnus.Review.Agreement
import Cygnus.Review.Lifecycle
import Cygnus.Review.LifecycleLaws
import Cygnus.Review.LifecycleRuns
import Cygnus.Review.CreateDraft
import Cygnus.History.Revisions
import Cygnus.History.Provenance
import Cygnus.History.Approvals
import Cygnus.Dispatch.Execution
import Cygnus.Dispatch.Outbox
import Cygnus.Dispatch.OutboxLaws
import Cygnus.Dispatch.OutboxRuns
import Cygnus.Dispatch.Fencing
import Cygnus.Queue.UniqueDecoding
import Cygnus.Governance.EventLog
import Cygnus.Governance.EventLogLaws
import Cygnus.Dispatch.Interference
import Cygnus.Dispatch.RetryBudget
import Cygnus.Delivery.Channel
import Cygnus.Delivery.Sweep
import Cygnus.Delivery.ChannelLaws
import Cygnus.Delivery.SweepLaws
import Cygnus.Delivery.Rows
import Cygnus.Delivery.Acknowledged
import Cygnus.Delivery.Decisions
import Cygnus.Delivery.Attempts
import Cygnus.History.Steps
import Cygnus.History.Links
import Cygnus.Mrp.CommitLaws
import Cygnus.Session.Dispatch
import Cygnus.Substrate.SourceUrl
import Cygnus.Retrieval.KnowledgeObject
import Cygnus.Publish.Durable
import Cygnus.Publish.DurableApply
import Cygnus.Publish.DurableLaws
import Cygnus.Publish.DurableRuns
import Cygnus.Publish.Availability
import Cygnus.Publish.DurablePreview
import Cygnus.Data.JsonText
import Cygnus.Publish.Agreement
import Cygnus.Deletion.Protocol
import Cygnus.Deletion.ProtocolLaws
import Cygnus.Deletion.ProtocolRuns
import Cygnus.Governance.FeedbackRouteLaws
import Cygnus.Governance.FeedbackRouteRuns
import Cygnus.Data.ObjectStorage
import Cygnus.Skills.Versions
import Cygnus.Skills.VersionLaws
import Cygnus.Skills.VersionRuns
import Cygnus.Mrp.Staging
import Cygnus.Mrp.StagingRuns
import Cygnus.Mrp.ApprovalFence
import Cygnus.Mrp.ApprovalFenceRuns
import Cygnus.Retrieval.Contracts
import Cygnus.Retrieval.SourceTrace
import Cygnus.Retrieval.Gates
import Cygnus.Data.RegexText
import Cygnus.Substrate.SourceOutline
import Cygnus.Data.Packing
import Cygnus.Data.Spans
import Cygnus.Substrate.OutlineLaws
import Cygnus.Mrp.Writer
import Cygnus.Mrp.WriterSections
import Cygnus.Mrp.WriterTiers
import Cygnus.Data.UnionFind
import Cygnus.Mrp.Reducer
import Cygnus.Governance.ToolCommandReceipts
import Cygnus.Governance.ToolReceiptRuns
import Cygnus.Mrp.ReducerLaws
import Cygnus.Governance.ReviewAssignments
import Cygnus.Governance.ReviewAssignmentRuns
import Cygnus.Publish.PreviewLaws
import Cygnus.Retrieval.EmbeddingStorage
import Cygnus.Retrieval.EmbeddingSwitch
import Cygnus.Retrieval.EmbeddingSwitchRuns
import Cygnus.Review.DraftSteps
import Cygnus.Review.PreReview
import Cygnus.Review.PreReviewLaws
import Cygnus.Review.PreReviewMoves
import Cygnus.Review.PreReviewVerdicts
import Cygnus.Review.PreReviewTracking
import Cygnus.Review.PreReviewRuns
import Cygnus.Substrate.SourceImages
import Cygnus.Delivery.CircuitBreaker
import Cygnus.Substrate.CaptionLaws
import Cygnus.Retrieval.VerbatimChunks
import Cygnus.Substrate.SpreadsheetBounds
import Cygnus.Substrate.CsvBounds
import Cygnus.Substrate.SheetBounds
import Cygnus.Session.StrictSchema
import Cygnus.Mrp.SourceContext
import Cygnus.Data.Url
import Cygnus.Delivery.Destination
import Cygnus.Delivery.DestinationLaws
import Cygnus.Review.BranchMerge
import Cygnus.Access.SkillListing
import Cygnus.Deletion.Sweeps
import Cygnus.Review.EnqueueBudget
import Cygnus.Data.Document
import Cygnus.Data.HeadOfLine
import Cygnus.Data.PosixPath
import Cygnus.Delivery.Drain
import Cygnus.Delivery.DrainLaws
import Cygnus.Delivery.DrainProgress
import Cygnus.Substrate.DurableJobLaws
import Cygnus.Mrp.Mapper
import Cygnus.Substrate.CaptionRuns
import Cygnus.Data.PyJson
import Cygnus.Data.PyJsonLaws
import Cygnus.Data.JsonEmbedding
import Cygnus.Integrations.DeliveryConsumer
import Cygnus.Integrations.DeliveryReceipts
import Cygnus.Integrations.DeliveryRequests
import Cygnus.Integrations.DeliveryHandshake
import Cygnus.Integrations.DeliveryNetwork
import Cygnus.Integrations.OAuth
import Cygnus.Integrations.OAuthRuns
import Cygnus.Integrations.OAuthTokens
import Cygnus.Integrations.McpScope
import Cygnus.Integrations.PortalSessions
import Cygnus.Integrations.PortalRuns
import Cygnus.Retrieval.GovernedLoad
import Cygnus.Retrieval.GovernedReads
import Cygnus.Integrations.NanobotTools
import Cygnus.Integrations.GovernedTools
import Cygnus.Integrations.SessionBridge
import Cygnus.Integrations.SessionAnswers
