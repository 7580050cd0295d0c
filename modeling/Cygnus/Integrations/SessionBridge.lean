import Cygnus.Integrations.NanobotTools

/-! The query handoff of an agent session. The session remembers what it was told, but every reply is
worked out from the snapshot again. -/

namespace Cygnus.Integrations

open Wiki Domain Publish Retrieval Text Result

section Requests

inductive GovernanceDisposition
  | answerable
  | restricted
  | fallback
  | escalate
  deriving DecidableEq

def GovernanceDisposition.value : GovernanceDisposition → String
  | .answerable => "answerable"
  | .restricted => "restricted"
  | .fallback => "fallback"
  | .escalate => "escalate"

inductive ContinuityDisposition
  | started
  | revalidated
  | refreshed
  | invalidated
  deriving DecidableEq

def ContinuityDisposition.value : ContinuityDisposition → String
  | .started => "started"
  | .revalidated => "revalidated"
  | .refreshed => "refreshed"
  | .invalidated => "invalidated"

/-- What a reply says it rests on, and what the next request may say of the reply before. -/
structure GovernanceContext where
  governanceState : GovernanceDisposition
  audienceContext : AudienceContext
  objectId : Option String := none
  objectVersion : Option Nat := none
  traceRef : Option String := none
  freshness : Option FreshnessAttestation := none
  deriving DecidableEq

structure GovernedQueryRequest where
  requestRef : NonBlank
  query : NonBlank
  audienceContext : AudienceContext
  channel : RequiredText
  sessionRef : Option NonBlank := none
  objectTypes : List String := []
  limit : Nat := 5
  previousGovernanceContext : Option GovernanceContext := none
  limited : 1 ≤ limit ∧ limit ≤ 10 := by decide

end Requests

section Decisions

structure DeliveryVerdict where
  delivered : Bool
  code : String
  reason : String

def sourceBlindnessTraceSpots : List String :=
  ["object_has_no_evidence", "object_has_no_readable_evidence", "object_identity_mismatch",
    "source_evidence_incomplete"]

def deliveryTraceBlindSpots : List String :=
  ["signed_delivery_not_current", "publication_delivery_trace_mismatch"]

structure GovernanceDecision where
  disposition : GovernanceDisposition
  codes : List String
  directives : List String
  exposeContent : Bool

/-- A trace that is not known to be fresh. -/
def withheldFor (codes : List String) : GovernanceDecision where
  disposition := .restricted
  codes := codes
  directives := ["withhold_answer_content", "show_governance_warning",
    "require_human_check_before_external_use"]
  exposeContent := false

def governanceDecision (hit : KnowledgeObjectHit) (trace : SourceTrace) (verdict : DeliveryVerdict) :
    GovernanceDecision :=
  let severe := trace.blindSpots.filter fun blindSpot =>
    blindSpot ∈ sourceBlindnessTraceSpots ||
      "missing_evidence:".toList.isPrefixOf blindSpot.toList
  if severe ≠ [] then
    ⟨.escalate, "source_blindness" :: severe ++ ["escalate_required"],
      ["withhold_answer_content", "escalate_to_human"], false⟩
  else
    let deliveryCodes := trace.blindSpots.filter (· ∈ deliveryTraceBlindSpots) ++
      if verdict.delivered then [] else [verdict.code]
    if deliveryCodes ≠ [] then
      ⟨.restricted, (deliveryCodes ++ ["not_delivered_to_channel", "propagation_pending",
          "do_not_present_as_answered"]).eraseDups,
        ["withhold_answer_content", "do_not_present_as_answered", "offer_human_escalation",
          "check_propagation_status"], false⟩
    else
      let codes := if hit.audienceMatch = .everyone then ["partial_audience_match"] else []
      match trace.freshness with
      | .stale => withheldFor (codes ++ ["stale_evidence", "fallback_suggested"])
      | .unknown => withheldFor (codes ++ ["freshness_unknown", "fallback_suggested"])
      | .fresh => ⟨.answerable, codes, ["answer_from_governed_object"], true⟩

structure Continuity where
  state : ContinuityDisposition
  reasons : List String
  governanceContext : GovernanceContext

/-- The names of what changed. -/
def contextChanges (previous current : GovernanceContext) : List String :=
  (if previous.objectId ≠ current.objectId then ["object_changed"] else []) ++
    (if previous.objectVersion ≠ current.objectVersion then ["object_version_changed"] else []) ++
    (if previous.traceRef ≠ current.traceRef then ["trace_changed"] else []) ++
    (if previous.freshness ≠ current.freshness then ["freshness_changed"] else []) ++
    if previous.governanceState ≠ current.governanceState then ["governance_state_changed"] else []

def evaluateContinuity (previous : Option GovernanceContext) (current : GovernanceContext)
    (audienceContext : AudienceContext) : Continuity :=
  match previous with
  | none => ⟨.started, ["no_prior_governance_context"], current⟩
  | some previous =>
    if previous.audienceContext ≠ audienceContext then
      ⟨.invalidated, ["audience_context_changed"], current⟩
    else
      let reasons := contextChanges previous current
      if reasons ≠ [] then ⟨.refreshed, reasons, current⟩
      else ⟨.revalidated, ["governed_truth_rechecked"], current⟩

inductive ObjectContent
  | answer (answer : String) (variantLabel : Option NonBlank) (caveats constraints : List String)
  | troubleshooting (problemStatement : String) (prerequisites steps stopConditions : List String)
      (escalationRouteId : Option String)
  | policy (ruleStatement : String) (effectiveConditions exceptions humanOverrideNotes : List String)
  | knownIssue (issueSummary workaround issueStatus : String) (expectedNextUpdate : Option String)
  | escalation (triggerConditions : List String) (destinationTeam : String)
      (requiredContext : List String) (severityHint : Option String)

def objectContent (object : GovernedObject) (context : AudienceContext) : ObjectContent :=
  match object.body with
  | .answerCard card =>
    match card.audienceVariants.find? (·.audienceFilter.matchesContext context) with
    | some variant => .answer variant.content.1 variant.label variant.caveats card.constraints
    | none => .answer card.canonicalAnswer none [] card.constraints
  | .troubleshootingFlow flow => .troubleshooting flow.problemStatement flow.prerequisites flow.steps
      flow.stopConditions flow.escalationRouteId
  | .policyRule rule => .policy rule.ruleStatement rule.effectiveConditions rule.exceptions
      rule.humanOverrideNotes
  | .knownIssuePage issue => .knownIssue issue.issueSummary issue.workaround issue.issueStatus
      issue.expectedNextUpdate
  | .escalationRoute route => .escalation route.triggerConditions route.destinationTeam
      route.requiredContext route.severityHint

end Decisions

section Replies

structure GovernedAnswer where
  hit : KnowledgeObjectHit
  content : Option ObjectContent
  allowedChannels : List String
  usage : String
  directExternalUse : Bool

def answerProjection (object : GovernedObject) (hit : KnowledgeObjectHit) (context : AudienceContext)
    (decision : GovernanceDecision) (allowedChannels : List String) : GovernedAnswer where
  hit := hit
  content := if decision.exposeContent then some (objectContent object context) else none
  allowedChannels := allowedChannels
  usage := if decision.disposition = .answerable then "direct"
    else if decision.exposeContent then "internal_reference_only" else "withheld"
  directExternalUse := decision.disposition = .answerable

structure QueryReply where
  status : String
  summary : String
  disposition : GovernanceDisposition
  codes : List String
  directives : List String
  answer : Option GovernedAnswer
  sourceTrace : Option SourceTrace
  alternatives : List KnowledgeObjectHit
  continuity : Continuity
  /-- The tools the reply went through, each with the reference it looked up. -/
  toolTrace : List (String × Option String)
  traceRef : Option String

def statusFor : GovernanceDisposition → String
  | .answerable => "success"
  | .fallback => "not_found"
  | _ => "denied"

def summaryFor (disposition : GovernanceDisposition) (title : String) : String :=
  match disposition with
  | .answerable => s!"Governed answer ready from {title}."
  | .restricted => s!"Governed knowledge found in {title}, but direct use is restricted."
  | _ => s!"Governed knowledge found in {title}, but source evidence requires escalation."

inductive BridgeError
  | retrieval (error : PublishError)
  | unresolvedReference

variable (env : Platform) (snapshot : GovernedSnapshot)

def snapshotDeliveryVerdict (objectId : String) (request : GovernedQueryRequest) : DeliveryVerdict :=
  if snapshot.toSubstrate.deliveryVerdict objectId request.channel.1 (some request.audienceContext) then
    ⟨true, "delivered", "Current signed delivery receipt covers this channel and audience."⟩
  else ⟨false, "propagation_pending",
    "Current signed delivery receipt is unavailable for this channel and audience."⟩

/-- The search of the request, of which the two diagnostic probes are variants. -/
def GovernedQueryRequest.search (request : GovernedQueryRequest) : ObjectSearch where
  query := request.query.1
  audienceContext := some request.audienceContext
  objectTypes := request.objectTypes
  channel := some request.channel.1
  limit := request.limit

/-- Why nothing is answered, from what the two probes find. -/
structure NoAnswer where
  disposition : GovernanceDisposition
  codes : List String
  directives : List String
  summary : String

def noAnswer (unpublishedHits anyAudienceHits : List KnowledgeObjectHit) : NoAnswer :=
  if unpublishedHits ≠ [] then
    ⟨.restricted, ["pending_review"], ["wait_for_review", "do_not_present_as_answered"],
      "A matching knowledge object exists but is not published."⟩
  else if anyAudienceHits ≠ [] then
    ⟨.restricted, ["audience_restricted"],
      ["do_not_expose_restricted_object", "offer_human_escalation"],
      "Matching knowledge exists outside the requested audience boundary."⟩
  else
    ⟨.fallback, ["no_governed_match", "fallback_suggested"],
      ["offer_human_escalation", "do_not_present_as_answered"],
      "No governed knowledge object can answer this query."⟩

def noAnswerResponse (request : GovernedQueryRequest) : Except BridgeError QueryReply := do
  let unpublishedHits ← (snapshot.searchObjects env
    { request.search with includeUnpublished := true }).mapError .retrieval
  let anyAudienceHits ← (snapshot.searchObjects env
    { request.search with audienceContext := none, matchAudience := false }).mapError .retrieval
  let reason := noAnswer unpublishedHits anyAudienceHits
  return {
    status := statusFor reason.disposition, summary := reason.summary,
    disposition := reason.disposition, codes := reason.codes, directives := reason.directives,
    answer := none, sourceTrace := none, alternatives := [],
    continuity := evaluateContinuity request.previousGovernanceContext
      { governanceState := reason.disposition, audienceContext := request.audienceContext }
      request.audienceContext,
    toolTrace := [("search_knowledge_objects", none)], traceRef := none }

/-- `_query`, for the best hit and the others. -/
def selectedResponse (request : GovernedQueryRequest) (selected : KnowledgeObjectHit)
    (others : List KnowledgeObjectHit) : Except BridgeError QueryReply := do
  let object := readObject snapshot selected.objectId
  let trace ← (readTrace env snapshot selected.objectId request.audienceContext
    request.channel.1).mapError .retrieval
  match object, trace with
  | some object, some trace =>
    let verdict := snapshotDeliveryVerdict snapshot selected.objectId request
    let decision := governanceDecision selected trace verdict
    return {
      status := statusFor decision.disposition,
      summary := summaryFor decision.disposition object.title,
      disposition := decision.disposition, codes := decision.codes,
      directives := decision.directives,
      answer := some (answerProjection object selected request.audienceContext decision
        (if verdict.delivered then [request.channel.1] else [])),
      sourceTrace := some trace, alternatives := others,
      continuity := evaluateContinuity request.previousGovernanceContext
        { governanceState := decision.disposition, audienceContext := request.audienceContext,
          objectId := some selected.objectId, objectVersion := some trace.version,
          traceRef := some selected.traceRef, freshness := some trace.freshness }
        request.audienceContext,
      toolTrace := [("search_knowledge_objects", none),
        ("read_knowledge_object", some selected.objectId),
        ("get_source_trace", some selected.traceRef)],
      traceRef := some selected.traceRef }
  | _, _ => .error .unresolvedReference

def GovernedSessionBridge.query (request : GovernedQueryRequest) : Except BridgeError QueryReply := do
  let hits ← (snapshot.searchObjects env request.search).mapError .retrieval
  match hits with
  | [] => noAnswerResponse env snapshot request
  | selected :: others => selectedResponse env snapshot request selected others

end Replies

end Cygnus.Integrations
