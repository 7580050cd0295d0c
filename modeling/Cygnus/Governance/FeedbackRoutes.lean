import Cygnus.Data.Machine
import Cygnus.Domain.Audience
import Cygnus.Retrieval.KnowledgeObject
import Mathlib.Data.Prod.Lex

/-! Execution of feedback routes: leases, recovery, retries, and the governance signal that a
completed route leaves behind. A call is one transaction. -/

namespace Cygnus.Feedback

open Wiki Publish Retrieval Domain Text Result Sequence

section Rows

inductive FeedbackSignalType
  | answerAccepted
  | humanRewrite
  | escalated
  | lowRating
  | unsupportedAnswer
  | staleAnswer
  deriving DecidableEq

def FeedbackSignalType.value : FeedbackSignalType → String
  | answerAccepted => "answer_accepted"
  | humanRewrite => "human_rewrite"
  | escalated => "escalated"
  | lowRating => "low_rating"
  | unsupportedAnswer => "unsupported_answer"
  | staleAnswer => "stale_answer"

inductive FeedbackRouteKind
  | review
  | refresh
  deriving DecidableEq

inductive FeedbackRouteState
  | queued
  | running
  | completed
  | blocked
  | failed
  deriving DecidableEq

def routingPolicy : FeedbackSignalType → Option FeedbackRouteKind
  | .lowRating => some .review
  | .staleAnswer => some .refresh
  | _ => none

/-- The audience is stored as it was normalised, which the table checks. -/
structure FeedbackSignal where
  id : Uuid
  signalType : FeedbackSignalType
  actorId : Uuid
  audienceContext : AudienceContext
  objectId : Option String := none
  pageId : Option Uuid := none
  draftId : Option Uuid := none
  createdAt : Timestamp
  deriving DecidableEq

structure FeedbackRoute where
  id : Uuid
  feedbackSignalId : Uuid
  routeKind : FeedbackRouteKind
  lifecycleState : FeedbackRouteState := .queued
  attemptCount : Nat := 0
  nextAttemptAt : Option Timestamp
  leaseToken : Option String := none
  leaseExpiresAt : Option Timestamp := none
  outcomeSignalId : Option Uuid := none
  terminalReason : Option String := none
  lastError : Option String := none
  completedAt : Option Timestamp := none
  createdAt : Timestamp
  deriving DecidableEq

inductive PressureSignalType
  | ticketCluster
  | humanRewrite
  | sourceFailure
  | releaseDelta
  | incidentDelta
  | lowRating
  | staleAnswer
  deriving DecidableEq

inductive FreshnessState
  | fresh
  | stale
  | unknown
  deriving DecidableEq

structure GovernanceEvidenceRef where
  evidenceId : String
  sourceRef : String
  excerpt : Option String := none
  observedAt : Option Timestamp := none
  deriving DecidableEq

structure GovernanceSignalInput where
  signalRef : String
  signalType : PressureSignalType
  objectRef : String
  title : String
  objectType : KnowledgeObjectType
  audienceFilter : Option AudienceFilter
  affectedSurfaces : List String
  summary : String
  reason : String
  evidenceExcerpt : String
  freshness : FreshnessState := .unknown
  pageId : Option Uuid := none
  sourceId : Option Uuid := none
  audienceBindingRef : Option String := none
  triggerSignals : List String := []
  evidenceSourceType : String
  observedAt : Option Timestamp := none
  evidenceRefs : List GovernanceEvidenceRef := []
  deriving DecidableEq

structure GovernanceSignal extends GovernanceSignalInput where
  id : Uuid
  createdById : Uuid
  deriving DecidableEq

structure AuditLog where
  principalId : Uuid
  action : String
  resourceType : String
  resourceId : String
  reason : String
  deriving DecidableEq

instance : Row FeedbackSignal := ⟨FeedbackSignal.id⟩
instance : Row FeedbackRoute := ⟨FeedbackRoute.id⟩
instance : Row GovernanceSignal := ⟨GovernanceSignal.id⟩

inductive FeedbackError
  | feedbackRouteLeaseLost (message : String)
  | runtimeError (message : String)
  | valueError (message : String)
  | governanceSignalConflict (message : String)
  | integrityError (constraint : String)
  | publishing (error : PublishError)
  deriving DecidableEq

structure World where
  routes : Table FeedbackRoute := []
  feedback : Table FeedbackSignal := []
  employees : List Uuid := []
  drafts : Table WikiPageDraft := []
  pages : Table GovernedPage := []
  signals : Table GovernanceSignal := []
  audits : List AuditLog := []

end Rows

def maxFeedbackRouteAttempts : Nat := 3
def feedbackRouteLease : Nat := 60 * 1000000
def feedbackRouteRetryBase : Nat := 30 * 1000000

def routeRef (routeId : Uuid) : String := "feedback-route:" ++ routeId.text

def feedbackSignalRef (signalId : Uuid) : String := "feedback-signal:" ++ signalId.text

def outcomeSignalRef (signalId : Uuid) : String := "governance-signal:" ++ signalId.text

def FeedbackRouteState.isTerminal : FeedbackRouteState → Bool
  | completed | blocked | failed => true
  | queued | running => false

def FeedbackRoute.terminal (route : FeedbackRoute) : Bool := route.lifecycleState.isTerminal

/-- `ck_governance_feedback_routes_lifecycle` -/
def FeedbackRoute.lifecycleCheck (route : FeedbackRoute) : Bool :=
  match route.lifecycleState with
  | .queued => route.leaseToken.isNone && route.leaseExpiresAt.isNone && route.completedAt.isNone &&
      route.outcomeSignalId.isNone && route.terminalReason.isNone
  | .running => route.leaseToken.isSome && route.leaseExpiresAt.isSome &&
      route.nextAttemptAt.isNone && route.outcomeSignalId.isNone && route.completedAt.isNone &&
      route.terminalReason.isNone && route.lastError.isNone
  | .completed => route.leaseToken.isNone && route.leaseExpiresAt.isNone &&
      route.nextAttemptAt.isNone && route.outcomeSignalId.isSome && route.completedAt.isSome &&
      route.terminalReason.isNone && route.lastError.isNone
  | .blocked => route.leaseToken.isNone && route.leaseExpiresAt.isNone &&
      route.nextAttemptAt.isNone && route.terminalReason.isSome && route.completedAt.isSome &&
      route.lastError.isNone && route.outcomeSignalId.isNone
  | .failed => route.leaseToken.isNone && route.leaseExpiresAt.isNone &&
      route.nextAttemptAt.isNone && route.terminalReason.isSome && route.lastError.isSome &&
      route.completedAt.isSome && route.outcomeSignalId.isNone

section Marks

def FeedbackRoute.settle (route : FeedbackRoute) (state : FeedbackRouteState)
    (outcomeSignalId : Option Uuid) (terminalReason lastError : Option String) (now : Timestamp) :
    FeedbackRoute :=
  { route with
    lifecycleState := state, nextAttemptAt := none, leaseToken := none, leaseExpiresAt := none,
    outcomeSignalId := outcomeSignalId, terminalReason := terminalReason, lastError := lastError,
    completedAt := some now }

def FeedbackRoute.markCompleted (route : FeedbackRoute) (outcomeSignalId : Uuid)
    (now : Timestamp) : FeedbackRoute :=
  route.settle .completed (some outcomeSignalId) none none now

def FeedbackRoute.markBlocked (route : FeedbackRoute) (reason : String) (now : Timestamp) :
    FeedbackRoute :=
  route.settle .blocked none (some reason) none now

def FeedbackRoute.markFailed (route : FeedbackRoute) (error : String) (now : Timestamp) :
    FeedbackRoute :=
  route.settle .failed none (some "retry_exhausted") (some error) now

def FeedbackRoute.requeueAfterFailure (route : FeedbackRoute) (error : String) (now : Timestamp) :
    FeedbackRoute :=
  { route with
    lifecycleState := .queued,
    nextAttemptAt := some (now + feedbackRouteRetryBase * 2 ^ (route.attemptCount - 1)),
    leaseToken := none, leaseExpiresAt := none, outcomeSignalId := none, terminalReason := none,
    lastError := some error, completedAt := none }

def FeedbackRoute.lease (route : FeedbackRoute) (leaseToken : String) (now : Timestamp) :
    FeedbackRoute :=
  { route with
    lifecycleState := .running, attemptCount := route.attemptCount + 1, nextAttemptAt := none,
    leaseToken := some leaseToken, leaseExpiresAt := some (now + feedbackRouteLease),
    outcomeSignalId := none, terminalReason := none, lastError := none, completedAt := none }

def failureText (kind message : String) : String :=
  slice (if strip message = "" then kind else strip message) 0 1000

end Marks

section Audit

def auditReason (route : FeedbackRoute) (feedback : FeedbackSignal) (outcome : String)
    (terminalReason : Option String) (outcomeSignalId : Option Uuid) : String :=
  "; ".intercalate (["route_ref=" ++ routeRef route.id,
    "feedback_ref=" ++ feedbackSignalRef feedback.id, "outcome=" ++ outcome] ++
    (outcomeSignalId.map fun id => "outcome_signal_ref=" ++ outcomeSignalRef id).toList ++
    (terminalReason.map fun reason => "terminal_reason=" ++ reason).toList)

/-- The audit row of a terminal outcome. -/
def terminalAudit (route : FeedbackRoute) (feedback : FeedbackSignal) (actorId : Uuid)
    (outcome : String) (terminalReason : Option String) (outcomeSignalId : Option Uuid) :
    AuditLog where
  principalId := actorId
  action := "execute_feedback_route"
  resourceType := "governance_feedback_route"
  resourceId := route.id.text
  reason := auditReason route feedback outcome terminalReason outcomeSignalId

def World.settle (world : World) (route : FeedbackRoute) (audit : AuditLog) : World :=
  { world with routes := world.routes.put route, audits := world.audits ++ [audit] }

end Audit

section Reads

/-- The feedback of a route, and the employee who gave it. -/
def feedbackAndActor (world : World) (route : FeedbackRoute) :
    Except FeedbackError (FeedbackSignal × Uuid) := do
  let feedback ← demand (world.feedback.get route.feedbackSignalId)
    (.runtimeError ("feedback route " ++ route.id.text ++ " has no feedback signal"))
  require (feedback.actorId ∈ world.employees)
    (.runtimeError ("feedback route " ++ route.id.text ++ " has no originating actor"))
  return (feedback, feedback.actorId)

def matchesRoutePolicy (route : FeedbackRoute) (feedback : FeedbackSignal) : Bool :=
  routingPolicy feedback.signalType = some route.routeKind

inductive Resolution
  | target (page : GovernedPage) (object : KnowledgeObject)
  | refused (reason : String)

/-- The page that the feedback names, directly or through its draft. -/
def targetPageId (world : World) (feedback : FeedbackSignal) : Except String Uuid :=
  match feedback.draftId with
  | none =>
    match feedback.pageId with
    | none => .error "target_required"
    | some pageId => .ok pageId
  | some draftId =>
    match world.drafts.get draftId with
    | none => .error "target_required"
    | some draft =>
      match draft.pageId, feedback.pageId with
      | none, _ => .error "target_not_materialized"
      | some draftPage, none => .ok draftPage
      | some draftPage, some pageId =>
        if pageId = draftPage then .ok pageId else .error "target_identity_changed"

def resolveObject (feedback : FeedbackSignal) (page : GovernedPage) :
    Option KnowledgeObject → Resolution
  | none => .refused "target_ineligible"
  | some object =>
    if feedback.objectId = some object.objectId then .target page object
    else .refused "target_identity_changed"

def resolveTarget (env : Platform) (world : World) (feedback : FeedbackSignal) :
    Except FeedbackError Resolution :=
  match targetPageId world feedback with
  | .error reason => return .refused reason
  | .ok pageId =>
    match world.pages.get pageId with
    | none => return .refused "target_required"
    | some page => do
      let object ← (wikiPageToKnowledgeObject env page []).mapError .publishing
      return resolveObject feedback page object

end Reads

section Signals

/-- `_audience_filter` -/
def audienceFilter (context : AudienceContext) : Except FeedbackError AudienceFilter :=
  let dimension (value : Option NonBlank) : List String := (value.map Subtype.val).toList
  (AudienceFilter.make context.visibility (dimension context.brand) (dimension context.productLine)
    (dimension context.plan) (dimension context.region) (dimension context.language)
    (dimension context.productVersion)).mapError .valueError

def requireSignalText (label value : String) : Except FeedbackError Unit :=
  require (strip value ≠ "") (.valueError (label ++ " must not be blank"))

/-- The constructor of a signal that carries its own audience. -/
def GovernanceSignalInput.make (input : GovernanceSignalInput) :
    Except FeedbackError GovernanceSignalInput := do
  requireSignalText "signal_ref" input.signalRef
  requireSignalText "object_ref" input.objectRef
  requireSignalText "title" input.title
  requireSignalText "summary" input.summary
  requireSignalText "reason" input.reason
  requireSignalText "evidence_excerpt" input.evidenceExcerpt
  require (input.affectedSurfaces ≠ []) (.valueError "affected_surfaces must not be empty")
  let affectedSurfaces ←
    normalizeStrings (.valueError "affected surface must not be blank") input.affectedSurfaces
  let triggerSignals ←
    normalizeStrings (.valueError "trigger signal must not be blank") input.triggerSignals
  return { input with affectedSurfaces := affectedSurfaces, triggerSignals := triggerSignals }

structure OutcomeTexts where
  signalType : PressureSignalType
  freshness : FreshnessState
  reason : String
  summary : String

/-- What the outcome says, for the two kinds of feedback that are routed. -/
def outcomeTexts (route : FeedbackRoute) : FeedbackSignalType → Except FeedbackError OutcomeTexts
  | .lowRating => .ok ⟨.lowRating, .unknown,
      "Low rating requires governed quality review before any knowledge change.",
      "Low-rating consumption feedback requires governed review."⟩
  | .staleAnswer => .ok ⟨.staleAnswer, .stale,
      "Stale answer indicates suspected freshness risk requiring evidence verification.",
      "Stale-answer consumption feedback requires freshness review."⟩
  | _ => .error (.runtimeError ("feedback route " ++ route.id.text ++
      " has an unmapped feedback type"))

def governanceSignalInput (route : FeedbackRoute) (feedback : FeedbackSignal) (page : GovernedPage)
    (object : KnowledgeObject) : Except FeedbackError GovernanceSignalInput := do
  let texts ← outcomeTexts route feedback.signalType
  let filter ← audienceFilter feedback.audienceContext
  let feedbackRef := feedbackSignalRef feedback.id
  GovernanceSignalInput.make {
    signalRef := routeRef route.id, signalType := texts.signalType, objectRef := object.objectId,
    title := object.title, objectType := object.objectType, audienceFilter := some filter,
    affectedSurfaces := ["feedback", "review_queue"], summary := texts.summary,
    reason := texts.reason,
    evidenceExcerpt := "feedback_ref=" ++ feedbackRef ++ "; route_ref=" ++ routeRef route.id,
    freshness := texts.freshness, pageId := some page.id,
    triggerSignals := [feedback.signalType.value, feedbackRef, routeRef route.id],
    evidenceSourceType := "consumption_feedback", observedAt := some feedback.createdAt }

/-- The columns a signal is stored with. -/
def GovernanceSignalInput.stored (input : GovernanceSignalInput) : GovernanceSignalInput :=
  { input with
    signalRef := strip input.signalRef, objectRef := strip input.objectRef,
    title := strip input.title, audienceBindingRef := input.audienceBindingRef.map strip,
    summary := strip input.summary, reason := strip input.reason,
    evidenceExcerpt := strip input.evidenceExcerpt }

/-- `_matches_input`: an observation time is compared only when the input has one. -/
def GovernanceSignal.matchesInput (signal : GovernanceSignal) (input : GovernanceSignalInput) :
    Bool :=
  signal.toGovernanceSignalInput =
    { input.stored with
      signalRef := signal.signalRef, observedAt := input.observedAt.or signal.observedAt }

def getGovernanceSignal (signals : Table GovernanceSignal) (signalRef : String) :
    Option GovernanceSignal :=
  signals.find? (·.signalRef = strip signalRef)

/-- The signal of this reference, created once; the assignment it starts with is not read here. -/
def createGovernanceSignal (signals : Table GovernanceSignal) (input : GovernanceSignalInput)
    (signalId createdById : Uuid) :
    Except FeedbackError (GovernanceSignal × Table GovernanceSignal) :=
  match getGovernanceSignal signals input.signalRef with
  | some existing =>
    if existing.matchesInput input then .ok (existing, signals)
    else .error (.governanceSignalConflict
      ("signal_ref=" ++ input.signalRef ++ " is already bound to a different signal"))
  | none => do
    let signal : GovernanceSignal := { input.stored with id := signalId, createdById := createdById }
    let signals ← signals.insert (.integrityError "governance_signals_pkey") signal
    return (signal, signals)

end Signals

section Claims

structure FeedbackRouteClaim where
  routeId : Uuid
  routeKind : FeedbackRouteKind
  leaseToken : String
  attemptCount : Nat
  claimedFromState : FeedbackRouteState
  deriving DecidableEq

structure FeedbackRouteTerminalization where
  routeId : Uuid
  routeKind : FeedbackRouteKind
  previousState : FeedbackRouteState
  attemptCount : Nat
  terminalReason : String
  deriving DecidableEq

structure FeedbackRouteClaimSweep where
  claims : List FeedbackRouteClaim := []
  terminalized : List FeedbackRouteTerminalization := []
  deriving DecidableEq

def FeedbackRoute.due (route : FeedbackRoute) (now : Timestamp) : Bool :=
  match route.lifecycleState with
  | .queued => route.nextAttemptAt.all (· ≤ now)
  | .running => route.leaseExpiresAt.any (· ≤ now)
  | _ => false

def FeedbackRoute.age (route : FeedbackRoute) : Timestamp ×ₗ Timestamp ×ₗ Uuid :=
  toLex (((route.nextAttemptAt.or route.leaseExpiresAt).getD route.createdAt),
    toLex (route.createdAt, route.id))

/-- The due routes, oldest first; rows locked elsewhere are passed over. -/
def dueRoutes (routes : Table FeedbackRoute) (limit : Nat) (locked : List Uuid) (now : Timestamp) :
    List FeedbackRoute :=
  (sortedBy FeedbackRoute.age
    (routes.filter fun route => route.due now && route.id ∉ locked)).take limit

def exhaustedError (state : FeedbackRouteState) : String :=
  if state = .running then "feedback route lease expired before execution completed"
  else "feedback route retry budget was exhausted before claim"

/-- The route as `recover` leaves it: its budget is spent. -/
def recoverRoute (world : World) (sweep : FeedbackRouteClaimSweep) (route : FeedbackRoute)
    (now : Timestamp) : Except FeedbackError (World × FeedbackRouteClaimSweep) := do
  let (feedback, actorId) ← feedbackAndActor world route
  let failed := route.markFailed (exhaustedError route.lifecycleState) now
  let audit := terminalAudit failed feedback actorId "failed" (some "retry_exhausted") none
  return (world.settle failed audit, { sweep with
    terminalized := sweep.terminalized ++ [⟨route.id, route.routeKind, route.lifecycleState,
      route.attemptCount, "retry_exhausted"⟩] })

/-- One turn of the loop; the session holds each row of the sweep once. -/
def claimRoute (token : Uuid → String) (now : Timestamp)
    (state : World × FeedbackRouteClaimSweep) (routeId : Uuid) :
    Except FeedbackError (World × FeedbackRouteClaimSweep) :=
  match state.1.routes.get routeId with
  | none => .ok state
  | some route =>
    if route.terminal then .ok state
    else if maxFeedbackRouteAttempts ≤ route.attemptCount then
      recoverRoute state.1 state.2 route now
    else
      let leased := route.lease (token routeId) now
      .ok ({ state.1 with routes := state.1.routes.put leased }, { state.2 with
        claims := state.2.claims ++ [⟨route.id, route.routeKind, token routeId,
          leased.attemptCount, route.lifecycleState⟩] })

def claimFeedbackRoutes (world : World) (limit : Nat) (locked : List Uuid) (token : Uuid → String)
    (now : Timestamp) : Except FeedbackError (World × FeedbackRouteClaimSweep) := do
  require (1 ≤ limit) (.valueError "limit must be a positive integer")
  ((dueRoutes world.routes limit locked now).map (·.id)).foldlM (claimRoute token now) (world, {})

end Claims

section Execution

def requireActiveLease (route : FeedbackRoute) (claim : FeedbackRouteClaim) (now : Timestamp) :
    Except FeedbackError Unit := do
  let ref := "feedback route " ++ claim.routeId.text
  require (route.lifecycleState = .running)
    (.feedbackRouteLeaseLost (ref ++ " is not running under this claim"))
  require (route.leaseToken = some claim.leaseToken)
    (.feedbackRouteLeaseLost (ref ++ " is owned by a different claim"))
  require (route.leaseExpiresAt.any (now < ·))
    (.feedbackRouteLeaseLost (ref ++ " lease has expired"))

def lockedRoute (world : World) (claim : FeedbackRouteClaim) : Except FeedbackError FeedbackRoute :=
  demand (world.routes.get claim.routeId)
    (.feedbackRouteLeaseLost ("feedback route " ++ claim.routeId.text ++ " no longer exists"))

def blockFeedbackRoute (world : World) (route : FeedbackRoute) (feedback : FeedbackSignal)
    (actorId : Uuid) (reason : String) (now : Timestamp) : World :=
  let blocked := route.markBlocked reason now
  world.settle blocked (terminalAudit blocked feedback actorId "blocked" (some reason) none)

def completeFeedbackRoute (world : World) (route : FeedbackRoute) (feedback : FeedbackSignal)
    (actorId : Uuid) (page : GovernedPage) (object : KnowledgeObject) (signalId : Uuid)
    (now : Timestamp) : Except FeedbackError World := do
  let input ← governanceSignalInput route feedback page object
  let (signal, signals) ← createGovernanceSignal world.signals input signalId actorId
  let completed := route.markCompleted signal.id now
  return { world with signals := signals }.settle completed
    (terminalAudit completed feedback actorId "completed" none (some signal.id))

def settleResolution (world : World) (route : FeedbackRoute) (feedback : FeedbackSignal)
    (actorId signalId : Uuid) (now : Timestamp) : Resolution → Except FeedbackError World
  | .refused reason => .ok (blockFeedbackRoute world route feedback actorId reason now)
  | .target page object => completeFeedbackRoute world route feedback actorId page object signalId now

def executeOwned (env : Platform) (world : World) (route : FeedbackRoute) (signalId : Uuid)
    (now : Timestamp) : Except FeedbackError World := do
  let (feedback, actorId) ← feedbackAndActor world route
  if matchesRoutePolicy route feedback then
    let resolution ← resolveTarget env world feedback
    settleResolution world route feedback actorId signalId now resolution
  else return blockFeedbackRoute world route feedback actorId "route_policy_changed" now

/-- A terminal route is replayed as it stands. -/
def executeFeedbackRoute (env : Platform) (world : World) (claim : FeedbackRouteClaim)
    (signalId : Uuid) (now : Timestamp) : Except FeedbackError World := do
  let route ← lockedRoute world claim
  if route.terminal then return world
  else
    requireActiveLease route claim now
    executeOwned env world route signalId now

def failOwned (world : World) (route : FeedbackRoute) (error : String) (now : Timestamp) :
    Except FeedbackError World :=
  if maxFeedbackRouteAttempts ≤ route.attemptCount then do
    let (feedback, actorId) ← feedbackAndActor world route
    let failed := route.markFailed error now
    return world.settle failed
      (terminalAudit failed feedback actorId "failed" (some "retry_exhausted") none)
  else return { world with routes := world.routes.put (route.requeueAfterFailure error now) }

def recordFeedbackRouteFailure (world : World) (claim : FeedbackRouteClaim)
    (kind message : String) (now : Timestamp) : Except FeedbackError World := do
  let route ← lockedRoute world claim
  if route.terminal then return world
  else
    requireActiveLease route claim now
    failOwned world route (failureText kind message) now

end Execution

inductive Action
  | claim (limit : Nat) (locked : List Uuid) (token : Uuid → String) (now : Timestamp)
  | execute (claim : FeedbackRouteClaim) (signalId : Uuid) (now : Timestamp)
  | recordFailure (claim : FeedbackRouteClaim) (kind message : String) (now : Timestamp)
  /-- What the routes point at changes under them. -/
  | elsewhere (feedback : Table FeedbackSignal) (employees : List Uuid)
      (drafts : Table WikiPageDraft) (pages : Table GovernedPage)

def perform (env : Platform) (action : Action) (world : World) : Except FeedbackError World :=
  match action with
  | .claim limit locked token now => do
    let (world, _) ← claimFeedbackRoutes world limit locked token now
    return world
  | .execute claim signalId now => executeFeedbackRoute env world claim signalId now
  | .recordFailure claim kind message now => recordFeedbackRouteFailure world claim kind message now
  | .elsewhere feedback employees drafts pages => return { world with
      feedback := feedback, employees := employees, drafts := drafts, pages := pages }

end Cygnus.Feedback
