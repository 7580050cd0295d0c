import Cygnus.Wiki.Models
import Mathlib.Data.List.MinMax

namespace Cygnus.Governance

open Wiki Text Result

def governanceStateForDraftStatus : DraftStatus → GovernanceState
  | .draft => .draft
  | .pending => .inReview
  | .needsRevision => .needsRevision
  | .withdrawn => .withdrawn
  | .approved => .approved
  | .rejected => .rejected

def transitionKey (draftId : Uuid) (event : GovernanceEventType) (revisionRound : Option Nat := none) :
    IdempotencyKey :=
  .wikiDraft draftId event revisionRound

def draftUpdateKey (draftId : Uuid) (draftVersion : Nat) : Transaction IdempotencyKey := do
  require (1 ≤ draftVersion) (.valueError "draft_version must be positive")
  return .wikiDraft draftId .draftUpdated (some draftVersion)

def getLatestDraftEvent (ledger : Table GovernanceLedgerEvent) (draftId : Uuid) :
    Option GovernanceLedgerEvent :=
  (ledger.filter (·.draftId = draftId)).argmax GovernanceLedgerEvent.sequence

def findKey (ledger : Table GovernanceLedgerEvent) (key : IdempotencyKey) :
    Option GovernanceLedgerEvent :=
  ledger.find? (·.idempotencyKey = key)

/-- The arguments of `append_draft_event`. -/
structure DraftEvent where
  draftId : Uuid
  eventType : GovernanceEventType
  fromState : Option GovernanceState
  toState : GovernanceState
  actorId : Option Uuid
  idempotencyKey : IdempotencyKey
  reason : Option String := none
  payload : JsonObject := []

/-- Whether an event of the ledger is the exact replay of this append. -/
def DraftEvent.sameIdentity (event : DraftEvent) (existing : GovernanceLedgerEvent) : Bool :=
  existing.draftId = event.draftId && existing.eventType = event.eventType &&
    existing.fromState = event.fromState && existing.toState = event.toState &&
    existing.actorId = event.actorId && existing.reason = event.reason.map strip &&
    Json.eq (.object existing.payload) (.object event.payload)

def stateLabel : Option GovernanceState → String
  | none => "None"
  | some state => state.value

/-- The place of an event in the history of its draft, which must be in the state the event leaves. -/
def nextSequence (ledger : Table GovernanceLedgerEvent) (event : DraftEvent) : Transaction Nat :=
  match getLatestDraftEvent ledger event.draftId with
  | none => do
    require (event.fromState = none) (.governanceLedgerConflict
      s!"draft_id={event.draftId.text} has no current state; expected from_state=None")
    return 1
  | some current => do
    require (some current.toState = event.fromState) (.governanceLedgerConflict
      (s!"draft_id={event.draftId.text} state conflict: expected {current.toState.value}, " ++
        s!"got {stateLabel event.fromState}"))
    return current.sequence + 1

/-- States and keys are never blank here, so only a blank reason is left to refuse. -/
def appendDraftEvent (ledger : Table GovernanceLedgerEvent) (eventId : Uuid) (event : DraftEvent) :
    Transaction (GovernanceLedgerEvent × Table GovernanceLedgerEvent) := do
  let reason := event.reason.map strip
  require (reason ≠ some "") (.valueError "reason must not be blank when provided")
  match findKey ledger event.idempotencyKey with
  | some existing =>
    require (event.sameIdentity existing)
      (.governanceLedgerConflict "idempotency_key is already bound to a different transition")
    return (existing, ledger)
  | none =>
    let nextSequence ← nextSequence ledger event
    let row : GovernanceLedgerEvent :=
      { id := eventId, draftId := event.draftId, sequence := nextSequence,
        eventType := event.eventType, fromState := event.fromState, toState := event.toState,
        actorId := event.actorId, idempotencyKey := event.idempotencyKey, reason := reason,
        payload := event.payload }
    let ledger ← ledger.insert (.integrityError "governance_ledger_events_pkey") row
    return (row, ledger)

section Recording

variable (env : Platform)

def jsonOfUuid (id : Option Uuid) : Json := Json.ofOption (fun u => .str u.text) id

def jsonOfVersion (version : Option Int) : Json := Json.ofOption .int version

def recordDraftUpdate (ledger : Table GovernanceLedgerEvent) (eventId : Uuid)
    (draft : WikiPageDraft) (previousDraftVersion : Nat) (fromState toState : GovernanceState)
    (actorId : Option Uuid) (action : String) (reason : Option String := none)
    (extraPayload : JsonObject := []) :
    Transaction (GovernanceLedgerEvent × Table GovernanceLedgerEvent) := do
  require (1 ≤ previousDraftVersion) (.valueError "previous_draft_version must be positive")
  require (draft.version = previousDraftVersion + 1)
    (.valueError "draft.version must advance exactly once per draft update")
  let normalizedAction := strip action
  require (normalizedAction ≠ "") (.valueError "action must not be blank")
  let payload : JsonObject := [
    ("action", .str normalizedAction),
    ("previous_draft_version", .int previousDraftVersion),
    ("draft_version", .int draft.version),
    ("base_version", jsonOfVersion draft.baseVersion),
    ("revision_round", .int draft.revisionRound),
    ("content_sha256", .str (env.sha256 draft.contentMd))]
  require (∀ field ∈ extraPayload, field.1 ∉ payload.map Prod.fst)
    (.valueError "extra_payload may not override ledger fields")
  let key ← draftUpdateKey draft.id draft.version
  appendDraftEvent ledger eventId
    { draftId := draft.id, eventType := .draftUpdated, fromState := some fromState,
      toState := toState, actorId := actorId, idempotencyKey := key, reason := reason,
      payload := payload ++ extraPayload }

def recordDraftProposal (ledger : Table GovernanceLedgerEvent) (eventId : Uuid)
    (draft : WikiPageDraft) : Transaction (GovernanceLedgerEvent × Table GovernanceLedgerEvent) :=
  appendDraftEvent ledger eventId
    { draftId := draft.id, eventType := .proposalCreated, fromState := none, toState := .draft,
      actorId := draft.authorId, idempotencyKey := transitionKey draft.id .proposalCreated,
      payload := [
        ("draft_kind", .str draft.draftKind),
        ("page_id", jsonOfUuid draft.pageId),
        ("base_version", jsonOfVersion draft.baseVersion),
        ("draft_version", .int draft.version),
        ("revision_round", .int draft.revisionRound),
        ("source", .str draft.source),
        ("content_sha256", .str (env.sha256 draft.contentMd))] }

def recordDraftReviewRequest (ledger : Table GovernanceLedgerEvent) (eventId : Uuid)
    (draft : WikiPageDraft) (actorId : Option Uuid) (reason : Option String)
    (reviewType : Option String := none) (expectedVersion : Option Int := none) :
    Transaction (GovernanceLedgerEvent × Table GovernanceLedgerEvent) :=
  let payload : JsonObject := [
    ("draft_version", .int draft.version),
    ("revision_round", .int draft.revisionRound),
    ("source", .str draft.source)]
  let payload := match reviewType with
    | none => payload
    | some reviewType => payload ++ [("review_type", .str reviewType)]
  let payload := match expectedVersion with
    | none => payload
    | some expectedVersion => payload ++ [("expected_version", .int expectedVersion)]
  appendDraftEvent ledger eventId
    { draftId := draft.id, eventType := .reviewRequested, fromState := some .draft,
      toState := .inReview, actorId := actorId,
      idempotencyKey := transitionKey draft.id .reviewRequested (some draft.revisionRound),
      reason := reason, payload := payload }

/-- The two events of a draft that is created and submitted in one call. -/
def recordCreatedDraft (ledger : Table GovernanceLedgerEvent) (proposalId reviewId : Uuid)
    (draft : WikiPageDraft) : Transaction (Table GovernanceLedgerEvent) := do
  let (_, ledger) ← recordDraftProposal env ledger proposalId draft
  let (_, ledger) ← recordDraftReviewRequest ledger reviewId draft draft.authorId draft.note
  return ledger

end Recording

end Cygnus.Governance
