import Cygnus.Data.Json
import Cygnus.Data.Table
import Cygnus.Data.Text

/-! The rows of the wiki, its drafts, branches and governance ledger. -/

namespace Cygnus.Wiki

/-- Microseconds since the epoch. -/
abbrev Timestamp := Nat

structure WikiPage where
  id : Uuid
  slug : String
  title : String
  status : String := "seed"
  contentMd : String := ""
  summary : String := ""
  scopeType : String := "global"
  scopeId : Option Uuid := none
  language : String := "en"
  normalizedPath : String
  knowledgeTypeSlugs : List String := []
  sourceIds : List Uuid := []
  version : Nat := 1
  deriving DecidableEq

structure WikiPageRevision where
  pageId : Uuid
  version : Nat
  contentMd : String
  changeType : String
  draftId : Option Uuid := none
  changedById : Option Uuid := none
  changeNote : Option String := none
  deriving DecidableEq

structure WikiLink where
  fromPageId : Uuid
  toSlug : String
  deriving DecidableEq

inductive BranchStatus
  | draft
  | pendingMerge
  | merged
  | closed
  deriving DecidableEq

def BranchStatus.value : BranchStatus → String
  | draft => "draft"
  | pendingMerge => "pending_merge"
  | merged => "merged"
  | closed => "closed"

structure WikiBranch where
  id : Uuid
  authorId : Uuid
  status : BranchStatus := .draft
  hasConflict : Bool := false
  reviewerId : Option Uuid := none
  reviewedAt : Option Timestamp := none
  reviewerNote : Option String := none
  deriving DecidableEq

inductive DraftStatus
  | draft
  | pending
  | needsRevision
  | withdrawn
  | approved
  | rejected
  deriving DecidableEq

def DraftStatus.value : DraftStatus → String
  | draft => "draft"
  | pending => "pending"
  | needsRevision => "needs_revision"
  | withdrawn => "withdrawn"
  | approved => "approved"
  | rejected => "rejected"

structure WikiPageDraft where
  id : Uuid
  pageId : Option Uuid := none
  draftKind : String := "edit"
  suggestedMetadata : Option JsonObject := none
  authorId : Option Uuid := none
  contentMd : String
  note : Option String := none
  baseVersion : Option Int := none
  version : Nat := 1
  revisionRound : Nat := 0
  lastReturnedNote : Option String := none
  aiCheckStatus : String := "pending"
  aiCheckResults : Option Json := none
  aiCheckedAt : Option Timestamp := none
  status : DraftStatus := .pending
  source : String := "web_ui"
  sourceMetadata : Option JsonObject := none
  branchId : Option Uuid := none
  reviewedById : Option Uuid := none
  reviewedAt : Option Timestamp := none
  reviewerNote : Option String := none

structure WikiDraftRound where
  draftId : Uuid
  roundNo : Nat
  contentMd : String
  authorNote : Option String
  reviewerReturnNote : Option String
  aiCheckResults : Option Json
  submittedAt : Timestamp

/-- The delivery intent for the automatic pre-review of one draft revision. -/
structure PendingAiPreReview where
  draftId : Uuid
  draftVersion : Nat
  revisionRound : Nat
  deriving DecidableEq

structure Source where
  id : Uuid
  scopeType : String := "global"
  scopeId : Option Uuid := none
  language : String := "en"
  status : String := "pending"
  dispatchGeneration : Nat := 0
  deleteRequestedAt : Option Timestamp := none
  sourceType : String := "file"
  pipelinePhase : Option String := none
  minioKey : Option String := none
  fullText : Option String := none
  deriving DecidableEq

structure SourceDepartment where
  sourceId : Uuid
  departmentId : Uuid
  deriving DecidableEq

/-- The acting employee, as far as the review code looks at it. -/
structure Actor where
  id : Uuid
  role : String
  deriving DecidableEq

inductive GovernanceEventType
  | proposalCreated
  | draftUpdated
  | reviewRequested
  | changesRequested
  | reviewResubmitted
  | approved
  | rejected
  | withdrawn
  | published
  | propagationUpdated
  | stateImported
  deriving DecidableEq

inductive GovernanceState
  | draft
  | inReview
  | needsRevision
  | withdrawn
  | approved
  | rejected
  | published
  deriving DecidableEq

def GovernanceState.value : GovernanceState → String
  | draft => "draft"
  | inReview => "in_review"
  | needsRevision => "needs_revision"
  | withdrawn => "withdrawn"
  | approved => "approved"
  | rejected => "rejected"
  | published => "published"

/-- The keys the code builds. Their texts differ whenever their parts do: identifiers and numbers
hold no colon, and a command identifier stands last. -/
inductive IdempotencyKey
  | wikiDraft (draftId : Uuid) (event : GovernanceEventType) (number : Option Nat)
  | compilerSourceFence (draftId : Uuid) (generation : Nat)
  | publish (commandId : String)
  | propagation (commandId : String)
  | propagationAck (deliveryId : Uuid)
  | propagationDeliveryTerminal (deliveryId : Uuid)
  deriving DecidableEq

structure GovernanceLedgerEvent where
  id : Uuid
  draftId : Uuid
  sequence : Nat
  eventType : GovernanceEventType
  fromState : Option GovernanceState
  toState : GovernanceState
  actorId : Option Uuid
  idempotencyKey : IdempotencyKey
  reason : Option String
  payload : JsonObject

instance : Row WikiPage := ⟨WikiPage.id⟩
instance : Row WikiBranch := ⟨WikiBranch.id⟩
instance : Row WikiPageDraft := ⟨WikiPageDraft.id⟩
instance : Row Source := ⟨Source.id⟩
instance : Row GovernanceLedgerEvent := ⟨GovernanceLedgerEvent.id⟩

structure Database where
  pages : Table WikiPage := []
  revisions : List WikiPageRevision := []
  links : List WikiLink := []
  drafts : Table WikiPageDraft := []
  rounds : List WikiDraftRound := []
  preReviews : List PendingAiPreReview := []
  branches : Table WikiBranch := []
  ledger : Table GovernanceLedgerEvent := []
  sources : Table Source := []
  sourceDepartments : List SourceDepartment := []

inductive ReviewError
  | valueError (message : String)
  | runtimeError (message : String)
  | typeError (message : String)
  | integrityError (constraint : String)
  | notFound (table : String) (id : Uuid)
  | governanceLedgerConflict (message : String)
  | invalidTransition (message : String)
  | draftVersionConflict (expectedVersion actualVersion : Int)
  | draftConflict (currentVersion : Nat) (baseVersion : Int)
  | createDraftSlugConflict (slug scopeType : String) (scopeId : Option Uuid)
  | compilationDraftContextConflict (message : String)
  | branchMergeConflict (pageTitle pageSlug : String) (currentVersion : Nat) (baseVersion : Int)
  | pageWriteConflict (slug scopeType : String) (scopeId : Option Uuid) (expected actual : Nat)
  deriving DecidableEq

abbrev Transaction := Except ReviewError

/-- `session.get`, where the caller refuses a missing row. -/
def fetch {α : Type} [Row α] (table : String) (rows : Table α) (id : Uuid) : Transaction α :=
  match rows.get id with
  | some row => .ok row
  | none => .error (.notFound table id)

theorem fetch_ok {α : Type} [Row α] {table : String} {rows : Table α} {id : Uuid} {row : α} :
    fetch table rows id = .ok row ↔ rows.get id = some row := by
  unfold fetch
  split <;> simp_all

/-- What the code takes from its platform: `str.lower`, the hexadecimal SHA-256 of a text, the
canonical serialisation `json.dumps(..., sort_keys=True)` and ISO timestamps. -/
structure Platform where
  lower : String → String
  sha256 : String → String
  dumps : Json → String
  isoformat : Timestamp → String

end Cygnus.Wiki
