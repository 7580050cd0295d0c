import Cygnus.Retrieval.GovernedReads

/-! The governed tools an agent reads knowledge with. Each call names its reader and its channel, and
is checked against the snapshot again. -/

namespace Cygnus.Integrations

open Wiki Domain Publish Retrieval Text Result Sequence

section Arguments

/-- A stripped text that is not blank. -/
abbrev RequiredText := { s : String // Stripped s }

def RequiredText.toNonBlank (text : RequiredText) : NonBlank :=
  ⟨text.1, by rw [text.2.1]; exact text.2.2⟩

def requiredText (value : Json) (label : String) (maxLength : Nat) : Except String RequiredText :=
  match value with
  | .str s =>
    if h : strip s ≠ "" then
      if (strip s).length ≤ maxLength then .ok ⟨strip s, stripped_strip h⟩
      else .error s!"{label} must be at most {maxLength} characters"
    else .error s!"{label} must not be blank"
  | _ => .error s!"{label} must be a string"

def requireBool (value : Json) (label : String) : Except String Bool :=
  match value with
  | .bool b => .ok b
  | _ => .error s!"{label} must be a boolean"

def normalizeLimit : Json → Except String Nat
  | .int n => do
    require (1 ≤ n ∧ n ≤ 50) "limit must be an integer between 1 and 50"
    return n.toNat
  | _ => .error "limit must be an integer between 1 and 50"

def normalizeObjectTypes : Json → Except String (Option (List RequiredText))
  | .null => .ok none
  | .list items => do
    require (items.length ≤ 10) "object_types must contain at most 10 strings"
    let items ← items.mapM fun item => requiredText item "object_types item" 64
    return some items
  | _ => .error "object_types must contain at most 10 strings"

def audienceContextKeys : List String :=
  ["visibility", "brand", "product_line", "plan_tier", "region", "language", "product_version"]

/-- The keys of a payload that are not known, in order. -/
def unknownKeys (payload : JsonObject) (known : List String) : List String :=
  sortedBy (fun key => key) ((Dict.keys payload).filter (· ∉ known))

def audienceContextFromPayload : Json → Except String (Option AudienceContext)
  | .null => .ok none
  | .object payload => do
    let unknown := unknownKeys payload audienceContextKeys
    let fields := ", ".intercalate unknown
    require (unknown = []) s!"audience_context contains unsupported fields: {fields}"
    let dimension (name : String) : Except String (Option NonBlank) :=
      match Json.lookup payload name with
      | .null => .ok none
      | value => do
        let text ← requiredText value s!"audience_context.{name}" 200
        return some text.toNonBlank
    let context (visibility : Visibility) : Except String (Option AudienceContext) := do
      return some {
        visibility
        brand := ← dimension "brand"
        productLine := ← dimension "product_line"
        plan := ← dimension "plan_tier"
        region := ← dimension "region"
        language := ← dimension "language"
        productVersion := ← dimension "product_version" }
    match Json.lookup payload "visibility" with
    | .null => .ok none
    | .str "internal" => context .internal
    | .str "external" => context .external
    | _ => .error "audience_context.visibility is invalid"
  | _ => .error "audience_context must be an object"

def requiredAudienceContext (payload : Json) : Except String AudienceContext := do
  let context ← audienceContextFromPayload payload
  demand context "audience_context.visibility is required"

def evidenceFilterKeys : List String :=
  ["source_type", "product_line", "plan", "region", "language", "product_version"]

def parseSourceType (value : String) : Option EvidenceSourceType :=
  [.helpCenter, .internalSop, .resolvedTicket, .releaseNote, .incidentUpdate, .chatTranscript,
    .consumptionFeedback].find? fun sourceType => EvidenceSourceType.value sourceType = value

def normalizeEvidenceFilters : Json → Except String (Dict String String)
  | .null => .ok []
  | .object filters => do
    let unknown := unknownKeys filters evidenceFilterKeys
    let fields := ", ".intercalate unknown
    require (unknown = []) s!"filters contain unsupported fields: {fields}"
    let items ← filters.mapM fun item => do
      match item.2 with
      | .null => return none
      | value =>
        let text ← requiredText value s!"filters.{item.1}" 200
        require (item.1 ≠ "source_type" ∨ (parseSourceType text.1).isSome)
          "filters.source_type is invalid"
        return some (item.1, text.1)
    return items.reduceOption
  | _ => .error "filters must be an object"

def evidenceFilters (filters : Dict String String) : EvidenceFilters where
  sourceType := (filters.lookup "source_type").bind parseSourceType
  productLine := filters.lookup "product_line"
  plan := filters.lookup "plan"
  region := filters.lookup "region"
  language := filters.lookup "language"
  productVersion := filters.lookup "product_version"

end Arguments

section Results

/-- The envelopes of the tools. -/
inductive ToolResult (α : Type)
  | invalid (summary : String)
  | unavailable (label : String) (objectId : String)
  | restricted
  | success (summary : String) (data : α) (traceRef : Option String) (warnings : List String)

def ToolResult.status {α : Type} : ToolResult α → String
  | .invalid _ => "invalid"
  | .unavailable _ _ => "not_found"
  | .restricted => "restricted"
  | .success _ _ _ _ => "success"

/-- The data of a call that was served. -/
def ToolResult.data? {α : Type} : ToolResult α → Option α
  | .success _ data _ _ => some data
  | _ => none

structure TraceSummary where
  traceRef : String
  version : Nat
  freshness : FreshnessAttestation
  truthToken : Option String
  evidenceCount : Nat
  blindSpots : List String

structure KnowledgeReadData where
  object : GovernedObject
  /-- What the payload shows of the variants of an answer card. -/
  audienceVariants : List AnswerVariant
  slug : String
  version : Nat
  sourceTraceSummary : Option TraceSummary

end Results

section Checks

variable (env : Platform) (snapshot : GovernedSnapshot)

/-- The last object under the exact id. -/
def readObject (objectId : String) : Option GovernedObject :=
  (Dict.ofList (snapshot.objects.map fun object => (object.objectId, object))).lookup objectId

def publishedObjectForContext (objectId : String) (context : AudienceContext) :
    Option GovernedObject :=
  (readObject snapshot objectId).filter fun object =>
    object.lifecycleState = .published && audienceContextAllowed context object.supportedAudiences

def readTrace (objectId : String) (context : AudienceContext) (channel : String) :
    Publishing (Option SourceTrace) :=
  match publishedObjectForContext snapshot objectId context with
  | none => return none
  | some object => do
    let trace ← snapshot.buildTrace env object (some context) (some channel)
    return some trace

def deliveryIsCurrent (objectId : String) (context : AudienceContext) (channel : String) : Bool :=
  snapshot.toSubstrate.deliveryVerdict objectId channel (some context)

def isAnswerDeliverable (objectId : String) (context : AudienceContext) (channel : String) :
    Publishing Bool :=
  match publishedObjectForContext snapshot objectId context with
  | none => return false
  | some _ =>
    if !deliveryIsCurrent snapshot objectId context channel then return false
    else do
      let trace ← readTrace env snapshot objectId context channel
      return trace.any (·.freshness = .fresh)

def linkedEvidenceIds (object : GovernedObject) (context : AudienceContext) : List String :=
  object.evidenceIds ++ (object.audienceVariants.filter
    (·.audienceFilter.matchesContext context)).flatMap (·.evidenceIds)

def evidenceIsDeliverable (evidenceId : String) (context : AudienceContext) (channel : String) :
    Publishing Bool :=
  if !snapshot.toSubstrate.evidenceDeliveryVerdict evidenceId channel (some context) then return false
  else
    let objects :=
      Dict.values (Dict.ofList (snapshot.objects.map fun object => (object.objectId, object)))
    (objects.filter fun object => evidenceId ∈ linkedEvidenceIds object context).anyM fun object =>
      isAnswerDeliverable env snapshot object.objectId context channel

end Checks

section Tools

variable (env : Platform) (snapshot : GovernedSnapshot)

structure KnowledgeSearchArguments where
  query : Json
  audienceContext : Json
  channel : Json
  objectTypes : Json := .null
  limit : Json := .int 10

structure KnowledgeReadArguments where
  objectId : Json
  audienceContext : Json
  channel : Json
  includeVariants : Json := .bool true
  includeTrace : Json := .bool true

structure EvidenceSearchArguments where
  query : Json
  audienceContext : Json
  channel : Json
  filters : Json := .null
  limit : Json := .int 10

structure SourceTraceArguments where
  objectId : Json
  audienceContext : Json
  channel : Json

structure KnowledgeSearch where
  query : RequiredText
  audienceContext : AudienceContext
  channel : RequiredText
  objectTypes : Option (List RequiredText)
  limit : Nat

structure KnowledgeRead where
  objectId : RequiredText
  audienceContext : AudienceContext
  channel : RequiredText
  includeVariants : Bool
  includeTrace : Bool

structure EvidenceSearch where
  query : RequiredText
  audienceContext : AudienceContext
  channel : RequiredText
  filters : Dict String String
  limit : Nat

structure SourceTraceRead where
  objectId : RequiredText
  audienceContext : AudienceContext
  channel : RequiredText

structure KnowledgeSearchData where
  search : KnowledgeSearch
  results : List KnowledgeObjectHit

structure EvidenceSearchData where
  search : EvidenceSearch
  results : List EvidenceHit

def KnowledgeSearchArguments.check (arguments : KnowledgeSearchArguments) :
    Except String KnowledgeSearch := do
  return {
    query := ← requiredText arguments.query "query" 4000
    audienceContext := ← requiredAudienceContext arguments.audienceContext
    channel := ← requiredText arguments.channel "channel" 120
    objectTypes := ← normalizeObjectTypes arguments.objectTypes
    limit := ← normalizeLimit arguments.limit }

def KnowledgeReadArguments.check (arguments : KnowledgeReadArguments) :
    Except String KnowledgeRead := do
  return {
    objectId := ← requiredText arguments.objectId "object_id" 320
    audienceContext := ← requiredAudienceContext arguments.audienceContext
    channel := ← requiredText arguments.channel "channel" 120
    includeVariants := ← requireBool arguments.includeVariants "include_variants"
    includeTrace := ← requireBool arguments.includeTrace "include_trace" }

def EvidenceSearchArguments.check (arguments : EvidenceSearchArguments) :
    Except String EvidenceSearch := do
  return {
    query := ← requiredText arguments.query "query" 4000
    audienceContext := ← requiredAudienceContext arguments.audienceContext
    channel := ← requiredText arguments.channel "channel" 120
    filters := ← normalizeEvidenceFilters arguments.filters
    limit := ← normalizeLimit arguments.limit }

def SourceTraceArguments.check (arguments : SourceTraceArguments) : Except String SourceTraceRead := do
  return {
    objectId := ← requiredText arguments.objectId "object_id" 320
    audienceContext := ← requiredAudienceContext arguments.audienceContext
    channel := ← requiredText arguments.channel "channel" 120 }

/-- The call with its arguments checked, or the envelope that names the first bad one. -/
def withArguments {α β : Type} (arguments : Except String α)
    (call : α → Publishing (ToolResult β)) : Publishing (ToolResult β) :=
  match arguments with
  | .error message => return .invalid message
  | .ok arguments => call arguments

def searchHits (search : KnowledgeSearch) : Publishing (List KnowledgeObjectHit) :=
  snapshot.searchObjects env {
    query := search.query.1, audienceContext := some search.audienceContext,
    objectTypes := (search.objectTypes.getD []).map (·.1), channel := some search.channel.1,
    limit := search.limit }

def searchEvidenceHits (search : EvidenceSearch) : List EvidenceHit :=
  snapshot.searchEvidence env search.query.1 (some search.audienceContext)
    (evidenceFilters search.filters) search.limit

/-- The hits that the reader may read. -/
def eligibleHits {α : Type} (freshness : α → FreshnessAttestation)
    (deliverable : α → Publishing Bool) : List α → Publishing (List α)
  | [] => return []
  | hit :: hits => do
    let eligible ← if freshness hit = .fresh then deliverable hit else .ok false
    let rest ← eligibleHits freshness deliverable hits
    return if eligible then hit :: rest else rest

def searchKnowledgeObjects (arguments : KnowledgeSearchArguments) :
    Publishing (ToolResult KnowledgeSearchData) :=
  withArguments arguments.check fun search => do
    let hits ← searchHits env snapshot search
    let results ← eligibleHits KnowledgeObjectHit.freshness (fun hit =>
      isAnswerDeliverable env snapshot hit.objectId search.audienceContext search.channel.1) hits
    if hits ≠ [] ∧ results = [] then return .restricted
    return .success s!"{results.length} matching knowledge objects found"
      ⟨search, results⟩ none []

def traceSummary (trace : SourceTrace) : TraceSummary where
  traceRef := s!"trace:{trace.objectId}"
  version := trace.version
  freshness := trace.freshness
  truthToken := trace.truthToken
  evidenceCount := trace.evidenceRefs.length
  blindSpots := trace.blindSpots

/-- The object and its fresh trace, as both reads of one object look them up. -/
def readCurrent {α : Type} (label objectId : String) (context : AudienceContext) (channel : String)
    (answer : GovernedObject → SourceTrace → ToolResult α) : Publishing (ToolResult α) :=
  match publishedObjectForContext snapshot objectId context with
  | none => return .unavailable label objectId
  | some object =>
    if !deliveryIsCurrent snapshot object.objectId context channel then return .restricted
    else do
      let trace ← readTrace env snapshot object.objectId context channel
      match trace with
      | none => return .unavailable label objectId
      | some trace =>
        if trace.freshness ≠ .fresh then return .restricted
        else return answer object trace

def readKnowledgeObject (arguments : KnowledgeReadArguments) :
    Publishing (ToolResult KnowledgeReadData) :=
  withArguments arguments.check fun read =>
    readCurrent env snapshot "Knowledge object" read.objectId.1 read.audienceContext read.channel.1
      fun object trace => .success s!"Knowledge object loaded: {object.title}" {
          object
          audienceVariants := if read.includeVariants then
            object.audienceVariants.filter (·.audienceFilter.matchesContext read.audienceContext)
            else []
          slug := slugify env object.title
          version := trace.version
          sourceTraceSummary := if read.includeTrace then some (traceSummary trace) else none }
        (some s!"trace:{object.objectId}") []

def searchSupportEvidence (arguments : EvidenceSearchArguments) :
    Publishing (ToolResult EvidenceSearchData) :=
  withArguments arguments.check fun search => do
    let hits := searchEvidenceHits env snapshot search
    let results ← eligibleHits EvidenceHit.freshness (fun hit =>
      evidenceIsDeliverable env snapshot hit.evidenceId search.audienceContext search.channel.1) hits
    if hits ≠ [] ∧ results = [] then return .restricted
    return .success s!"{results.length} matching evidence records found" ⟨search, results⟩ none []

def getSourceTrace (arguments : SourceTraceArguments) : Publishing (ToolResult SourceTrace) :=
  withArguments arguments.check fun read =>
    readCurrent env snapshot "Source trace" read.objectId.1 read.audienceContext read.channel.1
      fun _ trace =>
        let objectId := read.objectId.1
        .success "Source trace loaded." trace (some s!"trace:{objectId}") trace.blindSpots

end Tools

end Cygnus.Integrations
