import Cygnus.Retrieval.GovernedObject
import Mathlib.Data.List.Infix
import Mathlib.Data.Rat.Lemmas
import Mathlib.Algebra.Order.Ring.Unbundled.Rat

/-! The keyword searches over a snapshot. Both rank what matches by the share of the query's tokens
it contains, and by title where that is the same. -/

namespace Cygnus.Retrieval

open Wiki Domain Publish Text Result Sequence

section Scores

variable (env : Platform)

/-- The share of the tokens that occur in some field. -/
def keywordScore (queryTokens fields : List String) : ℚ :=
  let haystacks := (fields.filter (strip · ≠ "")).map env.lower
  if queryTokens = [] ∨ haystacks = [] then 0
  else
    let matched := queryTokens.countP fun token =>
      haystacks.any fun haystack => token.toList <:+: haystack.toList
    matched / queryTokens.length

/-- `ranked.sort(key=…)`, and the first `limit` of what it ranks. -/
def topRanked {α : Type} (title : α → String) (limit : Nat) (ranked : List (ℚ × α)) : List α :=
  ((sortedBy (fun item => toLex (-item.1, title item.2)) ranked).map Prod.snd).take limit

theorem mem_of_mem_topRanked {α : Type} {title : α → String} {limit : Nat} {ranked : List (ℚ × α)}
    {hit : α} (h : hit ∈ topRanked title limit ranked) : ∃ score, (score, hit) ∈ ranked := by
  obtain ⟨item, hitem, rfl⟩ := List.mem_map.mp (List.mem_of_mem_take h)
  exact ⟨item.1, mem_sortedBy.mp hitem⟩

/-- Nothing that is left out goes before something that is returned. -/
theorem topRanked_best {α : Type} {title : α → String} {limit : Nat} {ranked : List (ℚ × α)} :
    ∃ best rest, (best ++ rest).Perm ranked ∧ topRanked title limit ranked = best.map Prod.snd ∧
      best.length ≤ limit ∧ (best.length < limit → rest = []) ∧
      ∀ item ∈ best, ∀ other ∈ rest, other.1 ≤ item.1 ∧
        (other.1 = item.1 → title item.2 ≤ title other.2) := by
  have hsorted := pairwise_sortedBy (fun item : ℚ × α => toLex (-item.1, title item.2)) ranked
  generalize hkey : sortedBy (fun item : ℚ × α => toLex (-item.1, title item.2)) ranked = sorted
    at hsorted
  refine ⟨sorted.take limit, sorted.drop limit, ?_, ?_, List.length_take_le _ _, ?_, ?_⟩
  · rw [List.take_append_drop, ← hkey]
    exact perm_sortedBy _ _
  · rw [topRanked, hkey, List.map_take]
  · intro hlt
    rw [List.length_take] at hlt
    exact List.drop_eq_nil_of_le (by omega)
  · intro item hitem other hother
    rw [← List.take_append_drop limit sorted, List.pairwise_append] at hsorted
    have hle := hsorted.2.2 item hitem other hother
    rw [Prod.Lex.le_iff] at hle
    simp only [ofLex_toLex] at hle
    rcases hle with hlt | ⟨heq, htitle⟩
    · exact ⟨by linarith, fun hsame => by linarith⟩
    · exact ⟨by linarith, fun _ => htitle⟩

end Scores

section Objects

/-- How a hit matches the reader, `exact`, `partial` or `probe`. -/
inductive AudienceMatch
  | exactly
  | everyone
  | probe
  deriving DecidableEq

def AudienceMatch.value : AudienceMatch → String
  | .exactly => "exact"
  | .everyone => "partial"
  | .probe => "probe"

structure KnowledgeObjectHit where
  objectId : String
  slug : String
  objectType : KnowledgeObjectType
  title : String
  audienceMatch : AudienceMatch
  freshness : FreshnessAttestation
  publicationStatus : LifecycleState
  snippet : String
  traceRef : String

def resolveAudienceMatch (object : GovernedObject) : Option AudienceContext → Option AudienceMatch
  | none => none
  | some context =>
    let matching := object.supportedAudiences.filter (·.matchesContext context)
    if matching.any (!·.isGlobal) then some .exactly
    else if matching ≠ [] then some .everyone
    else none

def searchableFields (object : GovernedObject) : List String :=
  [object.title, object.summary, " ".intercalate object.tags] ++
    match object.body with
    | .answerCard card => [card.question, card.canonicalAnswer, " ".intercalate card.constraints,
        " ".intercalate (card.audienceVariants.map (·.content.1)),
        " ".intercalate (card.audienceVariants.map fun variant => variant.label.elim "" Subtype.val)]
    | .troubleshootingFlow flow => [flow.problemStatement, " ".intercalate flow.prerequisites,
        " ".intercalate flow.steps, " ".intercalate flow.branchingConditions,
        " ".intercalate flow.stopConditions]
    | .policyRule rule => [rule.ruleDomain, rule.ruleStatement,
        " ".intercalate rule.effectiveConditions, " ".intercalate rule.exceptions]
    | .knownIssuePage issue => [issue.issueSummary, issue.workaround, issue.issueStatus,
        " ".intercalate issue.affectedProducts, " ".intercalate issue.affectedVersions]
    | .escalationRoute route => [" ".intercalate route.triggerConditions, route.destinationTeam,
        " ".intercalate route.requiredContext, " ".intercalate route.blockedDomains,
        route.severityHint.getD ""]

def snippetFor (object : GovernedObject) : String :=
  match object.body with
  | .answerCard card => card.canonicalAnswer
  | .troubleshootingFlow flow => flow.steps.head flow.stepped
  | .policyRule rule => rule.ruleStatement
  | .knownIssuePage issue => issue.workaround
  | .escalationRoute route => route.destinationTeam

/-- The arguments of `KnowledgeObjectIndex.search`. -/
structure ObjectSearch where
  query : String
  audienceContext : Option AudienceContext
  objectTypes : List String := []
  channel : Option String
  limit : Nat
  includeUnpublished : Bool := false
  matchAudience : Bool := true

variable (env : Platform) (snapshot : GovernedSnapshot)

def GovernedSnapshot.buildTrace (object : GovernedObject) (context : Option AudienceContext)
    (channel : Option String) : Publishing SourceTrace :=
  snapshot.toSubstrate.resolver.buildTraceForObject env object.toSupport context channel

/-- The object as far as the search looks at it before the trace. -/
def ObjectSearch.admits (search : ObjectSearch) (object : GovernedObject) : Bool :=
  let allowedTypes := (search.objectTypes.map strip).filter (· ≠ "")
  (allowedTypes = [] || objectTypeValue object.body.objectType ∈ allowedTypes) &&
    (search.includeUnpublished || object.lifecycleState = .published)

def ObjectSearch.audienceMatch (search : ObjectSearch) (object : GovernedObject) :
    Option AudienceMatch :=
  if search.matchAudience then resolveAudienceMatch object search.audienceContext else some .probe

def GovernedSnapshot.rankObject (search : ObjectSearch) (object : GovernedObject) :
    Publishing (Option (ℚ × KnowledgeObjectHit)) :=
  if search.admits object then
    match search.audienceMatch object with
    | none => return none
    | some audienceMatch =>
      let score := keywordScore env (tokenize env search.query) (searchableFields object)
      if score ≤ 0 then return none
      else do
        let trace ← snapshot.buildTrace env object search.audienceContext search.channel
        return some (score, {
          objectId := object.objectId, slug := slugify env object.title,
          objectType := object.body.objectType, title := object.title, audienceMatch,
          freshness := trace.freshness, publicationStatus := object.lifecycleState,
          snippet := snippetFor object, traceRef := s!"trace:{object.objectId}" })
  else return none

/-- `KnowledgeObjectIndex.search`. -/
def GovernedSnapshot.searchObjects (search : ObjectSearch) : Publishing (List KnowledgeObjectHit) := do
  let ranked ← snapshot.objects.mapM (snapshot.rankObject env search)
  return topRanked KnowledgeObjectHit.title search.limit ranked.reduceOption

end Objects

section Evidence

structure EvidenceHit where
  evidenceId : String
  title : String
  sourceType : EvidenceSourceType
  sourceRef : String
  excerptRef : String
  freshness : FreshnessAttestation
  confidence : ℚ
  snippet : String
  revision : Option String
  capturedAt : Option String

/-- Filters that name a known source type. -/
structure EvidenceFilters where
  sourceType : Option EvidenceSourceType := none
  productLine : Option String := none
  plan : Option String := none
  region : Option String := none
  language : Option String := none
  productVersion : Option String := none

def EvidenceFilters.admits (filters : EvidenceFilters) (evidence : IndexedEvidence) : Bool :=
  filters.sourceType.all (evidence.sourceType = ·) &&
    filters.productLine.all (· ∈ evidence.productLines) && filters.plan.all (· ∈ evidence.plans) &&
    filters.region.all (· ∈ evidence.regions) && filters.language.all (· ∈ evidence.languages) &&
    filters.productVersion.all (· ∈ evidence.productVersions)

variable (env : Platform)

def rankEvidence (query : String) (context : Option AudienceContext) (filters : EvidenceFilters)
    (evidence : IndexedEvidence) : Option (ℚ × EvidenceHit) :=
  if !context.all fun context => audienceContextAllowed context [evidence.audienceFilter] then none
  else if !filters.admits evidence then none
  else
    let score := keywordScore env (tokenize env query) [evidence.title.1, evidence.content.1,
      evidence.sourceRef.1, " ".intercalate evidence.tags]
    if score ≤ 0 then none
    else some (score, {
      evidenceId := evidence.evidenceId.1, title := evidence.title.1,
      sourceType := evidence.sourceType, sourceRef := evidence.sourceRef.1,
      excerptRef := excerptRefFor evidence.evidenceId.1 evidence.content.1,
      freshness := evidence.freshnessState, confidence := score,
      snippet := slice evidence.content.1 0 160, revision := evidence.revision,
      capturedAt := evidence.updatedAt })

/-- `EvidenceIndex.search`. -/
def GovernedSnapshot.searchEvidence (snapshot : GovernedSnapshot) (query : String)
    (context : Option AudienceContext) (filters : EvidenceFilters) (limit : Nat) :
    List EvidenceHit :=
  topRanked EvidenceHit.title limit (snapshot.evidence.filterMap (rankEvidence env query context filters))

end Evidence

end Cygnus.Retrieval
