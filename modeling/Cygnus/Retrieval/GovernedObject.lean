import Cygnus.Retrieval.SubstrateProvider

/-! A support object with the texts it answers with, and the snapshot that serves it. Publication and
traces read less of an object, which is what `toSupport` keeps. -/

namespace Cygnus.Retrieval

open Wiki Domain Publish Text Result

section Objects

structure AnswerVariant extends AudienceVariant where
  content : NonBlank
  caveats : List String := []

structure AnswerCard where
  question : String
  canonicalAnswer : String
  constraints : List String := []
  audienceVariants : List AnswerVariant := []
  publishTargets : List NonBlank := []

structure TroubleshootingFlow where
  problemStatement : String
  prerequisites : List String := []
  steps : List String
  branchingConditions : List String := []
  stopConditions : List String := []
  escalationRouteId : Option String := none
  stepped : steps ≠ []

structure PolicyRule where
  ruleDomain : String
  ruleStatement : String
  effectiveConditions : List String := []
  exceptions : List String := []
  authoritySource : Option String := none
  humanOverrideNotes : List String := []

structure KnownIssuePage where
  issueSummary : String
  workaround : String
  issueStatus : String
  affectedProducts : List String := []
  affectedVersions : List String := []
  expectedNextUpdate : Option String := none

structure EscalationRoute where
  triggerConditions : List String
  destinationTeam : String
  requiredContext : List String := []
  blockedDomains : List String := []
  severityHint : Option String := none
  triggered : triggerConditions ≠ []

/-- What the subclasses of a knowledge object add to it. -/
inductive ObjectBody
  | answerCard (card : AnswerCard)
  | troubleshootingFlow (flow : TroubleshootingFlow)
  | policyRule (rule : PolicyRule)
  | knownIssuePage (issue : KnownIssuePage)
  | escalationRoute (route : EscalationRoute)

def ObjectBody.objectType : ObjectBody → KnowledgeObjectType
  | .answerCard _ => .answerCard
  | .troubleshootingFlow _ => .troubleshootingFlow
  | .policyRule _ => .policyRule
  | .knownIssuePage _ => .knownIssuePage
  | .escalationRoute _ => .escalationRoute

structure GovernedObject where
  objectId : String
  title : String
  summary : String
  lifecycleState : LifecycleState
  supportedAudiences : List AudienceFilter
  evidenceIds : List String
  tags : List String
  body : ObjectBody

def GovernedObject.audienceVariants (object : GovernedObject) : List AnswerVariant :=
  match object.body with
  | .answerCard card => card.audienceVariants
  | _ => []

def GovernedObject.publishTargets (object : GovernedObject) : List NonBlank :=
  match object.body with
  | .answerCard card => card.publishTargets
  | _ => []

def GovernedObject.toSupport (object : GovernedObject) : SupportObject where
  objectId := object.objectId
  objectType := object.body.objectType
  title := object.title
  lifecycleState := object.lifecycleState
  supportedAudiences := object.supportedAudiences
  evidenceIds := object.evidenceIds
  audienceVariants := object.audienceVariants.map AnswerVariant.toAudienceVariant
  publishTargets := object.publishTargets

/-- An evidence record with the values it is searched by. -/
structure IndexedEvidence extends SupportEvidence where
  productLines : List String := []
  plans : List String := []
  regions : List String := []
  languages : List String := []
  productVersions : List String := []
  tags : List String := []

structure GovernedSnapshot where
  objects : List GovernedObject := []
  evidence : List IndexedEvidence := []
  persistedTruthByObject : Dict String PersistedObjectTruth := []
  deliveryRecordsByObject : Dict String (List PersistedDeliveryRecord) := []

def GovernedSnapshot.toSubstrate (snapshot : GovernedSnapshot) : SubstrateKnowledgeSnapshot where
  objects := snapshot.objects.map GovernedObject.toSupport
  evidence := snapshot.evidence.map IndexedEvidence.toSupportEvidence
  persistedTruthByObject := snapshot.persistedTruthByObject
  deliveryRecordsByObject := snapshot.deliveryRecordsByObject

end Objects

section Projection

/-- `values or (default,)`, each stripped by the constructor. -/
def normalizedOr (values : List String) (default : String) : List String :=
  (if values = [] then [default] else values).map strip

theorem normalizedOr_ne_nil {values : List String} {default : String} :
    normalizedOr values default ≠ [] := by
  unfold normalizedOr
  split <;> simp_all

def objectBody (page : WikiPage) : KnowledgeObjectType → ObjectBody
  | .answerCard => .answerCard {
      question := page.title
      canonicalAnswer := orText (excerpt page.contentMd) (summaryFor page) }
  | .troubleshootingFlow => .troubleshootingFlow {
      problemStatement := summaryFor page
      steps := normalizedOr (listItems page.contentMd) s!"See wiki page: {page.slug}"
      stepped := normalizedOr_ne_nil }
  | .policyRule => .policyRule {
      ruleDomain := page.knowledgeTypeSlugs.headD "policy"
      ruleStatement := summaryFor page
      authoritySource := some s!"wiki:{page.slug}" }
  | .knownIssuePage => .knownIssuePage {
      issueSummary := summaryFor page
      workaround := orText (excerpt page.contentMd) (summaryFor page)
      issueStatus := orText page.status "seed" }
  | .escalationRoute => .escalationRoute {
      triggerConditions := normalizedOr (listItems page.contentMd) (summaryFor page)
      destinationTeam := "unassigned"
      triggered := normalizedOr_ne_nil }

@[simp] theorem objectType_objectBody (page : WikiPage) (objectType : KnowledgeObjectType) :
    (objectBody page objectType).objectType = objectType := by
  cases objectType <;> rfl

/-- The object of a page, from what publication reads of it. -/
def governedObject (page : GovernedPage) (support : SupportObject) : GovernedObject where
  objectId := support.objectId
  title := support.title
  summary := summaryFor page.toWikiPage
  lifecycleState := support.lifecycleState
  supportedAudiences := support.supportedAudiences
  evidenceIds := support.evidenceIds
  tags := ((page.knowledgeTypeSlugs ++ ["substrate-mapped"]).eraseDups).map strip
  body := objectBody page.toWikiPage support.objectType

@[simp] theorem audienceVariants_governedObject (page : GovernedPage) (support : SupportObject) :
    (governedObject page support).audienceVariants = [] := by
  unfold governedObject GovernedObject.audienceVariants
  cases support.objectType <;> rfl

@[simp] theorem publishTargets_governedObject (page : GovernedPage) (support : SupportObject) :
    (governedObject page support).publishTargets = [] := by
  unfold governedObject GovernedObject.publishTargets
  cases support.objectType <;> rfl

/-- A page gives its object neither variants nor targets. -/
theorem toSupport_governedObject {page : GovernedPage} {support : SupportObject}
    (hvariants : support.audienceVariants = []) (htargets : support.publishTargets = []) :
    (governedObject page support).toSupport = support := by
  obtain ⟨⟨objectId, objectType, title⟩, lifecycleState, audiences, evidenceIds, variants, targets⟩ :=
    support
  obtain rfl : variants = [] := hvariants
  obtain rfl : targets = [] := htargets
  unfold GovernedObject.toSupport
  rw [audienceVariants_governedObject, publishTargets_governedObject]
  simp [governedObject]

variable (env : Platform) (rows : SubstrateRows)

def evidenceTags (source : SourceDocument) : List String :=
  let slug := source.knowledgeTypeId.bind fun id =>
    (rows.knowledgeTypes.reverse.find? (·.id = id)).map KnowledgeType.slug
  ([env.lower (strip (slug.getD "")), "substrate-mapped"].filter (· ≠ "")).map strip

def readySources (page : GovernedPage) : List SourceDocument :=
  (pageSources rows page).filter (·.status = "ready")

/-- Each record of a page with each ready source of the page, in the order of the loops. -/
def evidenceItems (page : GovernedPage) (records : List PersistedDeliveryRecord) :
    List (PersistedDeliveryRecord × SourceDocument) :=
  records.flatMap fun record => (readySources rows page).map fun source => (record, source)

structure GovernedProjection where
  object : GovernedObject
  evidence : List IndexedEvidence
  truth : PersistedObjectTruth
  records : List PersistedDeliveryRecord

def governedProjection (page : GovernedPage) (projection : PageProjection) : GovernedProjection where
  object := governedObject page projection.object
  evidence := (projection.evidence.zip (evidenceItems rows page projection.records)).map fun item =>
    { item.1 with tags := evidenceTags env rows item.2.2 }
  truth := projection.truth
  records := projection.records

def projectGovernedPage (now : Timestamp) (page : GovernedPage) :
    Publishing (Option GovernedProjection) := do
  let projection ← projectPage env rows now page
  return projection.map (governedProjection env rows page)

def GovernedSnapshot.ofProjections (projections : List GovernedProjection) : GovernedSnapshot where
  objects := projections.map GovernedProjection.object
  evidence := projections.flatMap GovernedProjection.evidence
  persistedTruthByObject := Dict.ofList (projections.map fun page =>
    (page.object.objectId, page.truth))
  deliveryRecordsByObject := Dict.ofList (projections.map fun page =>
    (page.object.objectId, page.records))

def loadGovernedSnapshot (now : Timestamp) : Publishing GovernedSnapshot := do
  let projections ← rows.pages.mapM (projectGovernedPage env rows now)
  return .ofProjections projections.reduceOption

end Projection

end Cygnus.Retrieval
