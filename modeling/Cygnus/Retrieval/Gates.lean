import Cygnus.Retrieval.SubstrateProvider

/-! The two gates of a governed read: the verdict of the snapshot, and the trace. Both come down to
the records that are eligible for the reader on the channel. -/

namespace Cygnus.Retrieval

open Wiki Domain Governance Publish Delivery Text Result

section Eligible

variable {truth : PersistedObjectTruth} {records : List PersistedDeliveryRecord}
  {record : PersistedDeliveryRecord} {channel : String} {context : AudienceContext}

/-- The records that a trace ends with. -/
def tracedRecords (truth : PersistedObjectTruth) (records : List PersistedDeliveryRecord)
    (context : Option AudienceContext) (channel : Option String) : List PersistedDeliveryRecord :=
  let current := currentRecords truth (matchingRecords records context channel)
  publishedRecords current (matchedPublications truth current)

theorem mem_matchingRecords :
    record ∈ matchingRecords records (some context) (some channel) ↔
      record ∈ records ∧ record.channel.1 = channel ∧
        record.audienceFilter.matchesContext context = true := by
  simp only [matchingRecords, List.mem_filter, Bool.and_eq_true, decide_eq_true_eq,
    Option.some.injEq, Option.any_some]
  rw [eq_comm (a := channel)]

theorem mem_matchedPublications {publication : PublicationRecord} :
    publication ∈ matchedPublications truth records ↔ publication ∈ truth.publicationRecords ∧
      ∃ record ∈ records, record.matchesPublicationRecord publication = true := by
  simp [matchedPublications]

/-- The trace tests a record against the publications some record of the object matches, which are
those it matches itself. -/
theorem mem_publishedRecords :
    record ∈ publishedRecords records (matchedPublications truth records) ↔ record ∈ records ∧
      ∃ publication ∈ truth.publicationRecords,
        record.matchesPublicationRecord publication = true := by
  simp only [publishedRecords, List.mem_filter, List.any_eq_true, mem_matchedPublications]
  constructor
  · rintro ⟨hrecord, publication, ⟨hstored, -⟩, hmatches⟩
    exact ⟨hrecord, publication, hstored, hmatches⟩
  · rintro ⟨hrecord, publication, hstored, hmatches⟩
    exact ⟨hrecord, publication, ⟨hstored, record, hrecord, hmatches⟩, hmatches⟩

theorem mem_tracedRecords (hcomplete : truth.sourceEvidenceComplete = true) :
    record ∈ tracedRecords truth records (some context) (some channel) ↔
      record ∈ records ∧ recordIsDeliveryEligible record truth channel context = true := by
  simp only [tracedRecords, mem_publishedRecords, currentRecords, List.mem_filter,
    mem_matchingRecords, recordIsDeliveryEligible, Bool.and_eq_true, decide_eq_true_eq,
    List.any_eq_true, hcomplete, and_true]
  tauto

theorem matchedPublications_eq_nil :
    matchedPublications truth records = [] ↔
      publishedRecords records (matchedPublications truth records) = [] := by
  simp only [List.eq_nil_iff_forall_not_mem, mem_publishedRecords, mem_matchedPublications]
  constructor
  · rintro hnone record ⟨hrecord, publication, hstored, hmatches⟩
    exact hnone publication ⟨hstored, record, hrecord, hmatches⟩
  · rintro hnone publication ⟨hstored, record, hrecord, hmatches⟩
    exact hnone record ⟨hrecord, publication, hstored, hmatches⟩

end Eligible

theorem mem_of_lookup {κ α : Type} [BEq κ] [LawfulBEq κ] {d : Dict κ α} {key : κ} {value : α}
    (h : d.lookup key = some value) : (key, value) ∈ d := by
  obtain ⟨first, rest, rfl, -⟩ := List.lookup_eq_some_iff.mp h
  exact List.mem_append_right _ List.mem_cons_self

section Verdicts

variable {snapshot : SubstrateKnowledgeSnapshot} {truth : PersistedObjectTruth}
  {objectId channel : String} {context : AudienceContext}

theorem ne_blank_of_eligible {record : PersistedDeliveryRecord}
    (h : recordIsDeliveryEligible record truth channel context = true) : strip channel ≠ "" := by
  simp only [recordIsDeliveryEligible, Bool.and_eq_true, decide_eq_true_eq] at h
  rw [← h.1.1.1.1.1]
  exact record.channel.2

theorem deliveryVerdict_iff (htruth : snapshot.truth? objectId = some truth) :
    snapshot.deliveryVerdict objectId channel (some context) = true ↔
      ∃ record ∈ (snapshot.deliveryRecordsByObject.lookup objectId).getD [],
        recordIsDeliveryEligible record truth channel context = true := by
  simp only [SubstrateKnowledgeSnapshot.deliveryVerdict, htruth]
  split
  · rename_i hblank
    simp only [Bool.false_eq_true, false_iff, not_exists, not_and]
    intro record _ heligible
    exact ne_blank_of_eligible heligible hblank
  · rw [List.any_eq_true]

/-- An eligible record of any object vouches for the evidence of its binding. -/
theorem evidenceDeliveryVerdict_of_eligible {records : List PersistedDeliveryRecord}
    {record : PersistedDeliveryRecord} {evidenceId : String}
    (htruth : snapshot.truth? objectId = some truth)
    (hrecords : snapshot.deliveryRecordsByObject.lookup objectId = some records)
    (hrecord : record ∈ records)
    (heligible : recordIsDeliveryEligible record truth channel context = true)
    (hscoped : bindingScoped evidenceId record = true) (hid : strip evidenceId ≠ "") :
    snapshot.evidenceDeliveryVerdict evidenceId channel (some context) = true := by
  simp only [SubstrateKnowledgeSnapshot.evidenceDeliveryVerdict]
  rw [if_neg (not_or.mpr ⟨ne_blank_of_eligible heligible, hid⟩), List.any_eq_true]
  refine ⟨(objectId, records), mem_of_lookup hrecords, ?_⟩
  simp only [htruth, Option.any_some, List.any_eq_true, Bool.and_eq_true]
  exact ⟨record, hrecord, hscoped, heligible⟩

end Verdicts

section Traces

variable {env : Platform} {resolver : SourceTraceResolver} {object : SupportObject}
  {truth : PersistedObjectTruth} {traced : List PersistedDeliveryRecord}
  {publications : List PublicationRecord} {context : Option AudienceContext}

theorem traceLinks_blindSpots {truth : Option PersistedObjectTruth} :
    "source_evidence_incomplete" ∉
      (resolver.traceLinks env object context truth traced publications).blindSpots := by
  intro hmem
  simp only [SourceTraceResolver.traceLinks, List.mem_append] at hmem
  rcases hmem with ((hmem | hmem) | hmem) | hmem
  · split at hmem <;> simp at hmem
  · obtain ⟨outcome, -, hspot⟩ := List.mem_filterMap.mp hmem
    cases outcome with
    | missing evidenceId =>
      -- a missing reference is named with another first letter
      have hfirst := congrArg (fun spot => spot.toList.head?) (Option.some.inj hspot)
      simp [toString] at hfirst
    | omitted | readable => cases hspot
  · split at hmem <;> simp at hmem
  · split at hmem <;> simp at hmem

/-- A reference was found through a record of the trace, and is for the reader. -/
theorem traceLinks_evidenceRefs {truth : Option PersistedObjectTruth} {reader : AudienceContext}
    {ref : SourceTraceEvidenceRef} (htraced : traced ≠ [])
    (hmem : ref ∈ (resolver.traceLinks env object (some reader) truth traced
      publications).evidenceRefs) :
    ∃ link evidence, resolver.evidenceById link.evidenceId = some evidence ∧
      ref = evidenceRef link evidence ∧ evidence.audienceFilter.matchesContext reader = true ∧
      ∃ record ∈ traced, bindingScoped link.evidenceId record = true := by
  simp only [SourceTraceResolver.traceLinks] at hmem
  obtain ⟨outcome, houtcome, href⟩ := List.mem_filterMap.mp hmem
  obtain ⟨link, -, rfl⟩ := List.mem_map.mp houtcome
  unfold SourceTraceResolver.resolveLink at href
  split at href
  · cases href
  · rename_i hscoped
    split at href
    · cases href
    · rename_i evidence hevidence
      split at href
      · rename_i hallowed
        rw [Option.all_some, audienceContextAllowed_singleton] at hallowed
        have hany : traced.any (bindingScoped link.evidenceId) = true := by
          by_contra hnone
          exact hscoped ⟨htraced, hnone⟩
        exact ⟨link, evidence, hevidence, (Option.some.inj href).symm, hallowed,
          List.any_eq_true.mp hany⟩
      · cases href

/-- The trace of an object with its truth, for a reader on a channel: it names publications exactly
when some record is left, and reads evidence only when the sources are complete. -/
theorem buildTraceForObject_some {reader : AudienceContext} {channel : String}
    (htruth : resolver.truthByObject object.objectId = some truth)
    (hid : object.objectId = governedObjectRef truth.pageId)
    (htraced : tracedRecords truth (resolver.deliveryRecordsByObject object.objectId) (some reader)
      (some channel) = traced) :
    ∃ trace, resolver.buildTraceForObject env object (some reader) (some channel) = .ok trace ∧
      (trace.publicationRecords ≠ [] ∧ "source_evidence_incomplete" ∉ trace.blindSpots ↔
        traced ≠ [] ∧ truth.sourceEvidenceComplete = true) ∧
      (trace.evidenceRefs ≠ [] → traced ≠ [] ∧ truth.sourceEvidenceComplete = true ∧
        ∃ publications, trace =
          resolver.traceLinks env object (some reader) (some truth) traced publications) := by
  have hdenied : ∀ {blindSpot : String}, (SourceTrace.denied object truth blindSpot).publicationRecords = [] :=
    rfl
  unfold SourceTraceResolver.buildTraceForObject
  simp only [htruth]
  rw [if_neg (not_not.mpr hid), if_neg (by simp)]
  unfold tracedRecords at htraced
  dsimp only at htraced
  split
  · rename_i hrecords
    rw [hrecords] at htraced
    obtain rfl : [] = traced := htraced
    exact ⟨_, rfl, by simp [hdenied], fun hrefs => absurd rfl hrefs⟩
  split
  · rename_i hcurrent
    rw [hcurrent] at htraced
    obtain rfl : [] = traced := htraced
    exact ⟨_, rfl, by simp [hdenied], fun hrefs => absurd rfl hrefs⟩
  rw [htraced]
  split
  · rename_i hnone
    exact ⟨_, rfl, by simp [hdenied, hnone], fun hrefs => absurd rfl hrefs⟩
  rename_i hsome
  split
  · rename_i hincomplete
    have hfalse : truth.sourceEvidenceComplete = false := by simpa using hincomplete
    exact ⟨_, rfl, by simp [SourceTrace.denied, hfalse], fun hrefs => absurd rfl hrefs⟩
  · rename_i hcomplete
    have hpublications := mt matchedPublications_eq_nil.mp (htraced ▸ hsome)
    refine ⟨_, rfl, ⟨fun _ => ⟨hsome, by simpa using hcomplete⟩, fun _ => ⟨?_, ?_⟩⟩,
      fun _ => ⟨hsome, by simpa using hcomplete, _, rfl⟩⟩
    · exact hpublications
    · exact traceLinks_blindSpots

end Traces

section Snapshots

variable {env : Platform} {rows : SubstrateRows} {now : Timestamp}
  {snapshot : SubstrateKnowledgeSnapshot} {object : SupportObject}

theorem projectPage_ok {page : GovernedPage} {projection : PageProjection}
    (h : projectPage env rows now page = .ok (some projection)) :
    projection.object.objectId = governedObjectRef projection.truth.pageId := by
  unfold projectPage at h
  split at h
  · cases h
  · simp only [bind_ok] at h
    obtain ⟨pairs, -, h⟩ := h
    split at h
    · cases h
    · simp only [bind_ok] at h
      obtain ⟨evidence, -, projected, hprojected, h⟩ := h
      split at h
      · cases h
      · rename_i object
        simp only [bind_ok, pure_ok, Option.some.injEq] at h
        obtain ⟨truth, htruth, rfl⟩ := h
        have hpage : truth.pageId = page.id := by
          unfold PersistedObjectTruth.make at htruth
          split at htruth
          · simp only [bind_ok, pure_ok] at htruth
            obtain ⟨-, -, rfl⟩ := htruth
            rfl
          · cases htruth
        have hobject : object.objectId = governedObjectRef page.id := by
          unfold wikiPageToKnowledgeObject at hprojected
          split at hprojected
          · cases hprojected
          · split at hprojected
            · cases hprojected
            · simp only [bind_ok, pure_ok, Option.some.injEq] at hprojected
              obtain ⟨-, -, -, -, -, -, -, -, -, -, -, -, rfl⟩ := hprojected
              rfl
        dsimp only [supportObject]
        rw [hpage, hobject]

/-- Every object of a snapshot is there with the truth of its page. -/
theorem loadSubstrateSnapshot_truth (h : loadSubstrateSnapshot env rows now = .ok snapshot)
    (hobject : object ∈ snapshot.objects) :
    ∃ truth, snapshot.persistedTruthByObject.lookup object.objectId = some truth ∧
      object.objectId = governedObjectRef truth.pageId := by
  simp only [loadSubstrateSnapshot, bind_ok, pure_ok] at h
  obtain ⟨projections, hpages, rfl⟩ := h
  have hprojections : ∀ projection ∈ projections.reduceOption,
      projection.object.objectId = governedObjectRef projection.truth.pageId := by
    intro projection hmem
    rw [List.reduceOption_mem_iff] at hmem
    obtain ⟨page, -, hpage⟩ := mem_of_mapM_ok hpages hmem
    exact projectPage_ok hpage
  obtain ⟨projection, hprojection, rfl⟩ := List.mem_map.mp hobject
  have hkey : projection.object.objectId ∈
      Dict.keys (Dict.ofList (projections.reduceOption.map fun page =>
        (page.object.objectId, page.truth))) := by
    rw [Dict.mem_keys_ofList]
    exact List.mem_map.mpr ⟨_, List.mem_map_of_mem hprojection, rfl⟩
  cases hlookup : (SubstrateKnowledgeSnapshot.ofProjections
      projections.reduceOption).persistedTruthByObject.lookup projection.object.objectId with
  | none =>
    obtain ⟨item, hitem, hitemKey⟩ := List.mem_map.mp hkey
    have hne := List.lookup_eq_none_iff.mp hlookup item hitem
    rw [hitemKey] at hne
    simp at hne
  | some truth =>
    obtain ⟨other, hother, heq⟩ := List.mem_map.mp (Dict.mem_ofList (mem_of_lookup hlookup))
    obtain ⟨hid, rfl⟩ := Prod.mk.injEq .. ▸ heq
    exact ⟨other.truth, rfl, hid ▸ hprojections other hother⟩

theorem gates_agree (h : loadSubstrateSnapshot env rows now = .ok snapshot)
    (hobject : object ∈ snapshot.objects) (channel : String) (context : Option AudienceContext) :
    ∃ trace, snapshot.resolver.buildTraceForObject env object context (some channel) = .ok trace ∧
      (snapshot.deliveryVerdict object.objectId channel context = true ↔
        trace.publicationRecords ≠ [] ∧ "source_evidence_incomplete" ∉ trace.blindSpots) ∧
      ∀ ref ∈ trace.evidenceRefs,
        snapshot.evidenceDeliveryVerdict ref.evidenceId channel context = true ∧
          ∃ evidence reader, snapshot.resolver.evidenceById ref.evidenceId = some evidence ∧
            context = some reader ∧ evidence.audienceFilter.matchesContext reader = true := by
  obtain ⟨truth, hlookup, hid⟩ := loadSubstrateSnapshot_truth h hobject
  cases context with
  | none =>
    -- without a reader the verdict is false and the trace is empty
    refine ⟨.denied object truth "audience_context_and_channel_required", ?_, ?_, ?_⟩
    · simp [SourceTraceResolver.buildTraceForObject, SubstrateKnowledgeSnapshot.resolver, hlookup,
        ← hid]
    · simp [SubstrateKnowledgeSnapshot.deliveryVerdict, SourceTrace.denied]
    · intro ref hmem
      cases hmem
  | some reader =>
    have htruth : snapshot.truth? object.objectId = some truth := by
      simp [SubstrateKnowledgeSnapshot.truth?, hlookup, ← hid]
    obtain ⟨trace, htrace, hverdict, hrefs⟩ := 
      @buildTraceForObject_some env snapshot.resolver _ _ _ reader channel hlookup hid rfl
    refine ⟨trace, htrace, ?_, ?_⟩
    · rw [hverdict, deliveryVerdict_iff htruth]
      constructor
      · rintro ⟨record, hrecord, heligible⟩
        have hcomplete : truth.sourceEvidenceComplete = true := by
          simp only [recordIsDeliveryEligible, Bool.and_eq_true] at heligible
          exact heligible.1.1.1.2
        refine ⟨List.ne_nil_of_mem ((mem_tracedRecords hcomplete).mpr ⟨hrecord, heligible⟩),
          hcomplete⟩
      · rintro ⟨hsome, hcomplete⟩
        obtain ⟨record, hrecord⟩ := List.exists_mem_of_ne_nil _ hsome
        exact ⟨record, (mem_tracedRecords hcomplete).mp hrecord⟩
    · intro ref hmem
      obtain ⟨hsome, hcomplete, publications, rfl⟩ := hrefs (List.ne_nil_of_mem hmem)
      obtain ⟨link, evidence, hevidence, rfl, hmatches, record, hrecord, hscoped⟩ :=
        traceLinks_evidenceRefs hsome hmem
      obtain ⟨hstored, heligible⟩ := (mem_tracedRecords hcomplete).mp hrecord
      have hevidenceId : evidence.evidenceId.1 = link.evidenceId := by
        simpa using List.find?_some hevidence
      cases hrecords : snapshot.deliveryRecordsByObject.lookup object.objectId with
      | none =>
        rw [SubstrateKnowledgeSnapshot.resolver] at hstored
        dsimp only at hstored
        rw [hrecords] at hstored
        cases hstored
      | some records =>
        rw [SubstrateKnowledgeSnapshot.resolver] at hstored
        dsimp only at hstored
        rw [hrecords, Option.getD_some] at hstored
        refine ⟨?_, evidence, reader, ?_, rfl, hmatches⟩
        · apply evidenceDeliveryVerdict_of_eligible htruth hrecords hstored heligible
          · dsimp only [evidenceRef]
            rw [hevidenceId]
            exact hscoped
          · exact evidence.evidenceId.2
        · dsimp only [evidenceRef]
          rw [hevidenceId]
          exact hevidence

end Snapshots

section Scenario

/-- Enough of the platform for texts that are lower case already. -/
def lowerPlatform : Platform := ⟨id, fun _ => "d1", fun _ => "\x7b\x7d", fun _ => "2026-01-01"⟩

def refundsPage : GovernedPage :=
  { id := 7, slug := "refunds", title := "Refunds", status := "mature",
    summary := "Refunds take ten days.", normalizedPath := "refunds",
    knowledgeTypeSlugs := ["policy_rule"], sourceIds := [9] }

def webBinding : AudienceBinding :=
  { id := 8, pageId := 7, objectRef := governedObjectRef 7, variantRef := "a", channel := "web",
    visibility := .external, bindingKey := "k1" }

def webAudienceDict : Json := .object [
  ("visibility", .str "external"), ("brands", .list []), ("product_lines", .list []),
  ("plans", .list []), ("regions", .list []), ("languages", .list []),
  ("product_versions", .list []), ("is_global", .bool true)]

/-- The page is approved, published and acknowledged on the web. -/
def publishedRows : SubstrateRows where
  pages := [refundsPage]
  sources := [{ id := 9, status := "ready", title := some "Handbook", fullText := some "Ten days." }]
  publications := [
    { id := 20, pageId := 7, approvalEventId := 30, objectRef := governedObjectRef 7,
      objectVersion := 1, effectiveObjectStatus := "mature", approvalDigest := "a1",
      scopeDigest := "s1", publishedAt := 5 }]
  bindings := [webBinding]
  propagations := [
    { id := 40, publicationId := 20, surfaceId := "web", desiredDigest := some "p1",
      status := .synced, bindingRefs := .list [.object [
        ("channel", .str "web"), ("audience_filter", webAudienceDict)]] }]
  deliveries := [
    { id := 50, propagationId := 40, publicationId := 20, surfaceId := "web", status := .synced,
      desiredDigest := "p1", acknowledgedDigest := some "p1", expectedPageVersion := 1,
      expectedApprovalVersion := 3,
      expectedBindingVersions := .list [.object [
        ("binding_key", .str "k1"), ("version", .int 1)]],
      acknowledgedVersion := some 1 }]
  approvalEvents := [
    { id := 30, draftId := 60, sequence := 3, eventType := .approved, fromState := some .inReview,
      toState := .approved, actorId := some 3, idempotencyKey := .wikiDraft 60 .approved none,
      reason := none, payload := [
        ("page_id", .str (Uuid.text 7)), ("page_version", .int 1),
        ("approval_digest", .str "a1")] }]

def publishedSnapshot : SubstrateKnowledgeSnapshot :=
  (loadSubstrateSnapshot lowerPlatform publishedRows 6).toOption.getD {}

theorem publishedSnapshot_loaded :
    loadSubstrateSnapshot lowerPlatform publishedRows 6 = .ok publishedSnapshot := by
  have hok : (loadSubstrateSnapshot lowerPlatform publishedRows 6).isOk = true := by
    decide +kernel
  unfold publishedSnapshot
  cases hload : loadSubstrateSnapshot lowerPlatform publishedRows 6 with
  | error e =>
    rw [hload] at hok
    cases hok
  | ok snapshot => rfl

/-- A reader of the web sees the page in both. -/
theorem publishedSnapshot_agrees :
    ∃ object ∈ publishedSnapshot.objects,
      publishedSnapshot.deliveryVerdict object.objectId "web" (some ⟨.external, none, none, none,
        none, none, none⟩) = true ∧
      ∃ trace, publishedSnapshot.resolver.buildTraceForObject lowerPlatform object
          (some ⟨.external, none, none, none, none, none, none⟩) (some "web") = .ok trace ∧
        trace.publicationRecords ≠ [] ∧ "source_evidence_incomplete" ∉ trace.blindSpots := by
  obtain ⟨object, hobject, hverdict⟩ : ∃ object ∈ publishedSnapshot.objects,
      publishedSnapshot.deliveryVerdict object.objectId "web" (some ⟨.external, none, none, none,
        none, none, none⟩) = true := by
    decide +kernel
  obtain ⟨trace, htrace, hagree, -⟩ := gates_agree publishedSnapshot_loaded hobject "web"
    (some ⟨.external, none, none, none, none, none, none⟩)
  exact ⟨object, hobject, hverdict, trace, htrace, hagree.mp hverdict⟩

end Scenario

end Cygnus.Retrieval
