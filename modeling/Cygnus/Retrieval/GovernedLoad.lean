import Cygnus.Retrieval.ObjectIndex

namespace Cygnus.Retrieval

open Wiki Domain Governance Publish Delivery Text Result Sequence

section Names

/-- The evidence that a source of a page gives to the readers of one binding. -/
def pageEvidenceId (pageId sourceId : Uuid) (bindingKey : String) : String :=
  s!"ev-page-{pageId.text}-src-{sourceId.text}-binding-{bindingKey}"

variable {pageId pageId' sourceId sourceId' : Uuid} {key key' : String}

theorem toList_pageEvidenceId : (pageEvidenceId pageId sourceId key).toList =
    "ev-page-".toList ++ (pageId.text.toList ++ ("-src-".toList ++ (sourceId.text.toList ++
      ("-binding-".toList ++ key.toList)))) := by
  simp [pageEvidenceId, toString, String.toList_append]

theorem length_text (id : Uuid) : id.text.toList.length = 36 := by
  simp [Uuid.text, Uuid.digits]

theorem pageEvidenceId_inj (h : pageEvidenceId pageId sourceId key = pageEvidenceId pageId' sourceId' key') :
    pageId = pageId' ∧ sourceId = sourceId' ∧ key = key' := by
  have htext := congrArg String.toList h
  rw [toList_pageEvidenceId, toList_pageEvidenceId, List.append_cancel_left_eq] at htext
  obtain ⟨hpage, htext⟩ := List.append_inj htext (by rw [length_text, length_text])
  rw [List.append_cancel_left_eq] at htext
  obtain ⟨hsource, htext⟩ := List.append_inj htext (by rw [length_text, length_text])
  rw [List.append_cancel_left_eq] at htext
  exact ⟨Uuid.text_injective (String.toList_inj.mp hpage),
    Uuid.text_injective (String.toList_inj.mp hsource), String.toList_inj.mp htext⟩

/-- A binding key is a digest in hexadecimal digits. -/
def HexKey (key : String) : Prop := ∀ c ∈ key.toList, Uuid.IsHex c

theorem HexKey.not_mem (h : HexKey key) {c : Char} (hc : c ∉ "0123456789abcdef".toList) :
    c ∉ key.toList :=
  fun hmem => hc (h c hmem).mem

/-- What follows the last dash is the key. -/
theorem eq_of_dash_suffix {a b k k' : List Char} (h : a ++ '-' :: k = b ++ '-' :: k')
    (hk : '-' ∉ k) (hk' : '-' ∉ k') : k = k' := by
  have hreverse := congrArg List.reverse h
  simp only [List.reverse_append, List.reverse_cons, List.append_assoc, List.singleton_append]
    at hreverse
  have htake := congrArg (List.takeWhile (· ≠ '-')) hreverse
  rw [List.takeWhile_append_of_pos, List.takeWhile_append_of_pos] at htake
  · simpa using htake
  · intro c hc
    simpa using fun heq : c = '-' => hk' (heq ▸ List.mem_reverse.mp hc)
  · intro c hc
    simpa using fun heq : c = '-' => hk (heq ▸ List.mem_reverse.mp hc)

/-- An evidence record is scoped to its own binding and no other. -/
theorem bindingScoped_pageEvidenceId {record : PersistedDeliveryRecord} (hkey : HexKey key)
    (hrecord : HexKey record.bindingKey.1) :
    bindingScoped (pageEvidenceId pageId sourceId key) record = true ↔ record.bindingKey.1 = key := by
  have hdash : '-' ∉ "0123456789abcdef".toList := by decide
  have hbinding : "-binding-".toList = "-binding".toList ++ ['-'] := by decide
  rw [bindingScoped, List.isSuffixOf_iff_suffix, toList_pageEvidenceId, String.toList_append]
  constructor
  · rintro ⟨front, hfront⟩
    rw [hbinding] at hfront
    simp only [List.append_assoc, List.cons_append, List.nil_append] at hfront
    simp only [← List.append_assoc] at hfront
    exact String.toList_inj.mp
      (eq_of_dash_suffix hfront (hrecord.not_mem hdash) (hkey.not_mem hdash))
  · rintro rfl
    simp only [← List.append_assoc]
    rw [List.append_assoc _ "-binding-".toList]
    exact List.suffix_append _ _

theorem strip_pageEvidenceId (hkey : HexKey key) :
    strip (pageEvidenceId pageId sourceId key) = pageEvidenceId pageId sourceId key := by
  have hspace : ∀ {c}, Uuid.IsHex c → isSpace c = false := fun h =>
    h.of_table (p := fun c => isSpace c = false) (by decide)
  have htext : ∀ {id : Uuid} {c}, c ∈ id.text.toList → isSpace c = false := by
    intro id c hc
    rcases Uuid.mem_text hc with rfl | hc
    · decide
    · exact hspace hc
  have hword : ∀ {word : String}, (word.toList.all fun c => !isSpace c) = true →
      ∀ c ∈ word.toList, isSpace c = false := fun h c hc => by
    simpa using List.all_eq_true.mp h c hc
  refine strip_of_forall fun c hc => ?_
  rw [toList_pageEvidenceId] at hc
  simp only [List.mem_append] at hc
  rcases hc with hc | hc | hc | hc | hc | hc
  · exact hword (by decide) c hc
  · exact htext hc
  · exact hword (by decide) c hc
  · exact htext hc
  · exact hword (by decide) c hc
  · exact hspace (hkey c hc)

end Names

section Projects

variable {env : Platform} {rows : SubstrateRows} {now : Timestamp} {page : GovernedPage}

/-- The pages that a knowledge object can be made of. -/
def Projectable (env : Platform) (page : GovernedPage) (objectType : KnowledgeObjectType) : Prop :=
  (page.orphaned = false ∧ page.slug ∉ reservedWikiSlugs ∧
    "source/".toList.isPrefixOf page.slug.toList = false) ∧
    resolveObjectType env page.knowledgeTypeSlugs = some objectType

theorem wikiPageToKnowledgeObject_ok {evidenceIds : List String} {object : Option KnowledgeObject}
    (h : wikiPageToKnowledgeObject env page evidenceIds = .ok object) :
    ∀ found, object = some found ↔ Projectable env page found.objectType ∧
      found = ⟨governedObjectRef page.id, found.objectType, page.title⟩ := by
  intro found
  unfold wikiPageToKnowledgeObject at h
  split at h
  · rename_i hreserved
    rw [pure_ok] at h
    subst h
    simp only [false_iff, not_and, Projectable, reduceCtorEq]
    rintro ⟨⟨horphaned, hslug, hsource⟩, -⟩
    rcases hreserved with h | h | h
    · rw [horphaned] at h
      cases h
    · exact absurd h hslug
    · rw [hsource] at h
      cases h
  · rename_i hfree
    have hplain : page.orphaned = false ∧ page.slug ∉ reservedWikiSlugs ∧
        "source/".toList.isPrefixOf page.slug.toList = false := by
      simpa only [not_or, Bool.not_eq_true] using hfree
    split at h
    · rename_i hnone
      rw [pure_ok] at h
      subst h
      simp [Projectable, hnone]
    · rename_i objectType htype
      simp only [bind_ok, pure_ok] at h
      obtain ⟨-, -, -, -, -, -, -, -, -, -, -, -, rfl⟩ := h
      simp only [Option.some.injEq, Projectable, htype]
      constructor
      · rintro rfl
        exact ⟨⟨hplain, rfl⟩, rfl⟩
      · rintro ⟨⟨-, hsame⟩, hfound⟩
        rw [hfound, ← hsame]

/-- The delivery of a binding that a projection takes up. -/
structure Dispatches (rows : SubstrateRows) (publication : PublicationTruth)
    (binding : AudienceBinding) (propagation : PropagationTruth) (delivery : DeliveryTruth) : Prop where
  propagated : (rows.propagations.reverse.find? fun propagation =>
    propagation.publicationId = publication.id && propagation.surfaceId = binding.channel) =
      some propagation
  referenced : bindingIsReferenced binding propagation.bindingRefs = .ok true
  delivered : rows.deliveries.reverse.find? (·.propagationId = propagation.id) = some delivery
  published : delivery.publicationId = publication.id
  surface : delivery.surfaceId = binding.channel
  expected : expectedBindingVersion delivery.expectedBindingVersions binding.bindingKey =
    some (binding.version : Int)

/-- The record of a binding whose delivery is taken up. -/
structure Records (page : GovernedPage) (publication : PublicationTruth) (binding : AudienceBinding)
    (propagation : PropagationTruth) (delivery : DeliveryTruth) (record : PersistedDeliveryRecord)
    (published : PublicationRecord) : Prop where
  page : record.pageId = page.id
  channel : record.channel.1 = binding.channel
  key : record.bindingKey.1 = binding.bindingKey
  audience : audienceFilterFromBinding binding = .ok record.audienceFilter
  propagationStatus : record.propagationStatus = propagation.status
  deliveryStatus : record.deliveryStatus = delivery.status
  propagated : record.propagationDigest = propagation.desiredDigest
  desired : record.desiredDigest.1 = delivery.desiredDigest
  acknowledged : record.acknowledgedDigest = delivery.acknowledgedDigest
  pageVersion : record.expectedPageVersion = delivery.expectedPageVersion
  approvalVersion : record.expectedApprovalVersion = delivery.expectedApprovalVersion
  version : record.acknowledgedVersion = delivery.acknowledgedVersion
  matched : record.matchesPublicationRecord published = true

theorem makeDeliveryRecord_ok {publication : PublicationTruth} {binding : AudienceBinding}
    {propagation : PropagationTruth} {delivery : DeliveryTruth} {record : PersistedDeliveryRecord}
    {published : PublicationRecord}
    (h : makeDeliveryRecord page publication binding propagation delivery = .ok record)
    (hpublished : PublicationRecord.make binding.channel propagation.status.value
      publication.id.text [propagation.id.text] [delivery.id.text] = .ok published) :
    Records page publication binding propagation delivery record published := by
  have hnonBlank : ∀ {message value : String} {text : NonBlank},
      nonBlank message value = .ok text → text.1 = value := by
    intro message value text h
    unfold nonBlank at h
    split at h <;> cases h
    rfl
  simp only [makeDeliveryRecord, bind_ok] at h
  obtain ⟨audience, haudience, publicationId, hpublicationId, propagationId, hpropagationId,
    deliveryId, hdeliveryId, channel, hchannel, key, hkey, digest, hdigest, h⟩ := h
  split at h
  · rw [pure_ok] at h
    subst h
    simp only [PublicationRecord.make, bind_ok, pure_ok] at hpublished
    obtain ⟨channel', hchannel', ref, href, propagationRefs, hpropagationRefs, deliveryRefs,
      hdeliveryRefs, rfl⟩ := hpublished
    rw [mapM_ok] at hpropagationRefs hdeliveryRefs
    obtain ⟨propagationRef, rfl, hpropagationRef⟩ : ∃ ref, propagationRefs = [ref] ∧
        ref.1 = propagation.id.text := by
      cases hpropagationRefs with
      | cons hhead htail =>
        cases htail
        exact ⟨_, rfl, hnonBlank hhead⟩
    obtain ⟨deliveryRef, rfl, hdeliveryRef⟩ : ∃ ref, deliveryRefs = [ref] ∧
        ref.1 = delivery.id.text := by
      cases hdeliveryRefs with
      | cons hhead htail =>
        cases htail
        exact ⟨_, rfl, hnonBlank hhead⟩
    refine ⟨rfl, hnonBlank hchannel, hnonBlank hkey, haudience, rfl, rfl, rfl, hnonBlank hdigest, rfl,
      rfl, rfl, rfl, ?_⟩
    have hsame : ∀ {a b : NonBlank}, a.1 = b.1 → a = b := Subtype.ext
    simp only [PersistedDeliveryRecord.matchesPublicationRecord, Bool.and_eq_true,
      decide_eq_true_eq, List.mem_singleton]
    exact ⟨⟨⟨⟨hsame ((hnonBlank hchannel').trans (hnonBlank hchannel).symm), trivial⟩,
      hsame ((hnonBlank href).trans (hnonBlank hpublicationId).symm)⟩,
      hsame ((hnonBlank hpropagationId).trans hpropagationRef.symm)⟩,
      hsame ((hnonBlank hdeliveryId).trans hdeliveryRef.symm)⟩
  · cases h

theorem bindingRecords_ok {publication : PublicationTruth} {binding : AudienceBinding}
    {found : Option (PersistedDeliveryRecord × PublicationRecord)}
    (h : bindingRecords rows page publication binding = .ok found) :
    (∀ record published, found = some (record, published) → ∃ propagation delivery,
      Dispatches rows publication binding propagation delivery ∧
        Records page publication binding propagation delivery record published) ∧
      ∀ propagation delivery, Dispatches rows publication binding propagation delivery →
        ∃ record published, found = some (record, published) ∧
          Records page publication binding propagation delivery record published := by
  unfold bindingRecords at h
  split at h
  · rename_i hnone
    rw [pure_ok] at h
    subst h
    refine ⟨fun _ _ h => (nomatch h), fun propagation delivery hdispatches => ?_⟩
    rw [hdispatches.propagated] at hnone
    cases hnone
  rename_i propagation hpropagation
  simp only [bind_ok] at h
  obtain ⟨referenced, hreferenced, h⟩ := h
  split at h
  · rename_i hfalse
    rw [pure_ok] at h
    subst h
    refine ⟨fun _ _ h => (nomatch h), fun other delivery hdispatches => ?_⟩
    obtain rfl := Option.some.inj (hdispatches.propagated.symm.trans hpropagation)
    rw [hdispatches.referenced] at hreferenced
    cases hreferenced
    cases hfalse
  rename_i htrue
  obtain rfl : referenced = true := by simpa using htrue
  split at h
  · rename_i hnone
    rw [pure_ok] at h
    subst h
    refine ⟨fun _ _ h => (nomatch h), fun other delivery hdispatches => ?_⟩
    obtain rfl := Option.some.inj (hdispatches.propagated.symm.trans hpropagation)
    rw [hdispatches.delivered] at hnone
    cases hnone
  rename_i delivery hdelivery
  split at h
  · rename_i hother
    rw [pure_ok] at h
    subst h
    refine ⟨fun _ _ h => (nomatch h), fun propagation' delivery' hdispatches => ?_⟩
    obtain rfl := Option.some.inj (hdispatches.propagated.symm.trans hpropagation)
    obtain rfl := Option.some.inj (hdispatches.delivered.symm.trans hdelivery)
    rcases hother with hne | hne | hne
    · exact absurd hdispatches.published hne
    · exact absurd hdispatches.surface hne
    · exact absurd hdispatches.expected hne
  rename_i hsame
  simp only [not_or, not_not] at hsame
  simp only [bind_ok, pure_ok] at h
  obtain ⟨record, hrecord, published, hpublished, rfl⟩ := h
  have hrecords := makeDeliveryRecord_ok hrecord hpublished
  constructor
  · rintro _ _ ⟨⟩
    exact ⟨propagation, delivery,
      ⟨hpropagation, hreferenced, hdelivery, hsame.1, hsame.2.1, hsame.2.2⟩, hrecords⟩
  · intro propagation' delivery' hdispatches
    obtain rfl := Option.some.inj (hdispatches.propagated.symm.trans hpropagation)
    obtain rfl := Option.some.inj (hdispatches.delivered.symm.trans hdelivery)
    exact ⟨record, published, rfl, hrecords⟩

/-- The row of the page, and the rows that its projection is made of. -/
structure Projects (env : Platform) (rows : SubstrateRows) (now : Timestamp) (page : GovernedPage)
    (publication : PublicationTruth) (event : GovernanceLedgerEvent)
    (pairs : List (Option (PersistedDeliveryRecord × PublicationRecord)))
    (objectType : KnowledgeObjectType) (projection : PageProjection) : Prop where
  current : currentPublication rows page = some (publication, event)
  taken : (activeBindings rows page).mapM (bindingRecords rows page publication) = .ok pairs
  records : projection.records = pairs.reduceOption.map Prod.fst
  evidence : pageEvidence env rows now page projection.records = .ok projection.evidence
  projectable : Projectable env page objectType
  object : projection.object = supportObject page
    ⟨governedObjectRef page.id, objectType, page.title⟩
    (projection.evidence.map fun item => item.evidenceId.1)
    (projection.records.map PersistedDeliveryRecord.audienceFilter).eraseDups
  pageId : projection.truth.pageId = page.id
  pageVersion : projection.truth.pageVersion = page.version
  approvalVersion : projection.truth.approvalVersion = event.sequence
  complete : projection.truth.sourceEvidenceComplete = sourceEvidenceComplete rows page
  publications : projection.truth.publicationRecords = pairs.reduceOption.map Prod.snd

theorem projectPage_some {projection : PageProjection}
    (h : projectPage env rows now page = .ok (some projection)) :
    ∃ publication event pairs objectType,
      Projects env rows now page publication event pairs objectType projection := by
  unfold projectPage at h
  split at h
  · cases h
  rename_i publication event hcurrent
  simp only [bind_ok] at h
  obtain ⟨pairs, hpairs, h⟩ := h
  split at h
  · cases h
  simp only [bind_ok] at h
  obtain ⟨evidence, hevidence, projected, hprojected, h⟩ := h
  split at h
  · cases h
  rename_i object
  simp only [bind_ok, pure_ok, Option.some.injEq] at h
  obtain ⟨truth, htruth, rfl⟩ := h
  unfold PersistedObjectTruth.make at htruth
  split at htruth
  · simp only [bind_ok, pure_ok] at htruth
    obtain ⟨token, -, rfl⟩ := htruth
    obtain ⟨hprojectable, hobject⟩ := (wikiPageToKnowledgeObject_ok hprojected object).mp rfl
    exact ⟨publication, event, pairs, object.objectType, hcurrent, hpairs, rfl, hevidence,
      hprojectable, congrArg (fun object => supportObject page object _ _) hobject, rfl, rfl, rfl, rfl,
      rfl⟩
  · cases htruth

/-- A page that is left out has no current publication, no delivery to take up, or no object. -/
theorem projectPage_none {publication : PublicationTruth} {event : GovernanceLedgerEvent}
    {binding : AudienceBinding} {propagation : PropagationTruth} {delivery : DeliveryTruth}
    {objectType : KnowledgeObjectType} (h : projectPage env rows now page = .ok none)
    (hcurrent : currentPublication rows page = some (publication, event))
    (hbinding : binding ∈ activeBindings rows page)
    (hdispatches : Dispatches rows publication binding propagation delivery) :
    ¬ Projectable env page objectType := by
  intro hprojectable
  unfold projectPage at h
  rw [hcurrent] at h
  simp only [bind_ok] at h
  obtain ⟨pairs, hpairs, h⟩ := h
  obtain ⟨found, hfound, hrecords⟩ := exists_of_mapM_ok hpairs hbinding
  obtain ⟨record, published, rfl, -⟩ := (bindingRecords_ok hrecords).2 _ _ hdispatches
  have hmem : (record, published) ∈ pairs.reduceOption := List.reduceOption_mem_iff.mpr hfound
  rw [if_neg (List.ne_nil_of_mem (List.mem_map_of_mem hmem))] at h
  simp only [bind_ok] at h
  obtain ⟨evidence, -, projected, hprojected, h⟩ := h
  have hobject := (wikiPageToKnowledgeObject_ok hprojected
    ⟨governedObjectRef page.id, objectType, page.title⟩).mpr ⟨hprojectable, rfl⟩
  rw [hobject] at h
  simp only [bind_ok, pure_ok, reduceCtorEq, and_false, exists_false] at h

variable {publication : PublicationTruth} {event : GovernanceLedgerEvent}
  {pairs : List (Option (PersistedDeliveryRecord × PublicationRecord))}
  {objectType : KnowledgeObjectType} {projection : PageProjection}

/-- Every record of a projection is that of an active binding whose delivery is taken up. -/
theorem Projects.mem_records
    (h : Projects env rows now page publication event pairs objectType projection)
    {record : PersistedDeliveryRecord} (hrecord : record ∈ projection.records) :
    ∃ binding ∈ activeBindings rows page, ∃ propagation delivery published,
      Dispatches rows publication binding propagation delivery ∧
      Records page publication binding propagation delivery record published ∧
      published ∈ projection.truth.publicationRecords := by
  rw [h.records] at hrecord
  obtain ⟨⟨record, published⟩, hpair, rfl⟩ := List.mem_map.mp hrecord
  obtain ⟨binding, hbinding, hfound⟩ :=
    mem_of_mapM_ok h.taken (List.reduceOption_mem_iff.mp hpair)
  obtain ⟨propagation, delivery, hdispatches, hrecords⟩ := (bindingRecords_ok hfound).1 _ _ rfl
  refine ⟨binding, hbinding, propagation, delivery, published, hdispatches, hrecords, ?_⟩
  rw [h.publications]
  exact List.mem_map_of_mem hpair

/-- And every such binding has its record. -/
theorem Projects.exists_record
    (h : Projects env rows now page publication event pairs objectType projection)
    {binding : AudienceBinding} (hbinding : binding ∈ activeBindings rows page)
    {propagation : PropagationTruth} {delivery : DeliveryTruth}
    (hdispatches : Dispatches rows publication binding propagation delivery) :
    ∃ record ∈ projection.records, ∃ published ∈ projection.truth.publicationRecords,
      Records page publication binding propagation delivery record published := by
  obtain ⟨found, hmem, hfound⟩ := exists_of_mapM_ok h.taken hbinding
  obtain ⟨record, published, rfl, hrecords⟩ := (bindingRecords_ok hfound).2 _ _ hdispatches
  have hpair := List.reduceOption_mem_iff.mpr hmem
  refine ⟨record, ?_, published, ?_, hrecords⟩
  · rw [h.records]
    exact List.mem_map_of_mem hpair
  · rw [h.publications]
    exact List.mem_map_of_mem hpair

end Projects

end Cygnus.Retrieval
