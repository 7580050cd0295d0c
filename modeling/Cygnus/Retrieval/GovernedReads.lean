import Cygnus.Retrieval.Gates
import Cygnus.Retrieval.GovernedLoad

/-! What the rows of the database let one reader read on one channel, and that the snapshot's traces
say the same. -/

namespace Cygnus.Retrieval

open Wiki Domain Governance Publish Delivery Text Result Sequence

section Readable

/-- The channel has acknowledged a delivery, with the versions as they are now. -/
structure Acknowledged (page : GovernedPage) (event : GovernanceLedgerEvent)
    (propagation : PropagationTruth) (delivery : DeliveryTruth) : Prop where
  propagated : propagation.status = .synced
  delivered : delivery.status = .synced
  desired : propagation.desiredDigest = some delivery.desiredDigest
  digest : delivery.acknowledgedDigest = some delivery.desiredDigest
  pageVersion : delivery.expectedPageVersion = page.version
  approvalVersion : delivery.expectedApprovalVersion = event.sequence
  version : delivery.acknowledgedVersion = some (page.version : Int)

variable (env : Platform) (rows : SubstrateRows) (now : Timestamp) (page : GovernedPage)

/-- The page as it is now is published to the channel through the binding, for the reader. -/
def DeliveredThrough (channel : String) (reader : AudienceContext) (binding : AudienceBinding) : Prop :=
  binding ∈ activeBindings rows page ∧ binding.channel = channel ∧
    (∃ audience, audienceFilterFromBinding binding = .ok audience ∧
      audience.matchesContext reader = true) ∧
    ∃ publication event propagation delivery,
      currentPublication rows page = some (publication, event) ∧
      Dispatches rows publication binding propagation delivery ∧
      Acknowledged page event propagation delivery

/-- Every source of the page is there, ready and attested fresh. -/
def SourcesFresh : Prop :=
  page.sourceIds ≠ [] ∧ ∀ id ∈ page.sourceIds, ∃ source,
    rows.sources.reverse.find? (·.id = id) = some source ∧ source.status = "ready" ∧
      resolveSourceFreshness source.toAttestedSource now = .fresh

/-- The page is published as it is now, with a delivery for an audience that the reader is in; on
which channel, and how far the delivery came, is left open. -/
def OfferedTo (reader : AudienceContext) : Prop :=
  ∃ binding ∈ activeBindings rows page,
    (∃ audience, audienceFilterFromBinding binding = .ok audience ∧
      audience.matchesContext reader = true) ∧
    ∃ publication event propagation delivery,
      currentPublication rows page = some (publication, event) ∧
      Dispatches rows publication binding propagation delivery

/-- What the governed reads are to serve. -/
structure Readable (channel : String) (reader : AudienceContext) : Prop where
  projectable : ∃ objectType, Projectable env page objectType
  fresh : SourcesFresh rows now page
  delivered : ∃ binding, DeliveredThrough rows page channel reader binding

/-- The keys of the tables: pages by their id, bindings by a digest. -/
structure KeyedRows (rows : SubstrateRows) : Prop where
  pages : Table.Keyed rows.pages
  bindings : (rows.bindings.map AudienceBinding.bindingKey).Nodup
  digests : ∀ binding ∈ rows.bindings, HexKey binding.bindingKey

end Readable

section Projections

variable {env : Platform} {rows : SubstrateRows} {now : Timestamp} {page : GovernedPage}
  {publication : PublicationTruth} {event : GovernanceLedgerEvent}
  {pairs : List (Option (PersistedDeliveryRecord × PublicationRecord))}
  {objectType : KnowledgeObjectType} {projection : PageProjection}
  {channel : String} {reader : AudienceContext}

theorem Records.isCurrentSynced {binding : AudienceBinding} {propagation : PropagationTruth}
    {delivery : DeliveryTruth} {record : PersistedDeliveryRecord} {published : PublicationRecord}
    (h : Records page publication binding propagation delivery record published) :
    record.isCurrentSynced page.version event.sequence record.bindingVersion = true ↔
      Acknowledged page event propagation delivery := by
  simp only [PersistedDeliveryRecord.isCurrentSynced, Bool.and_eq_true, decide_eq_true_eq,
    h.propagationStatus, h.deliveryStatus, h.propagated, h.desired, h.acknowledged, h.pageVersion,
    h.approvalVersion, h.version, and_true]
  constructor
  · rintro ⟨⟨⟨⟨⟨⟨h1, h2⟩, h3⟩, h4⟩, h5⟩, h6⟩, h7⟩
    exact ⟨h1, h2, h3, h4, h5, h6, h7⟩
  · rintro ⟨h1, h2, h3, h4, h5, h6, h7⟩
    exact ⟨⟨⟨⟨⟨⟨h1, h2⟩, h3⟩, h4⟩, h5⟩, h6⟩, h7⟩

/-- A record is eligible exactly if the page is delivered through its binding. -/
theorem Projects.eligible_iff
    (h : Projects env rows now page publication event pairs objectType projection)
    {binding : AudienceBinding} (hbinding : binding ∈ activeBindings rows page)
    {propagation : PropagationTruth} {delivery : DeliveryTruth} {record : PersistedDeliveryRecord}
    {published : PublicationRecord}
    (hdispatches : Dispatches rows publication binding propagation delivery)
    (hrecords : Records page publication binding propagation delivery record published)
    (hpublished : published ∈ projection.truth.publicationRecords) :
    recordIsDeliveryEligible record projection.truth channel reader = true ↔
      sourceEvidenceComplete rows page = true ∧ DeliveredThrough rows page channel reader binding := by
  have hmatched : projection.truth.publicationRecords.any record.matchesPublicationRecord = true :=
    List.any_eq_true.mpr ⟨published, hpublished, hrecords.matched⟩
  simp only [recordIsDeliveryEligible, Bool.and_eq_true, decide_eq_true_eq, h.pageId, h.pageVersion,
    h.approvalVersion, h.complete, hrecords.page, hrecords.channel, hmatched, and_true,
    hrecords.isCurrentSynced]
  constructor
  · rintro ⟨⟨⟨hchannel, hcomplete⟩, haudience⟩, hacknowledged⟩
    exact ⟨hcomplete, hbinding, hchannel, ⟨_, hrecords.audience, haudience⟩, publication, event,
      propagation, delivery, h.current, hdispatches, hacknowledged⟩
  · rintro ⟨hcomplete, -, hchannel, ⟨audience, haudience, hmatches⟩, publication', event',
      propagation', delivery', hcurrent, hdispatches', hacknowledged⟩
    obtain ⟨rfl, rfl⟩ := Prod.mk.injEq .. ▸ Option.some.inj (hcurrent.symm.trans h.current)
    obtain rfl := Option.some.inj (hdispatches'.propagated.symm.trans hdispatches.propagated)
    obtain rfl := Option.some.inj (hdispatches'.delivered.symm.trans hdispatches.delivered)
    obtain rfl := Except.ok.inj (haudience.symm.trans hrecords.audience)
    exact ⟨⟨⟨hchannel, hcomplete⟩, hmatches⟩, hacknowledged⟩

/-- The eligible records of a page are those of the bindings it is delivered through. -/
theorem Projects.mem_eligible
    (h : Projects env rows now page publication event pairs objectType projection) (key : String) :
    (∃ record ∈ projection.records,
      recordIsDeliveryEligible record projection.truth channel reader = true ∧
        record.bindingKey.1 = key) ↔
      sourceEvidenceComplete rows page = true ∧
        ∃ binding, DeliveredThrough rows page channel reader binding ∧ binding.bindingKey = key := by
  constructor
  · rintro ⟨record, hrecord, heligible, rfl⟩
    obtain ⟨binding, hbinding, propagation, delivery, published, hdispatches, hrecords, hpublished⟩ :=
      h.mem_records hrecord
    obtain ⟨hcomplete, hthrough⟩ :=
      (h.eligible_iff hbinding hdispatches hrecords hpublished).mp heligible
    exact ⟨hcomplete, binding, hthrough, hrecords.key.symm⟩
  · rintro ⟨hcomplete, binding, hthrough, rfl⟩
    obtain ⟨hbinding, -, -, publication', event', propagation, delivery, hcurrent, hdispatches, -⟩ :=
      id hthrough
    obtain ⟨rfl, rfl⟩ := Prod.mk.injEq .. ▸ Option.some.inj (hcurrent.symm.trans h.current)
    obtain ⟨record, hrecord, published, hpublished, hrecords⟩ := h.exists_record hbinding hdispatches
    exact ⟨record, hrecord,
      (h.eligible_iff hbinding hdispatches hrecords hpublished).mpr ⟨hcomplete, hthrough⟩,
      hrecords.key⟩

theorem Projects.exists_eligible
    (h : Projects env rows now page publication event pairs objectType projection) :
    (∃ record ∈ projection.records,
      recordIsDeliveryEligible record projection.truth channel reader = true) ↔
      sourceEvidenceComplete rows page = true ∧
        ∃ binding, DeliveredThrough rows page channel reader binding := by
  constructor
  · rintro ⟨record, hrecord, heligible⟩
    obtain ⟨hcomplete, binding, hthrough, -⟩ :=
      (h.mem_eligible record.bindingKey.1).mp ⟨record, hrecord, heligible, rfl⟩
    exact ⟨hcomplete, binding, hthrough⟩
  · rintro ⟨hcomplete, binding, hthrough⟩
    obtain ⟨record, hrecord, heligible, -⟩ :=
      (h.mem_eligible binding.bindingKey).mpr ⟨hcomplete, binding, hthrough, rfl⟩
    exact ⟨record, hrecord, heligible⟩

theorem mem_readySources {source : SourceDocument} :
    source ∈ readySources rows page ↔ source.status = "ready" ∧
      source.id ∈ page.sourceIds ∧ rows.sources.reverse.find? (·.id = source.id) = some source := by
  simp only [readySources, pageSources, List.mem_filter, List.mem_filterMap, List.mem_eraseDups,
    decide_eq_true_eq]
  constructor
  · rintro ⟨⟨id, hid, hfind⟩, hready⟩
    have hsame : source.id = id := by simpa using List.find?_some hfind
    exact ⟨hready, hsame ▸ hid, hsame ▸ hfind⟩
  · rintro ⟨hready, hid, hfind⟩
    exact ⟨⟨source.id, hid, hfind⟩, hready⟩

theorem sourceEvidenceComplete_iff :
    sourceEvidenceComplete rows page = true ↔ page.sourceIds ≠ [] ∧
      ∀ id ∈ page.sourceIds, ∃ source ∈ readySources rows page, source.id = id := by
  simp only [sourceEvidenceComplete, Bool.and_eq_true, decide_eq_true_eq, List.all_eq_true]
  simp only [pageSources, List.filterMap_length_eq_length, List.mem_filterMap, List.mem_eraseDups,
    Option.isSome_iff_exists, and_assoc]
  refine and_congr_right fun _ => ⟨?_, ?_⟩
  · rintro ⟨hfound, hready⟩ id hid
    obtain ⟨source, hfind⟩ := hfound id hid
    have hsame : source.id = id := by simpa using List.find?_some hfind
    exact ⟨source, mem_readySources.mpr
      ⟨hready source ⟨id, hid, hfind⟩, hsame ▸ hid, hsame ▸ hfind⟩, hsame⟩
  · intro hall
    refine ⟨fun id hid => ?_, ?_⟩
    · obtain ⟨source, hsource, rfl⟩ := hall id hid
      exact ⟨source, (mem_readySources.mp hsource).2.2⟩
    · rintro source ⟨id, hid, hfind⟩
      obtain ⟨other, hother, rfl⟩ := hall id hid
      obtain ⟨hready, -, hfind'⟩ := mem_readySources.mp hother
      rwa [Option.some.inj (hfind.symm.trans hfind')]

theorem sourcesFresh_iff :
    SourcesFresh rows now page ↔ sourceEvidenceComplete rows page = true ∧
      ∀ source ∈ readySources rows page,
        resolveSourceFreshness source.toAttestedSource now = .fresh := by
  rw [sourceEvidenceComplete_iff, SourcesFresh, and_assoc]
  refine and_congr_right fun _ => ⟨?_, ?_⟩
  · intro hall
    constructor
    · intro id hid
      obtain ⟨source, hfind, hready, -⟩ := hall id hid
      have hsame : source.id = id := by simpa using List.find?_some hfind
      exact ⟨source, mem_readySources.mpr ⟨hready, hsame ▸ hid, hsame ▸ hfind⟩, hsame⟩
    · intro source hsource
      obtain ⟨-, hid, hfind⟩ := mem_readySources.mp hsource
      obtain ⟨other, hfind', -, hfresh⟩ := hall _ hid
      rwa [Option.some.inj (hfind.symm.trans hfind')]
  · rintro ⟨hall, hfresh⟩ id hid
    obtain ⟨source, hsource, rfl⟩ := hall id hid
    obtain ⟨hready, -, hfind⟩ := mem_readySources.mp hsource
    exact ⟨source, hfind, hready, hfresh source hsource⟩

/-- What a projected page gives as evidence: each record with each ready source. -/
structure Attests (page : GovernedPage) (now : Timestamp) (record : PersistedDeliveryRecord)
    (source : SourceDocument) (evidence : SupportEvidence) : Prop where
  id : evidence.evidenceId.1 = pageEvidenceId page.id source.id record.bindingKey.1
  audience : evidence.audienceFilter = record.audienceFilter
  freshness : evidence.freshnessState = resolveSourceFreshness source.toAttestedSource now

theorem sourceToSupportEvidence_attests {source : SourceDocument} {slug : Option String}
    {record : PersistedDeliveryRecord} {evidence : SupportEvidence}
    (h : sourceToSupportEvidence env now source slug
      (pageEvidenceId page.id source.id record.bindingKey.1) record.audienceFilter = .ok evidence) :
    Attests page now record source evidence := by
  simp only [sourceToSupportEvidence, bind_ok, pure_ok] at h
  obtain ⟨id, hid, -, -, -, -, -, -, -, -, rfl⟩ := h
  refine ⟨?_, rfl, rfl⟩
  unfold nonBlank at hid
  split at hid <;> cases hid
  rfl

theorem pageEvidence_attests {records : List PersistedDeliveryRecord}
    {evidence : List SupportEvidence} (h : pageEvidence env rows now page records = .ok evidence) :
    List.Forall₂ (fun item => Attests page now item.1 item.2) (evidenceItems rows page records)
      evidence := by
  exact (mapM_ok.mp h).imp fun _ _ h => sourceToSupportEvidence_attests h

theorem Projects.mem_evidence
    (h : Projects env rows now page publication event pairs objectType projection)
    {evidence : SupportEvidence} (hmem : evidence ∈ projection.evidence) :
    ∃ record ∈ projection.records, ∃ source ∈ readySources rows page,
      Attests page now record source evidence := by
  obtain ⟨hlength, hall⟩ := List.forall₂_iff_get.mp (pageEvidence_attests h.evidence)
  obtain ⟨i, hi, rfl⟩ := List.mem_iff_getElem.mp hmem
  have hattests := hall i (hlength ▸ hi) hi
  have hitem := List.get_mem (evidenceItems rows page projection.records) ⟨i, hlength ▸ hi⟩
  generalize (evidenceItems rows page projection.records).get ⟨i, _⟩ = item at hattests hitem
  obtain ⟨record, hrecord, hsource⟩ := List.mem_flatMap.mp hitem
  obtain ⟨source, hready, rfl⟩ := List.mem_map.mp hsource
  exact ⟨record, hrecord, source, hready, hattests⟩

theorem Projects.exists_evidence
    (h : Projects env rows now page publication event pairs objectType projection)
    {record : PersistedDeliveryRecord} (hrecord : record ∈ projection.records)
    {source : SourceDocument} (hsource : source ∈ readySources rows page) :
    ∃ evidence ∈ projection.evidence, Attests page now record source evidence := by
  have hitem : (record, source) ∈ evidenceItems rows page projection.records :=
    List.mem_flatMap.mpr ⟨record, hrecord, List.mem_map_of_mem hsource⟩
  obtain ⟨hlength, hall⟩ := List.forall₂_iff_get.mp (pageEvidence_attests h.evidence)
  obtain ⟨i, hi, heq⟩ := List.mem_iff_getElem.mp hitem
  refine ⟨_, List.getElem_mem (hlength ▸ hi), ?_⟩
  have hattests := hall i hi (hlength ▸ hi)
  rw [List.get_eq_getElem, heq] at hattests
  exact hattests

variable (hkeyed : KeyedRows rows)
include hkeyed

theorem Projects.hexKey
    (h : Projects env rows now page publication event pairs objectType projection)
    {record : PersistedDeliveryRecord} (hrecord : record ∈ projection.records) :
    HexKey record.bindingKey.1 := by
  obtain ⟨binding, hbinding, _, _, _, -, hrecords, -⟩ := h.mem_records hrecord
  rw [hrecords.key]
  exact hkeyed.digests binding (List.mem_filter.mp hbinding).1

/-- A page has one record for each of its bindings. -/
theorem Projects.record_unique
    (h : Projects env rows now page publication event pairs objectType projection)
    {record other : PersistedDeliveryRecord} (hrecord : record ∈ projection.records)
    (hother : other ∈ projection.records) (hkey : record.bindingKey.1 = other.bindingKey.1) :
    record = other := by
  rw [h.records] at hrecord hother
  obtain ⟨⟨record, published⟩, hpair, rfl⟩ := List.mem_map.mp hrecord
  obtain ⟨⟨other, published'⟩, hpair', rfl⟩ := List.mem_map.mp hother
  obtain ⟨binding, hbinding, hfound⟩ :=
    mem_of_mapM_ok h.taken (List.reduceOption_mem_iff.mp hpair)
  obtain ⟨binding', hbinding', hfound'⟩ :=
    mem_of_mapM_ok h.taken (List.reduceOption_mem_iff.mp hpair')
  obtain ⟨_, _, -, hrecords⟩ := (bindingRecords_ok hfound).1 _ _ rfl
  obtain ⟨_, _, -, hrecords'⟩ := (bindingRecords_ok hfound').1 _ _ rfl
  obtain rfl : binding = binding' :=
    List.inj_on_of_nodup_map hkeyed.bindings (List.mem_filter.mp hbinding).1
      (List.mem_filter.mp hbinding').1 (hrecords.key.symm.trans (hkey.trans hrecords'.key))
  obtain ⟨rfl, -⟩ := Prod.mk.injEq .. ▸ Option.some.inj (Except.ok.inj (hfound.symm.trans hfound'))
  rfl

end Projections

section Loaded

variable {env : Platform} {rows : SubstrateRows} {now : Timestamp} {snapshot : GovernedSnapshot}

/-- A snapshot holds what the pages of `served` are projected to, in this order. -/
structure Loaded (env : Platform) (rows : SubstrateRows) (now : Timestamp)
    (served : List (GovernedPage × PageProjection)) (snapshot : GovernedSnapshot) : Prop where
  pages : ∀ item ∈ served, item.1 ∈ rows.pages ∧
    projectPage env rows now item.1 = .ok (some item.2)
  all : ∀ page ∈ rows.pages, ∃ found, projectPage env rows now page = .ok found ∧
    ∀ projection, found = some projection → (page, projection) ∈ served
  sublist : (served.map Prod.fst).Sublist rows.pages
  snapshot : snapshot = .ofProjections (served.map fun item =>
    governedProjection env rows item.1 item.2)

theorem loadGovernedSnapshot_ok (h : loadGovernedSnapshot env rows now = .ok snapshot) :
    ∃ served, Loaded env rows now served snapshot := by
  simp only [loadGovernedSnapshot, bind_ok, pure_ok] at h
  obtain ⟨projections, hprojections, rfl⟩ := h
  rw [mapM_ok] at hprojections
  suffices hserved : ∀ pages projections, List.Forall₂ (fun page projection =>
      projectGovernedPage env rows now page = .ok projection) pages projections →
      ∃ served : List (GovernedPage × PageProjection),
        (∀ item ∈ served, item.1 ∈ pages ∧ projectPage env rows now item.1 = .ok (some item.2)) ∧
        (∀ page ∈ pages, ∃ found, projectPage env rows now page = .ok found ∧
          ∀ projection, found = some projection → (page, projection) ∈ served) ∧
        (served.map Prod.fst).Sublist pages ∧ projections.reduceOption =
          served.map fun item => governedProjection env rows item.1 item.2 by
    obtain ⟨served, hpages, hall, hsublist, heq⟩ := hserved _ _ hprojections
    exact ⟨served, hpages, hall, hsublist, congrArg _ heq⟩
  intro pages projections hprojections
  induction hprojections with
  | nil => exact ⟨[], by simp, by simp, .slnil, rfl⟩
  | @cons page found pages projections hpage _ ih =>
    obtain ⟨served, hpages, hall, hsublist, heq⟩ := ih
    simp only [projectGovernedPage, bind_ok, pure_ok] at hpage
    obtain ⟨projection, hprojection, rfl⟩ := hpage
    cases projection with
    | none =>
      refine ⟨served, fun item hitem => ?_, ?_, hsublist.cons _, heq⟩
      · exact ⟨List.mem_cons_of_mem _ (hpages item hitem).1, (hpages item hitem).2⟩
      · exact List.forall_mem_cons.mpr
          ⟨⟨none, hprojection, fun _ h => absurd h.symm (Option.some_ne_none _)⟩, hall⟩
    | some projection =>
      refine ⟨(page, projection) :: served, ?_, ?_, hsublist.cons_cons _, ?_⟩
      · refine List.forall_mem_cons.mpr ⟨⟨List.mem_cons_self, hprojection⟩, fun item hitem => ?_⟩
        exact ⟨List.mem_cons_of_mem _ (hpages item hitem).1, (hpages item hitem).2⟩
      · refine List.forall_mem_cons.mpr ⟨⟨_, hprojection, ?_⟩, fun other hother => ?_⟩
        · rintro _ ⟨⟩
          exact List.mem_cons_self
        · obtain ⟨found, hfound, hmem⟩ := hall other hother
          exact ⟨found, hfound, fun projection h => List.mem_cons_of_mem _ (hmem projection h)⟩
      · rw [Option.map_some, List.reduceOption_cons_of_some, heq, List.map_cons]

variable {served : List (GovernedPage × PageProjection)}

theorem Loaded.projects (h : Loaded env rows now served snapshot)
    {item : GovernedPage × PageProjection} (hitem : item ∈ served) :
    ∃ publication event pairs objectType,
      Projects env rows now item.1 publication event pairs objectType item.2 :=
  projectPage_some (h.pages item hitem).2

/-- The object of a page. -/
def objectOf (item : GovernedPage × PageProjection) : GovernedObject :=
  governedObject item.1 item.2.object

theorem Loaded.objectId (h : Loaded env rows now served snapshot)
    {item : GovernedPage × PageProjection} (hitem : item ∈ served) :
    (objectOf item).objectId = governedObjectRef item.1.id := by
  obtain ⟨publication, event, pairs, objectType, hprojects⟩ := h.projects hitem
  simp only [objectOf, governedObject, hprojects.object, supportObject]

theorem Loaded.toSupport (h : Loaded env rows now served snapshot)
    {item : GovernedPage × PageProjection} (hitem : item ∈ served) :
    (objectOf item).toSupport = item.2.object := by
  obtain ⟨publication, event, pairs, objectType, hprojects⟩ := h.projects hitem
  apply toSupport_governedObject <;> rw [hprojects.object] <;> rfl

theorem Loaded.objects (h : Loaded env rows now served snapshot) :
    snapshot.objects = served.map objectOf := by
  rw [h.snapshot]
  simp [GovernedSnapshot.ofProjections, governedProjection, objectOf, Function.comp_def]

theorem governedObjectRef_injective : Function.Injective governedObjectRef := by
  intro id id' h
  have htext := congrArg String.toList h
  simp only [governedObjectRef, toString, String.toList_append, List.append_cancel_left_eq] at htext
  exact Uuid.text_injective (String.toList_inj.mp htext)

theorem Loaded.eq_of_id (h : Loaded env rows now served snapshot) (hkeyed : KeyedRows rows)
    {item other : GovernedPage × PageProjection} (hitem : item ∈ served) (hother : other ∈ served)
    (hid : item.1.id = other.1.id) : item = other := by
  have hpage := hkeyed.pages.eq_of_key (h.pages item hitem).1 (h.pages other hother).1 hid
  have hprojection := (h.pages item hitem).2
  rw [hpage, (h.pages other hother).2] at hprojection
  exact Prod.ext hpage (Option.some.inj (Except.ok.inj hprojection)).symm

theorem Loaded.nodup (h : Loaded env rows now served snapshot) (hkeyed : KeyedRows rows) :
    (served.map fun item => (objectOf item).objectId).Nodup := by
  have hids : (served.map fun item => item.1.id).Nodup := by
    have hsublist := h.sublist.map (Row.key (α := GovernedPage))
    rw [List.map_map] at hsublist
    exact hkeyed.pages.sublist hsublist
  have hmap : served.map (fun item => (objectOf item).objectId) =
      (served.map fun item => item.1.id).map governedObjectRef := by
    rw [List.map_map]
    exact List.map_congr_left fun item hitem => h.objectId hitem
  rw [hmap]
  exact hids.map governedObjectRef_injective

theorem lookup_ofList_of_nodup {α β : Type} {items : List α} {key : α → String} (value : α → β)
    (hkeys : (items.map key).Nodup) {item : α} (hitem : item ∈ items) :
    (Dict.ofList (items.map fun item => (key item, value item))).lookup (key item) =
      some (value item) := by
  rw [Dict.ofList_of_nodup (by rwa [Dict.keys, List.map_map])]
  induction items with
  | nil => cases hitem
  | cons head items ih =>
    rw [List.map_cons, List.nodup_cons] at hkeys
    rw [List.map_cons, List.lookup_cons]
    rcases List.mem_cons.mp hitem with rfl | hmem
    · simp
    · have hne : (key item == key head) = false := by
        rw [beq_eq_false_iff_ne]
        exact fun heq => hkeys.1 (heq ▸ List.mem_map_of_mem hmem)
      rw [hne]
      exact ih hkeys.2 hmem

theorem Loaded.truth (h : Loaded env rows now served snapshot) (hkeyed : KeyedRows rows)
    {item : GovernedPage × PageProjection} (hitem : item ∈ served) :
    snapshot.persistedTruthByObject.lookup (objectOf item).objectId = some item.2.truth := by
  have hlookup := lookup_ofList_of_nodup (fun item => item.2.truth) (h.nodup hkeyed) hitem
  rw [h.snapshot]
  simpa [GovernedSnapshot.ofProjections, governedProjection, objectOf, Function.comp_def] using hlookup

theorem Loaded.deliveryRecords (h : Loaded env rows now served snapshot) (hkeyed : KeyedRows rows)
    {item : GovernedPage × PageProjection} (hitem : item ∈ served) :
    snapshot.deliveryRecordsByObject.lookup (objectOf item).objectId = some item.2.records := by
  have hlookup := lookup_ofList_of_nodup (fun item => item.2.records) (h.nodup hkeyed) hitem
  rw [h.snapshot]
  simpa [GovernedSnapshot.ofProjections, governedProjection, objectOf, Function.comp_def] using hlookup

theorem Loaded.evidence (h : Loaded env rows now served snapshot) :
    snapshot.toSubstrate.evidence = served.flatMap fun item => item.2.evidence := by
  rw [GovernedSnapshot.toSubstrate, h.snapshot]
  simp only [GovernedSnapshot.ofProjections, List.flatMap_map, List.map_flatMap]
  refine List.flatMap_congr fun item hitem => ?_
  obtain ⟨publication, event, pairs, objectType, hprojects⟩ := h.projects hitem
  have hlength := (pageEvidence_attests hprojects.evidence).length_eq
  rw [governedProjection, List.map_map]
  exact List.map_fst_zip hlength.ge

variable {item : GovernedPage × PageProjection} {record : PersistedDeliveryRecord}
  {source : SourceDocument}

/-- The evidence under an id is that of the record and the source the id is made of. -/
theorem Loaded.evidence_unique (h : Loaded env rows now served snapshot) (hkeyed : KeyedRows rows)
    (hitem : item ∈ served) (hrecord : record ∈ item.2.records)
    (hsource : source ∈ readySources rows item.1) {evidence : SupportEvidence}
    (hmem : evidence ∈ snapshot.toSubstrate.evidence)
    (hid : evidence.evidenceId.1 = pageEvidenceId item.1.id source.id record.bindingKey.1) :
    evidence ∈ item.2.evidence ∧ Attests item.1 now record source evidence := by
  rw [h.evidence] at hmem
  obtain ⟨other, hother, hmem⟩ := List.mem_flatMap.mp hmem
  obtain ⟨publication, event, pairs, objectType, hprojects⟩ := h.projects hother
  obtain ⟨record', hrecord', source', hsource', hattests⟩ := hprojects.mem_evidence hmem
  obtain ⟨hpage, hsame, hkey⟩ := pageEvidenceId_inj (hattests.id.symm.trans hid)
  obtain rfl := h.eq_of_id hkeyed hother hitem hpage
  obtain rfl := hprojects.record_unique hkeyed hrecord' hrecord hkey
  obtain rfl : source' = source := by
    have hfind := (mem_readySources.mp hsource').2.2
    rw [hsame, (mem_readySources.mp hsource).2.2] at hfind
    exact (Option.some.inj hfind).symm
  exact ⟨hmem, hattests⟩

theorem Loaded.evidenceById (h : Loaded env rows now served snapshot) (hkeyed : KeyedRows rows)
    (hitem : item ∈ served) (hrecord : record ∈ item.2.records)
    (hsource : source ∈ readySources rows item.1) :
    ∃ evidence, snapshot.toSubstrate.resolver.evidenceById
        (pageEvidenceId item.1.id source.id record.bindingKey.1) = some evidence ∧
      Attests item.1 now record source evidence := by
  obtain ⟨publication, event, pairs, objectType, hprojects⟩ := h.projects hitem
  obtain ⟨evidence, hevidence, hattests⟩ := hprojects.exists_evidence hrecord hsource
  have hmem : evidence ∈ snapshot.toSubstrate.evidence := by
    rw [h.evidence]
    exact List.mem_flatMap.mpr ⟨item, hitem, hevidence⟩
  cases hfind : snapshot.toSubstrate.resolver.evidenceById
      (pageEvidenceId item.1.id source.id record.bindingKey.1) with
  | none =>
    have hnone := List.find?_eq_none.mp hfind evidence (List.mem_reverse.mpr hmem)
    exact absurd hattests.id (by simpa using hnone)
  | some found =>
    have hfound := List.mem_reverse.mp (List.mem_of_find?_eq_some hfind)
    have hid : found.evidenceId.1 = pageEvidenceId item.1.id source.id record.bindingKey.1 := by
      simpa using List.find?_some hfind
    exact ⟨found, rfl, (h.evidence_unique hkeyed hitem hrecord hsource hfound hid).2⟩

/-- The links of an object are the ids of its evidence. -/
theorem Loaded.mem_links (h : Loaded env rows now served snapshot) (hkeyed : KeyedRows rows)
    (hitem : item ∈ served) {context : Option AudienceContext} {link : EvidenceLink} :
    link ∈ collectEvidenceLinks env (objectOf item).toSupport context ↔
      ∃ record ∈ item.2.records, ∃ source ∈ readySources rows item.1,
        link = ⟨pageEvidenceId item.1.id source.id record.bindingKey.1, "base"⟩ := by
  obtain ⟨publication, event, pairs, objectType, hprojects⟩ := h.projects hitem
  rw [h.toSupport hitem]
  simp only [collectEvidenceLinks, ite_self, List.zipIdx_nil, List.flatMap_nil,
    List.append_nil, List.mem_eraseDups, List.mem_map, hprojects.object, supportObject]
  constructor
  · rintro ⟨-, ⟨-, ⟨evidence, hmem, rfl⟩, rfl⟩, rfl⟩
    obtain ⟨record, hrecord, source, hsource, hattests⟩ := hprojects.mem_evidence hmem
    refine ⟨record, hrecord, source, hsource, ?_⟩
    rw [hattests.id, strip_pageEvidenceId (hprojects.hexKey hkeyed hrecord)]
  · rintro ⟨record, hrecord, source, hsource, rfl⟩
    obtain ⟨evidence, hmem, hattests⟩ := hprojects.exists_evidence hrecord hsource
    refine ⟨_, ⟨_, ⟨evidence, hmem, rfl⟩, rfl⟩, ?_⟩
    rw [hattests.id, strip_pageEvidenceId (hprojects.hexKey hkeyed hrecord)]

variable {traced : List PersistedDeliveryRecord} {reader : AudienceContext} {channel : String}

/-- A link is read through the record of its own binding, or not at all; none is missing. -/
theorem Loaded.resolveLink (h : Loaded env rows now served snapshot) (hkeyed : KeyedRows rows)
    (hitem : item ∈ served) (hrecord : record ∈ item.2.records)
    (hsource : source ∈ readySources rows item.1) (htraced : traced ≠ [])
    (hsub : ∀ other ∈ traced, other ∈ item.2.records ∧
      other.audienceFilter.matchesContext reader = true) :
    (record ∉ traced ∧ snapshot.toSubstrate.resolver.resolveLink traced (some reader)
        ⟨pageEvidenceId item.1.id source.id record.bindingKey.1, "base"⟩ = .omitted) ∨
      (record ∈ traced ∧ ∃ evidence, Attests item.1 now record source evidence ∧
        snapshot.toSubstrate.resolver.resolveLink traced (some reader)
          ⟨pageEvidenceId item.1.id source.id record.bindingKey.1, "base"⟩ =
            .readable (evidenceRef ⟨pageEvidenceId item.1.id source.id record.bindingKey.1, "base"⟩
              evidence)) := by
  obtain ⟨publication, event, pairs, objectType, hprojects⟩ := h.projects hitem
  have hscoped : traced.any (bindingScoped (pageEvidenceId item.1.id source.id record.bindingKey.1)) =
      true ↔ record ∈ traced := by
    rw [List.any_eq_true]
    constructor
    · rintro ⟨other, hother, hscoped⟩
      have hmem := (hsub other hother).1
      have hkey := (bindingScoped_pageEvidenceId (hprojects.hexKey hkeyed hrecord)
        (hprojects.hexKey hkeyed hmem)).mp hscoped
      rwa [← hprojects.record_unique hkeyed hmem hrecord hkey]
    · intro hmem
      exact ⟨record, hmem, (bindingScoped_pageEvidenceId (hprojects.hexKey hkeyed hrecord)
        (hprojects.hexKey hkeyed hrecord)).mpr rfl⟩
  by_cases hmem : record ∈ traced
  · obtain ⟨evidence, hfind, hattests⟩ := h.evidenceById hkeyed hitem hrecord hsource
    refine .inr ⟨hmem, evidence, hattests, ?_⟩
    unfold SourceTraceResolver.resolveLink
    rw [if_neg (not_and_not_right.mpr fun _ => hscoped.mpr hmem)]
    simp only [hfind]
    rw [if_pos]
    rw [Option.all_some, audienceContextAllowed_singleton, hattests.audience]
    exact (hsub record hmem).2
  · refine .inl ⟨hmem, ?_⟩
    unfold SourceTraceResolver.resolveLink
    rw [if_pos ⟨htraced, mt hscoped.mp hmem⟩]

theorem rollupFreshness_eq_fresh {states : List FreshnessAttestation} :
    rollupFreshness states = .fresh ↔ states ≠ [] ∧ ∀ state ∈ states, state = .fresh := by
  have hcases : (∀ state ∈ states, state = .fresh) ↔
      FreshnessAttestation.stale ∉ states ∧ FreshnessAttestation.unknown ∉ states := by
    constructor
    · intro hall
      exact ⟨fun h => (nomatch hall _ h), fun h => (nomatch hall _ h)⟩
    · rintro ⟨hstale, hunknown⟩ state hmem
      cases state with
      | fresh => rfl
      | stale => exact absurd hmem hstale
      | unknown => exact absurd hmem hunknown
  rw [hcases, rollupFreshness]
  split
  · simp_all
  · split
    · rename_i h
      rcases h with h | h <;> simp [h]
    · rename_i h
      rw [not_or] at h
      simp_all

section Links

variable (h : Loaded env rows now served snapshot) (hkeyed : KeyedRows rows) (hitem : item ∈ served)
  (htraced : traced ≠ [])
  (hsub : ∀ other ∈ traced, other ∈ item.2.records ∧
    other.audienceFilter.matchesContext reader = true)
  {truth : Option PersistedObjectTruth} {publications : List PublicationRecord} {trace : SourceTrace}
  (htrace : trace = snapshot.toSubstrate.resolver.traceLinks env (objectOf item).toSupport
    (some reader) truth traced publications)
include h hkeyed hitem htraced hsub htrace

/-- The trace refers to each ready source through each of its records. -/
theorem Loaded.mem_evidenceRefs {ref : SourceTraceEvidenceRef} :
    ref ∈ trace.evidenceRefs ↔ ∃ record ∈ traced, ∃ source ∈ readySources rows item.1,
      ∃ evidence, Attests item.1 now record source evidence ∧
        snapshot.toSubstrate.resolver.resolveLink traced (some reader)
          ⟨pageEvidenceId item.1.id source.id record.bindingKey.1, "base"⟩ = .readable ref ∧
        ref = evidenceRef ⟨pageEvidenceId item.1.id source.id record.bindingKey.1, "base"⟩
          evidence := by
  rw [htrace]
  simp only [SourceTraceResolver.traceLinks, List.mem_filterMap, List.mem_map,
    h.mem_links hkeyed hitem]
  constructor
  · rintro ⟨-, ⟨-, ⟨record, hrecord, source, hsource, rfl⟩, rfl⟩, href⟩
    rcases h.resolveLink hkeyed hitem hrecord hsource htraced hsub with
      ⟨-, homitted⟩ | ⟨hmem, evidence, hattests, hreadable⟩
    · rw [homitted] at href
      cases href
    · rw [hreadable] at href
      obtain rfl := Option.some.inj href
      exact ⟨record, hmem, source, hsource, evidence, hattests, hreadable, rfl⟩
  · rintro ⟨record, hrecord, source, hsource, evidence, -, hreadable, rfl⟩
    refine ⟨_, ⟨_, ⟨record, (hsub record hrecord).1, source, hsource, rfl⟩, rfl⟩, ?_⟩
    rw [hreadable]
    rfl

theorem Loaded.exists_evidenceRef (hrecord : record ∈ traced)
    (hsource : source ∈ readySources rows item.1) : ∃ ref ∈ trace.evidenceRefs,
      ref.evidenceId = pageEvidenceId item.1.id source.id record.bindingKey.1 ∧
        ref.freshness = resolveSourceFreshness source.toAttestedSource now := by
  rcases h.resolveLink hkeyed hitem (hsub record hrecord).1 hsource htraced hsub with
    ⟨hnot, -⟩ | ⟨-, evidence, hattests, hreadable⟩
  · exact absurd hrecord hnot
  · exact ⟨_, (h.mem_evidenceRefs hkeyed hitem htraced hsub htrace).mpr
      ⟨record, hrecord, source, hsource, evidence, hattests, hreadable, rfl⟩, hattests.id,
      hattests.freshness⟩

/-- The trace is fresh exactly if the sources are. -/
theorem Loaded.traceLinks_fresh : trace.freshness = .fresh ↔ readySources rows item.1 ≠ [] ∧
    ∀ source ∈ readySources rows item.1,
      resolveSourceFreshness source.toAttestedSource now = .fresh := by
  have hfreshness : trace.freshness = rollupFreshness
      (trace.evidenceRefs.map SourceTraceEvidenceRef.freshness) := by
    rw [htrace]
    rfl
  obtain ⟨first, hfirst⟩ := List.exists_mem_of_ne_nil _ htraced
  rw [hfreshness, rollupFreshness_eq_fresh, List.forall_mem_map, ne_eq, List.map_eq_nil_iff]
  constructor
  · rintro ⟨hne, hall⟩
    obtain ⟨ref, href⟩ := List.exists_mem_of_ne_nil _ hne
    obtain ⟨record, hrecord, source, hsource, -⟩ :=
      (h.mem_evidenceRefs hkeyed hitem htraced hsub htrace).mp href
    refine ⟨List.ne_nil_of_mem hsource, fun source hsource => ?_⟩
    obtain ⟨ref, href, -, heq⟩ :=
      h.exists_evidenceRef hkeyed hitem htraced hsub htrace hfirst hsource
    exact heq ▸ hall ref href
  · rintro ⟨hne, hall⟩
    obtain ⟨source, hsource⟩ := List.exists_mem_of_ne_nil _ hne
    obtain ⟨ref, href, -⟩ := h.exists_evidenceRef hkeyed hitem htraced hsub htrace hfirst hsource
    refine ⟨List.ne_nil_of_mem href, fun ref href => ?_⟩
    obtain ⟨record, hrecord, source, hsource, evidence, hattests, -, rfl⟩ :=
      (h.mem_evidenceRefs hkeyed hitem htraced hsub htrace).mp href
    exact hattests.freshness.trans (hall source hsource)

omit htrace in
theorem Loaded.traceLinks_missing :
    ((collectEvidenceLinks env (objectOf item).toSupport (some reader)).map
      (snapshot.toSubstrate.resolver.resolveLink traced (some reader))).filterMap
        LinkOutcome.blindSpot? = [] := by
  rw [List.filterMap_eq_nil_iff, List.forall_mem_map]
  intro link hlink
  obtain ⟨record, hrecord, source, hsource, rfl⟩ := (h.mem_links hkeyed hitem).mp hlink
  rcases h.resolveLink hkeyed hitem hrecord hsource htraced hsub with
    ⟨-, houtcome⟩ | ⟨-, evidence, -, houtcome⟩ <;> rw [houtcome] <;> rfl

/-- A fresh trace has no blind spot. -/
theorem Loaded.traceLinks_clear (hfresh : trace.freshness = .fresh) : trace.blindSpots = [] := by
  obtain ⟨hready, hall⟩ := (h.traceLinks_fresh hkeyed hitem htraced hsub htrace).mp hfresh
  obtain ⟨first, hfirst⟩ := List.exists_mem_of_ne_nil _ htraced
  obtain ⟨source, hsource⟩ := List.exists_mem_of_ne_nil _ hready
  obtain ⟨ref, href, -⟩ := h.exists_evidenceRef hkeyed hitem htraced hsub htrace hfirst hsource
  have hlinks : collectEvidenceLinks env (objectOf item).toSupport (some reader) ≠ [] :=
    List.ne_nil_of_mem ((h.mem_links hkeyed hitem).mpr
      ⟨first, (hsub first hfirst).1, source, hsource, rfl⟩)
  have hstale : (trace.evidenceRefs.any (·.freshness = .stale)) = false := by
    rw [List.any_eq_false]
    intro other hother
    obtain ⟨record, hrecord, source, hsource, evidence, hattests, -, rfl⟩ :=
      (h.mem_evidenceRefs hkeyed hitem htraced hsub htrace).mp hother
    rw [show (evidenceRef _ evidence).freshness = _ from hattests.freshness, hall source hsource]
    decide
  have hempty : trace.evidenceRefs.isEmpty = false := by
    rw [List.isEmpty_eq_false_iff]
    exact List.ne_nil_of_mem href
  have hmissing := h.traceLinks_missing hkeyed hitem htraced hsub
  rw [htrace] at hstale hempty ⊢
  simp only [SourceTraceResolver.traceLinks] at hstale hempty ⊢
  rw [if_neg hlinks, hmissing, hempty, hstale,
    if_neg fun h => Bool.false_ne_true h.2]
  rfl

end Links

theorem buildTraceForObject_eligible (env : Platform) (reader : AudienceContext) (channel : String)
    {resolver : SourceTraceResolver} {object : SupportObject} {truth : PersistedObjectTruth}
    (htruth : resolver.truthByObject object.objectId = some truth)
    (hid : object.objectId = governedObjectRef truth.pageId)
    (htraced : tracedRecords truth (resolver.deliveryRecordsByObject object.objectId) (some reader)
      (some channel) = traced) :
    ∃ trace, resolver.buildTraceForObject env object (some reader) (some channel) = .ok trace ∧
      trace.version = truth.pageVersion ∧
      ((traced = [] ∨ truth.sourceEvidenceComplete = false) → trace.freshness = .unknown) ∧
      (traced ≠ [] → truth.sourceEvidenceComplete = true → ∃ publications, trace =
        resolver.traceLinks env object (some reader) (some truth) traced publications) := by
  unfold SourceTraceResolver.buildTraceForObject
  simp only [htruth]
  rw [if_neg (not_not.mpr hid), if_neg (by simp)]
  unfold tracedRecords at htraced
  dsimp only at htraced
  split
  · rename_i hrecords
    rw [hrecords] at htraced
    obtain rfl : [] = traced := htraced
    exact ⟨_, rfl, rfl, fun _ => rfl, fun h => absurd rfl h⟩
  split
  · rename_i hcurrent
    rw [hcurrent] at htraced
    obtain rfl : [] = traced := htraced
    exact ⟨_, rfl, rfl, fun _ => rfl, fun h => absurd rfl h⟩
  rw [htraced]
  split
  · rename_i hnone
    exact ⟨_, rfl, rfl, fun _ => rfl, fun h => absurd hnone h⟩
  rename_i hsome
  split
  · rename_i hincomplete
    have hfalse : truth.sourceEvidenceComplete = false := by simpa using hincomplete
    exact ⟨_, rfl, rfl, fun _ => rfl, fun _ h => absurd (hfalse.symm.trans h) (by decide)⟩
  · rename_i hcomplete
    have htrue : truth.sourceEvidenceComplete = true := by simpa using hcomplete
    refine ⟨_, rfl, rfl, fun h => ?_, fun _ _ => ⟨_, rfl⟩⟩
    rcases h with h | h
    · exact absurd h hsome
    · exact absurd (htrue.symm.trans h) (by decide)

section Served

variable (h : Loaded env rows now served snapshot) (hkeyed : KeyedRows rows) (hitem : item ∈ served)
include h hkeyed hitem

theorem Loaded.truth? : snapshot.toSubstrate.truth? (objectOf item).objectId = some item.2.truth := by
  obtain ⟨publication, event, pairs, objectType, hprojects⟩ := h.projects hitem
  rw [SubstrateKnowledgeSnapshot.truth?, GovernedSnapshot.toSubstrate, h.truth hkeyed hitem]
  rw [Option.filter_some, if_pos]
  rw [hprojects.pageId, decide_eq_true_eq]
  exact h.objectId hitem

omit hkeyed in
theorem Loaded.mem_tracedRecords (hcomplete : sourceEvidenceComplete rows item.1 = true) :
    record ∈ tracedRecords item.2.truth item.2.records (some reader) (some channel) ↔
      record ∈ item.2.records ∧
        recordIsDeliveryEligible record item.2.truth channel reader = true := by
  obtain ⟨publication, event, pairs, objectType, hprojects⟩ := h.projects hitem
  exact Retrieval.mem_tracedRecords (hprojects.complete.trans hcomplete)

/-- The verdict of the snapshot. -/
theorem Loaded.deliveryVerdict_iff (reader : AudienceContext) (channel : String) :
    snapshot.toSubstrate.deliveryVerdict (objectOf item).objectId channel (some reader) = true ↔
      sourceEvidenceComplete rows item.1 = true ∧
        ∃ binding, DeliveredThrough rows item.1 channel reader binding := by
  obtain ⟨publication, event, pairs, objectType, hprojects⟩ := h.projects hitem
  rw [Retrieval.deliveryVerdict_iff (h.truth? hkeyed hitem), ← hprojects.exists_eligible]
  rw [GovernedSnapshot.toSubstrate, h.deliveryRecords hkeyed hitem, Option.getD_some]

/-- The trace of an object: fresh exactly if the reader may read the page on the channel. -/
theorem Loaded.buildTrace (reader : AudienceContext) (channel : String) : ∃ trace,
    snapshot.buildTrace env (objectOf item) (some reader) (some channel) = .ok trace ∧
      trace.version = item.1.version ∧
      (trace.freshness = .fresh ↔ SourcesFresh rows now item.1 ∧
        ∃ binding, DeliveredThrough rows item.1 channel reader binding) ∧
      (trace.freshness = .fresh → trace.blindSpots = [] ∧
        ∀ id, id ∈ trace.evidenceRefs.map SourceTraceEvidenceRef.evidenceId ↔
          ∃ source ∈ readySources rows item.1, ∃ binding,
            DeliveredThrough rows item.1 channel reader binding ∧
              id = pageEvidenceId item.1.id source.id binding.bindingKey) := by
  obtain ⟨publication, event, pairs, objectType, hprojects⟩ := h.projects hitem
  have htruth : snapshot.toSubstrate.resolver.truthByObject (objectOf item).toSupport.objectId =
      some item.2.truth := h.truth hkeyed hitem
  have hrecords : snapshot.toSubstrate.resolver.deliveryRecordsByObject
      (objectOf item).toSupport.objectId = item.2.records := by
    have hlookup := h.deliveryRecords hkeyed hitem
    exact congrArg (·.getD []) hlookup
  have hid : (objectOf item).toSupport.objectId = governedObjectRef item.2.truth.pageId := by
    rw [hprojects.pageId]
    exact h.objectId hitem
  obtain ⟨trace, htrace, hversion, hunknown, hlinks⟩ :=
    buildTraceForObject_eligible env reader channel htruth hid rfl
  rw [hrecords] at hunknown hlinks
  refine ⟨trace, htrace, hversion.trans hprojects.pageVersion, ?_⟩
  generalize htraced : tracedRecords item.2.truth item.2.records (some reader) (some channel) =
    traced at hunknown hlinks
  rw [sourcesFresh_iff]
  by_cases hcomplete : sourceEvidenceComplete rows item.1 = true
  · have hmem : ∀ record, record ∈ traced ↔ record ∈ item.2.records ∧
        recordIsDeliveryEligible record item.2.truth channel reader = true := fun record =>
      htraced ▸ h.mem_tracedRecords hitem hcomplete
    have hdelivered : traced ≠ [] ↔ ∃ binding, DeliveredThrough rows item.1 channel reader binding := by
      have hexists : _ ↔ _ ∧ ∃ binding, DeliveredThrough rows item.1 channel reader binding :=
        hprojects.exists_eligible
      rw [and_iff_right hcomplete] at hexists
      rw [← hexists]
      simp only [← hmem]
      exact ⟨List.exists_mem_of_ne_nil _, fun ⟨_, hrecord⟩ => List.ne_nil_of_mem hrecord⟩
    by_cases hnil : traced = []
    · rw [hunknown (.inl hnil)]
      exact ⟨⟨fun h => (nomatch h), fun h => absurd hnil (hdelivered.mpr h.2)⟩, fun h => (nomatch h)⟩
    · obtain ⟨publications, heq⟩ := hlinks hnil (hprojects.complete.trans hcomplete)
      have hsub : ∀ other ∈ traced, other ∈ item.2.records ∧
          other.audienceFilter.matchesContext reader = true := by
        intro other hother
        obtain ⟨hrecord, heligible⟩ := (hmem other).mp hother
        simp only [recordIsDeliveryEligible, Bool.and_eq_true] at heligible
        exact ⟨hrecord, heligible.1.1.2⟩
      have hready : readySources rows item.1 ≠ [] := by
        obtain ⟨hids, hall⟩ := sourceEvidenceComplete_iff.mp hcomplete
        obtain ⟨id, hid⟩ := List.exists_mem_of_ne_nil _ hids
        obtain ⟨source, hsource, -⟩ := hall id hid
        exact List.ne_nil_of_mem hsource
      refine ⟨?_, fun hfresh => ⟨h.traceLinks_clear hkeyed hitem hnil hsub heq hfresh, fun id => ?_⟩⟩
      · rw [h.traceLinks_fresh hkeyed hitem hnil hsub heq, and_iff_right hready,
          and_iff_right hcomplete, and_iff_left (hdelivered.mp hnil)]
      · rw [List.mem_map]
        constructor
        · rintro ⟨ref, href, rfl⟩
          obtain ⟨record, hrecord, source, hsource, evidence, hattests, -, rfl⟩ :=
            (h.mem_evidenceRefs hkeyed hitem hnil hsub heq).mp href
          obtain ⟨hstored, heligible⟩ := (hmem record).mp hrecord
          obtain ⟨-, binding, hthrough, hkey⟩ :=
            (hprojects.mem_eligible record.bindingKey.1).mp ⟨record, hstored, heligible, rfl⟩
          exact ⟨source, hsource, binding, hthrough, hkey ▸ hattests.id⟩
        · rintro ⟨source, hsource, binding, hthrough, rfl⟩
          obtain ⟨record, hstored, heligible, hkey⟩ :=
            (hprojects.mem_eligible binding.bindingKey).mpr ⟨hcomplete, binding, hthrough, rfl⟩
          obtain ⟨ref, href, hid, -⟩ := h.exists_evidenceRef hkeyed hitem hnil hsub heq
            ((hmem record).mpr ⟨hstored, heligible⟩) hsource
          exact ⟨ref, href, hkey ▸ hid⟩
  · rw [hunknown (.inr (by rw [hprojects.complete]; simpa using hcomplete))]
    exact ⟨⟨fun h => (nomatch h), fun h => absurd h.1.1 hcomplete⟩, fun h => (nomatch h)⟩

omit hkeyed in
/-- A page is served for a reader's audience exactly if it is offered to the reader. -/
theorem Loaded.allowed_iff :
    audienceContextAllowed reader (objectOf item).supportedAudiences = true ↔
      OfferedTo rows item.1 reader := by
  obtain ⟨publication, event, pairs, objectType, hprojects⟩ := h.projects hitem
  have haudiences : (objectOf item).supportedAudiences =
      (item.2.records.map PersistedDeliveryRecord.audienceFilter).eraseDups := by
    simp only [objectOf, governedObject, hprojects.object, supportObject]
  rw [audienceContextAllowed, haudiences, decide_eq_true_eq, ne_eq, List.filter_eq_nil_iff]
  simp only [List.mem_eraseDups, List.mem_map, not_forall, not_not, exists_prop]
  constructor
  · rintro ⟨audience, ⟨record, hrecord, rfl⟩, hmatches⟩
    obtain ⟨binding, hbinding, propagation, delivery, published, hdispatches, hrecords, -⟩ :=
      hprojects.mem_records hrecord
    exact ⟨binding, hbinding, ⟨_, hrecords.audience, hmatches⟩, publication, event, propagation,
      delivery, hprojects.current, hdispatches⟩
  · rintro ⟨binding, hbinding, ⟨audience, haudience, hmatches⟩, publication', event', propagation,
      delivery, hcurrent, hdispatches⟩
    obtain ⟨rfl, rfl⟩ := Prod.mk.injEq .. ▸ Option.some.inj (hcurrent.symm.trans hprojects.current)
    obtain ⟨record, hrecord, published, -, hrecords⟩ := hprojects.exists_record hbinding hdispatches
    obtain rfl := Except.ok.inj (haudience.symm.trans hrecords.audience)
    exact ⟨_, ⟨record, hrecord, rfl⟩, hmatches⟩

omit hkeyed in
theorem Loaded.published : (objectOf item).lifecycleState = .published := by
  obtain ⟨publication, event, pairs, objectType, hprojects⟩ := h.projects hitem
  have hcurrent := hprojects.current
  simp only [currentPublication, Option.bind_eq_bind, Option.bind_eq_some_iff,
    Option.guard_eq_some'] at hcurrent
  obtain ⟨_, -, _, -, _, ⟨-, -, -, hstatus, -⟩, -⟩ := hcurrent
  simp only [objectOf, governedObject, hprojects.object, supportObject]
  exact if_pos hstatus

omit hkeyed in
/-- The object answers with the texts of the page. -/
theorem Loaded.body : ∃ objectType, Projectable env item.1 objectType ∧
    (objectOf item).title = item.1.title ∧
    (objectOf item).body = objectBody item.1.toWikiPage objectType := by
  obtain ⟨publication, event, pairs, objectType, hprojects⟩ := h.projects hitem
  refine ⟨objectType, hprojects.projectable, ?_, ?_⟩ <;>
    simp only [objectOf, governedObject, hprojects.object, supportObject]

/-- No trace of a served object fails. -/
theorem Loaded.buildTrace_ok (context : Option AudienceContext) (channel : Option String) :
    ∃ trace, snapshot.buildTrace env (objectOf item) context channel = .ok trace := by
  have htruth : snapshot.toSubstrate.resolver.truthByObject (objectOf item).toSupport.objectId =
      some item.2.truth := h.truth hkeyed hitem
  unfold GovernedSnapshot.buildTrace SourceTraceResolver.buildTraceForObject
  simp only [htruth]
  repeat' split
  all_goals exact ⟨_, rfl⟩

end Served

/-- A page that may be read is served. -/
theorem Loaded.mem_served (h : Loaded env rows now served snapshot) {page : GovernedPage}
    (hpage : page ∈ rows.pages) {objectType : KnowledgeObjectType}
    (hprojectable : Projectable env page objectType) {binding : AudienceBinding}
    (hdelivered : DeliveredThrough rows page channel reader binding) :
    ∃ item ∈ served, item.1 = page := by
  obtain ⟨found, hfound, hserved⟩ := h.all page hpage
  obtain ⟨hbinding, -, -, publication, event, propagation, delivery, hcurrent, hdispatches, -⟩ :=
    hdelivered
  cases found with
  | none => exact absurd hprojectable (projectPage_none hfound hcurrent hbinding hdispatches)
  | some projection => exact ⟨(page, projection), hserved projection rfl, rfl⟩

/-- What may be read, over the pages that are served. -/
theorem Loaded.readable_iff (h : Loaded env rows now served snapshot) {objectId : String} :
    (∃ page ∈ rows.pages, objectId = governedObjectRef page.id ∧
      Readable env rows now page channel reader) ↔
      ∃ item ∈ served, objectId = governedObjectRef item.1.id ∧ SourcesFresh rows now item.1 ∧
        ∃ binding, DeliveredThrough rows item.1 channel reader binding := by
  constructor
  · rintro ⟨page, hpage, rfl, ⟨objectType, hprojectable⟩, hfresh, binding, hdelivered⟩
    obtain ⟨item, hitem, rfl⟩ := h.mem_served hpage hprojectable hdelivered
    exact ⟨item, hitem, rfl, hfresh, binding, hdelivered⟩
  · rintro ⟨item, hitem, hid, hfresh, hdelivered⟩
    obtain ⟨objectType, hprojectable, -⟩ := h.body hitem
    exact ⟨item.1, (h.pages item hitem).1, hid, ⟨objectType, hprojectable⟩, hfresh, hdelivered⟩

end Loaded

end Cygnus.Retrieval
