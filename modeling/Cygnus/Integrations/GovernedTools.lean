import Cygnus.Integrations.NanobotTools

/-! What the tools show over a snapshot that was loaded from the database. -/

namespace Cygnus.Integrations

open Wiki Domain Governance Publish Retrieval Text Result Sequence

section Effects

variable {α : Type} {ε : Type}

theorem anyM_iff (f : α → Except ε Bool) (P : α → Prop) (xs : List α)
    (h : ∀ x ∈ xs, ∃ b, f x = .ok b ∧ (b = true ↔ P x)) :
    ∃ b, xs.anyM f = .ok b ∧ (b = true ↔ ∃ x ∈ xs, P x) := by
  induction xs with
  | nil => exact ⟨false, rfl, by simp⟩
  | cons x xs ih =>
    obtain ⟨here, hhere, hx⟩ := h x List.mem_cons_self
    obtain ⟨rest, hrest, hxs⟩ := ih fun y hy => h y (List.mem_cons_of_mem _ hy)
    rw [List.anyM_cons, hhere, ok_bind]
    cases here with
    | true => exact ⟨true, rfl, by simp [hx.mp rfl]⟩
    | false =>
      have hnot : ¬ P x := fun hP => Bool.false_ne_true (hx.mpr hP)
      exact ⟨rest, hrest, by simp [hxs, hnot]⟩

open Classical in
/-- The hits that are kept are those that are eligible, in the order they were found. -/
theorem eligibleHits_filter (freshness : α → FreshnessAttestation) (deliverable : α → Publishing Bool)
    (P : α → Prop) (hits : List α) (h : ∀ hit ∈ hits, (P hit → freshness hit = .fresh) ∧
      ∃ b, deliverable hit = .ok b ∧ (b = true ↔ P hit)) :
    eligibleHits freshness deliverable hits = .ok (hits.filter fun hit => P hit) := by
  induction hits with
  | nil => rfl
  | cons hit hits ih =>
    obtain ⟨hfresh, b, hb, hiff⟩ := h hit List.mem_cons_self
    rw [eligibleHits, ih fun other hother => h other (List.mem_cons_of_mem _ hother)]
    by_cases hP : P hit
    · obtain rfl := hiff.mpr hP
      simp [hfresh hP, hb, ok_bind, hP]
    · have hfalse : b = false := by
        rw [← Bool.not_eq_true]
        exact mt hiff.mp hP
      subst hfalse
      by_cases hstate : freshness hit = .fresh <;> simp [hstate, hb, ok_bind, hP]

end Effects

section Reads

variable (env : Platform) (rows : SubstrateRows) (now : Timestamp) (channel : String)
  (reader : AudienceContext)

/-- The id is that of a page that may be read. -/
def ReadsPage (objectId : String) : Prop :=
  ∃ page ∈ rows.pages, objectId = governedObjectRef page.id ∧
    Readable env rows now page channel reader

/-- The id is that of what a source says for a page that may be read, to the readers of a binding
that the page reached the channel through. -/
def ReadsEvidence (evidenceId : String) : Prop :=
  ∃ page ∈ rows.pages, Readable env rows now page channel reader ∧
    ∃ source ∈ readySources rows page, ∃ binding, DeliveredThrough rows page channel reader binding ∧
      evidenceId = pageEvidenceId page.id source.id binding.bindingKey

end Reads

section Checks

variable {env : Platform} {rows : SubstrateRows} {now : Timestamp} {snapshot : GovernedSnapshot}
  {served : List (GovernedPage × PageProjection)} {item : GovernedPage × PageProjection}
  {objectId channel : String} {reader : AudienceContext}
  (h : Loaded env rows now served snapshot) (hkeyed : KeyedRows rows)
include h hkeyed

omit h hkeyed in
theorem offered_of_delivered {page : GovernedPage} {binding : AudienceBinding}
    (hdelivered : DeliveredThrough rows page channel reader binding) : OfferedTo rows page reader := by
  obtain ⟨hbinding, -, haudience, publication, event, propagation, delivery, hcurrent, hdispatches,
    -⟩ := hdelivered
  exact ⟨binding, hbinding, haudience, publication, event, propagation, delivery, hcurrent,
    hdispatches⟩

theorem objectsById_served :
    Dict.ofList (snapshot.objects.map fun object => (object.objectId, object)) =
      served.map fun item => ((objectOf item).objectId, objectOf item) := by
  rw [h.objects, List.map_map, Dict.ofList_of_nodup]
  · rfl
  · rw [Dict.keys, List.map_map]
    exact h.nodup hkeyed

theorem readObject_served (hitem : item ∈ served) :
    readObject snapshot (objectOf item).objectId = some (objectOf item) := by
  have hlookup := lookup_ofList_of_nodup objectOf (h.nodup hkeyed) hitem
  rw [readObject, h.objects, List.map_map]
  exact hlookup

theorem readObject_some {object : GovernedObject} (hread : readObject snapshot objectId = some object) :
    ∃ item ∈ served, object = objectOf item ∧ objectId = governedObjectRef item.1.id := by
  rw [readObject, objectsById_served h hkeyed] at hread
  obtain ⟨item, hitem, heq⟩ := List.mem_map.mp (mem_of_lookup hread)
  obtain ⟨rfl, rfl⟩ := Prod.mk.injEq .. ▸ heq
  exact ⟨item, hitem, rfl, h.objectId hitem⟩

theorem publishedObjectForContext_served (hitem : item ∈ served) :
    publishedObjectForContext snapshot (objectOf item).objectId reader = some (objectOf item) ↔
      OfferedTo rows item.1 reader := by
  rw [publishedObjectForContext, readObject_served h hkeyed hitem, ← h.allowed_iff hitem,
    Option.filter_some, h.published hitem]
  simp

theorem publishedObjectForContext_some {object : GovernedObject}
    (hread : publishedObjectForContext snapshot objectId reader = some object) :
    ∃ item ∈ served, object = objectOf item ∧ objectId = governedObjectRef item.1.id := by
  rw [publishedObjectForContext, Option.filter_eq_some_iff] at hread
  exact readObject_some h hkeyed hread.1

theorem readTrace_served (channel : String) (hitem : item ∈ served) (hoffered : OfferedTo rows item.1 reader) :
    ∃ trace, readTrace env snapshot (objectOf item).objectId reader channel = .ok (some trace) ∧
      snapshot.buildTrace env (objectOf item) (some reader) (some channel) = .ok trace := by
  obtain ⟨trace, htrace⟩ := h.buildTrace_ok hkeyed hitem (some reader) (some channel)
  refine ⟨trace, ?_, htrace⟩
  simp only [readTrace, (publishedObjectForContext_served h hkeyed hitem).mpr hoffered, htrace]
  rfl

/-- What both reads of one object and the check of a hit come down to. -/
theorem current_cases (objectId channel : String) (reader : AudienceContext) :
    (∃ item ∈ served, ∃ trace, objectId = governedObjectRef item.1.id ∧
      (SourcesFresh rows now item.1 ∧ ∃ binding, DeliveredThrough rows item.1 channel reader binding) ∧
      publishedObjectForContext snapshot objectId reader = some (objectOf item) ∧
      deliveryIsCurrent snapshot objectId reader channel = true ∧
      readTrace env snapshot objectId reader channel = .ok (some trace) ∧
      snapshot.buildTrace env (objectOf item) (some reader) (some channel) = .ok trace ∧
      trace.freshness = .fresh) ∨
    (¬ ∃ item ∈ served, objectId = governedObjectRef item.1.id ∧ SourcesFresh rows now item.1 ∧
        ∃ binding, DeliveredThrough rows item.1 channel reader binding) ∧
      (publishedObjectForContext snapshot objectId reader = none ∨
        ∃ object, publishedObjectForContext snapshot objectId reader = some object ∧
          object.objectId = objectId ∧
          (deliveryIsCurrent snapshot objectId reader channel = false ∨ ∃ trace,
            readTrace env snapshot objectId reader channel = .ok (some trace) ∧
              trace.freshness ≠ .fresh)) := by
  have hsame : ∀ {item other}, item ∈ served → other ∈ served →
      governedObjectRef item.1.id = governedObjectRef other.1.id → item = other :=
    fun hitem hother hid => h.eq_of_id hkeyed hitem hother (governedObjectRef_injective hid)
  cases hpublished : publishedObjectForContext snapshot objectId reader with
  | none =>
    refine .inr ⟨?_, .inl rfl⟩
    rintro ⟨item, hitem, rfl, -, binding, hdelivered⟩
    rw [← h.objectId hitem,
      (publishedObjectForContext_served h hkeyed hitem).mpr (offered_of_delivered hdelivered)] at hpublished
    cases hpublished
  | some object =>
    obtain ⟨item, hitem, rfl, hid⟩ := publishedObjectForContext_some h hkeyed hpublished
    rw [← h.objectId hitem] at hid
    have hoffered := (publishedObjectForContext_served h hkeyed hitem).mp (hid ▸ hpublished)
    obtain ⟨trace, hread, htrace⟩ := readTrace_served h hkeyed channel hitem hoffered
    obtain ⟨found, hfound, -, hfresh, -⟩ := h.buildTrace hkeyed hitem reader channel
    obtain rfl := Except.ok.inj (htrace.symm.trans hfound)
    have hverdict := h.deliveryVerdict_iff hkeyed hitem reader channel
    have hno : ∀ {reason : Prop}, reason → ¬ (SourcesFresh rows now item.1 ∧
        ∃ binding, DeliveredThrough rows item.1 channel reader binding) →
        (¬ ∃ item ∈ served, objectId = governedObjectRef item.1.id ∧ SourcesFresh rows now item.1 ∧
          ∃ binding, DeliveredThrough rows item.1 channel reader binding) ∧ reason := by
      intro reason hreason hnot
      refine ⟨?_, hreason⟩
      rintro ⟨other, hother, hid', hrest⟩
      obtain rfl := hsame hitem hother (by rw [← h.objectId hitem, ← hid, hid'])
      exact hnot hrest
    subst hid
    by_cases hcurrent : deliveryIsCurrent snapshot (objectOf item).objectId reader channel = true
    · by_cases hfreshTrace : trace.freshness = .fresh
      · exact .inl ⟨item, hitem, trace, h.objectId hitem, hfresh.mp hfreshTrace, rfl, hcurrent, hread,
          htrace, hfreshTrace⟩
      · exact .inr (hno (.inr ⟨_, rfl, rfl, .inr ⟨trace, hread, hfreshTrace⟩⟩) (mt hfresh.mpr hfreshTrace))
    · refine .inr (hno (.inr ⟨_, rfl, rfl, .inl (by simpa using hcurrent)⟩) ?_)
      rintro ⟨hsources, hdelivered⟩
      exact hcurrent (hverdict.mpr ⟨(sourcesFresh_iff.mp hsources).1, hdelivered⟩)

theorem isAnswerDeliverable_iff (objectId channel : String) (reader : AudienceContext) :
    ∃ deliverable, isAnswerDeliverable env snapshot objectId reader channel = .ok deliverable ∧
      (deliverable = true ↔ ReadsPage env rows now channel reader objectId) := by
  rw [ReadsPage, h.readable_iff]
  unfold isAnswerDeliverable
  rcases current_cases h hkeyed objectId channel reader with
    ⟨item, hitem, trace, hid, hreadable, hpublished, hcurrent, hread, -, hfresh⟩ | ⟨hnot, hcases⟩
  · refine ⟨true, ?_, ⟨fun _ => ⟨item, hitem, hid, hreadable⟩, fun _ => rfl⟩⟩
    simp [hpublished, hcurrent, hread, hfresh]
  · refine ⟨false, ?_, ⟨fun h => (nomatch h), fun h => absurd h hnot⟩⟩
    rcases hcases with hnone | ⟨object, hpublished, -, hcurrent | ⟨trace, hread, hstale⟩⟩
    · simp [hnone]
    · simp [hpublished, hcurrent]
    · simp [hpublished, hread, hstale]

/-- What a read of the page shows: the text of the page as it is, and each source of it that is ready
through each binding that reached the channel for the reader. -/
structure Shows (env : Platform) (rows : SubstrateRows) (page : GovernedPage) (channel : String)
    (reader : AudienceContext) (object : GovernedObject) (trace : SourceTrace) : Prop where
  objectId : object.objectId = governedObjectRef page.id
  title : object.title = page.title
  body : ∃ objectType, Projectable env page objectType ∧
    object.body = objectBody page.toWikiPage objectType
  version : trace.version = page.version
  fresh : trace.freshness = .fresh
  clear : trace.blindSpots = []
  evidence : ∀ id, id ∈ trace.evidenceRefs.map SourceTraceEvidenceRef.evidenceId ↔
    ∃ source ∈ readySources rows page, ∃ binding, DeliveredThrough rows page channel reader binding ∧
      id = pageEvidenceId page.id source.id binding.bindingKey

theorem readCurrent_cases {α : Type} (label objectId channel : String) (reader : AudienceContext)
    (answer : GovernedObject → SourceTrace → ToolResult α) :
    (∃ page ∈ rows.pages, ∃ object trace, objectId = governedObjectRef page.id ∧
      Readable env rows now page channel reader ∧ Shows env rows page channel reader object trace ∧
      readCurrent env snapshot label objectId reader channel answer = .ok (answer object trace)) ∨
    ¬ ReadsPage env rows now channel reader objectId ∧
      (readCurrent env snapshot label objectId reader channel answer =
          .ok (.unavailable label objectId) ∨
        readCurrent env snapshot label objectId reader channel answer = .ok .restricted) := by
  rw [ReadsPage, h.readable_iff]
  unfold readCurrent
  rcases current_cases h hkeyed objectId channel reader with
    ⟨item, hitem, trace, hid, hreadable, hpublished, hcurrent, hread, htrace, hfresh⟩ | ⟨hnot, hcases⟩
  · obtain ⟨found, hfound, hversion, -, hshown⟩ := h.buildTrace hkeyed hitem reader channel
    obtain rfl := Except.ok.inj (htrace.symm.trans hfound)
    obtain ⟨hclear, hevidence⟩ := hshown hfresh
    obtain ⟨objectType, hprojectable, htitle, hbody⟩ := h.body hitem
    have hobject : (objectOf item).objectId = objectId := (h.objectId hitem).trans hid.symm
    refine .inl ⟨item.1, (h.pages item hitem).1, objectOf item, trace, hid,
      ⟨⟨objectType, hprojectable⟩, hreadable.1, hreadable.2⟩, ⟨h.objectId hitem, htitle,
        ⟨objectType, hprojectable, hbody⟩, hversion, hfresh, hclear, hevidence⟩, ?_⟩
    simp [hpublished, hobject, hcurrent, hread, ok_bind, hfresh]
  · refine .inr ⟨hnot, ?_⟩
    rcases hcases with hnone | ⟨object, hpublished, hobject, hcurrent | ⟨trace, hread, hstale⟩⟩
    · simp [hnone]
    · simp [hpublished, hobject, hcurrent]
    · by_cases hcurrent : deliveryIsCurrent snapshot objectId reader channel = true
      · simp [hpublished, hobject, hcurrent, hread, ok_bind, hstale]
      · simp [hpublished, hobject, hcurrent]


/-- A record of an evidence id is that of the binding the id is made of, on the page it is made of. -/
theorem record_of_scoped {other : GovernedPage × PageProjection} {record found : PersistedDeliveryRecord}
    {sourceId : Uuid} (hitem : item ∈ served) (hother : other ∈ served)
    (hrecord : record ∈ item.2.records) (hfound : found ∈ other.2.records)
    (hbinding : bindingScoped (pageEvidenceId item.1.id sourceId record.bindingKey.1) found = true) :
    other = item ∧ found = record := by
  obtain ⟨publication, event, pairs, objectType, hprojects⟩ := h.projects hitem
  obtain ⟨publication', event', pairs', objectType', hprojects'⟩ := h.projects hother
  have hkey : found.bindingKey.1 = record.bindingKey.1 :=
    (bindingScoped_pageEvidenceId (hprojects.hexKey hkeyed hrecord)
      (hprojects'.hexKey hkeyed hfound)).mp hbinding
  obtain ⟨binding, hactive, _, _, _, -, hrecords, -⟩ := hprojects.mem_records hrecord
  obtain ⟨binding', hactive', _, _, _, -, hrecords', -⟩ := hprojects'.mem_records hfound
  rw [activeBindings, List.mem_filter] at hactive hactive'
  obtain rfl : binding' = binding := List.inj_on_of_nodup_map hkeyed.bindings hactive'.1 hactive.1
    (hrecords'.key.symm.trans (hkey.trans hrecords.key))
  simp only [Bool.and_eq_true, decide_eq_true_eq] at hactive hactive'
  obtain rfl := h.eq_of_id hkeyed hother hitem (hactive'.2.1.1.symm.trans hactive.2.1.1)
  exact ⟨rfl, hprojects.record_unique hkeyed hfound hrecord hkey⟩

/-- The objects that an evidence id is linked to. -/
theorem mem_linkedEvidenceIds (hitem : item ∈ served) {evidenceId : String} :
    evidenceId ∈ linkedEvidenceIds (objectOf item) reader ↔
      ∃ record ∈ item.2.records, ∃ source ∈ readySources rows item.1,
        evidenceId = pageEvidenceId item.1.id source.id record.bindingKey.1 := by
  have hlinked : linkedEvidenceIds (objectOf item) reader = (objectOf item).evidenceIds := by
    rw [linkedEvidenceIds, objectOf, audienceVariants_governedObject]
    simp
  obtain ⟨publication, event, pairs, objectType, hprojects⟩ := h.projects hitem
  have hids : (objectOf item).evidenceIds = item.2.evidence.map fun evidence => evidence.evidenceId.1 := by
    simp only [objectOf, governedObject, hprojects.object, supportObject]
    rw [List.map_map]
    refine List.map_congr_left fun evidence hevidence => ?_
    obtain ⟨record, hrecord, source, hsource, hattests⟩ := hprojects.mem_evidence hevidence
    rw [Function.comp_apply, hattests.id]
    exact strip_pageEvidenceId (hprojects.hexKey hkeyed hrecord)
  rw [hlinked, hids, List.mem_map]
  constructor
  · rintro ⟨evidence, hevidence, rfl⟩
    obtain ⟨record, hrecord, source, hsource, hattests⟩ := hprojects.mem_evidence hevidence
    exact ⟨record, hrecord, source, hsource, hattests.id⟩
  · rintro ⟨record, hrecord, source, hsource, rfl⟩
    obtain ⟨evidence, hevidence, hattests⟩ := hprojects.exists_evidence hrecord hsource
    exact ⟨evidence, hevidence, hattests.id⟩

omit hkeyed in
theorem mem_deliveryRecords {records : List PersistedDeliveryRecord}
    (hmem : (objectId, records) ∈ snapshot.toSubstrate.deliveryRecordsByObject) :
    ∃ item ∈ served, objectId = (objectOf item).objectId ∧ records = item.2.records := by
  rw [GovernedSnapshot.toSubstrate, h.snapshot] at hmem
  have hpair := Dict.mem_ofList hmem
  rw [List.map_map, List.mem_map] at hpair
  obtain ⟨item, hitem, heq⟩ := hpair
  obtain ⟨rfl, rfl⟩ := Prod.mk.injEq .. ▸ heq
  exact ⟨item, hitem, rfl, rfl⟩

theorem evidenceDeliveryVerdict_iff (hitem : item ∈ served) {record : PersistedDeliveryRecord}
    (hrecord : record ∈ item.2.records) (sourceId : Uuid) (channel : String) (reader : AudienceContext) :
    snapshot.toSubstrate.evidenceDeliveryVerdict
        (pageEvidenceId item.1.id sourceId record.bindingKey.1) channel (some reader) = true ↔
      recordIsDeliveryEligible record item.2.truth channel reader = true := by
  obtain ⟨publication, event, pairs, objectType, hprojects⟩ := h.projects hitem
  have hhex := hprojects.hexKey hkeyed hrecord
  have hself : bindingScoped (pageEvidenceId item.1.id sourceId record.bindingKey.1) record = true :=
    (bindingScoped_pageEvidenceId hhex hhex).mpr rfl
  constructor
  · intro hverdict
    simp only [SubstrateKnowledgeSnapshot.evidenceDeliveryVerdict] at hverdict
    split at hverdict
    · cases hverdict
    simp only [List.any_eq_true, Option.any_eq_true, Bool.and_eq_true] at hverdict
    obtain ⟨⟨objectId, records⟩, hmem, truth, htruth, found, hfound, hbinding,
      heligible⟩ := hverdict
    obtain ⟨other, hother, rfl, rfl⟩ := mem_deliveryRecords h hmem
    obtain ⟨rfl, rfl⟩ := record_of_scoped h hkeyed hitem hother hrecord hfound hbinding
    rw [h.truth? hkeyed hother] at htruth
    exact (Option.some.inj htruth) ▸ heligible
  · intro heligible
    refine evidenceDeliveryVerdict_of_eligible (h.truth? hkeyed hitem) (h.deliveryRecords hkeyed hitem)
      hrecord heligible hself ?_
    rw [strip_pageEvidenceId hhex]
    intro hempty
    have hlist := congrArg String.toList hempty
    rw [toList_pageEvidenceId] at hlist
    cases hlist

omit hkeyed in
/-- What evidence may be read, over the records of the pages that are served. -/
theorem readsEvidence_iff {evidenceId : String} :
    ReadsEvidence env rows now channel reader evidenceId ↔
      ∃ item ∈ served, Readable env rows now item.1 channel reader ∧
        ∃ record ∈ item.2.records, ∃ source ∈ readySources rows item.1,
          recordIsDeliveryEligible record item.2.truth channel reader = true ∧
            evidenceId = pageEvidenceId item.1.id source.id record.bindingKey.1 := by
  constructor
  · rintro ⟨page, hpage, hreadable, source, hsource, binding, hthrough, rfl⟩
    obtain ⟨objectType, hprojectable⟩ := hreadable.projectable
    obtain ⟨item, hitem, rfl⟩ := h.mem_served hpage hprojectable hthrough
    obtain ⟨publication, event, pairs, objectType', hprojects⟩ := h.projects hitem
    obtain ⟨record, hrecord, heligible, hkey⟩ := (hprojects.mem_eligible binding.bindingKey).mpr
      ⟨(sourcesFresh_iff.mp hreadable.fresh).1, binding, hthrough, rfl⟩
    exact ⟨item, hitem, hreadable, record, hrecord, source, hsource, heligible, by rw [hkey]⟩
  · rintro ⟨item, hitem, hreadable, record, hrecord, source, hsource, heligible, rfl⟩
    obtain ⟨publication, event, pairs, objectType, hprojects⟩ := h.projects hitem
    obtain ⟨-, binding, hthrough, hkey⟩ :=
      (hprojects.mem_eligible record.bindingKey.1).mp ⟨record, hrecord, heligible, rfl⟩
    exact ⟨item.1, (h.pages item hitem).1, hreadable, source, hsource, binding, hthrough, by rw [hkey]⟩

theorem readable_of_readsPage (hitem : item ∈ served)
    (hreads : ReadsPage env rows now channel reader (objectOf item).objectId) :
    Readable env rows now item.1 channel reader := by
  obtain ⟨page, hpage, hid, hreadable⟩ := hreads
  rw [h.objectId hitem] at hid
  obtain rfl : item.1 = page :=
    hkeyed.pages.eq_of_key (h.pages item hitem).1 hpage (governedObjectRef_injective hid)
  exact hreadable

theorem evidenceIsDeliverable_iff (evidenceId channel : String) (reader : AudienceContext) :
    ∃ deliverable, evidenceIsDeliverable env snapshot evidenceId reader channel = .ok deliverable ∧
      (deliverable = true ↔ ReadsEvidence env rows now channel reader evidenceId) := by
  obtain ⟨linked, hlinked, hiff⟩ := anyM_iff (fun object : GovernedObject =>
      isAnswerDeliverable env snapshot object.objectId reader channel)
    (fun object => ReadsPage env rows now channel reader object.objectId)
    ((Dict.values (Dict.ofList (snapshot.objects.map fun object =>
      (object.objectId, object)))).filter fun object => evidenceId ∈ linkedEvidenceIds object reader)
    fun object _ => isAnswerDeliverable_iff h hkeyed object.objectId channel reader
  unfold evidenceIsDeliverable
  rw [readsEvidence_iff h]
  have hvalues : ∀ object, object ∈ Dict.values (Dict.ofList (snapshot.objects.map fun object =>
      (object.objectId, object))) ↔ ∃ item ∈ served, object = objectOf item := by
    intro object
    rw [objectsById_served h hkeyed, Dict.values, List.map_map, List.mem_map]
    simp only [Function.comp_apply, eq_comm]
  by_cases hverdict : snapshot.toSubstrate.evidenceDeliveryVerdict evidenceId channel (some reader) = true
  · refine ⟨linked, by simp only [hverdict, Bool.not_true, Bool.false_eq_true, if_false, hlinked], ?_⟩
    rw [hiff]
    simp only [List.mem_filter, decide_eq_true_eq, hvalues]
    constructor
    · rintro ⟨_, ⟨⟨item, hitem, rfl⟩, hmem⟩, hreads⟩
      obtain ⟨record, hrecord, source, hsource, rfl⟩ :=
        (mem_linkedEvidenceIds h hkeyed hitem).mp hmem
      exact ⟨item, hitem, readable_of_readsPage h hkeyed hitem hreads, record, hrecord, source, hsource,
        (evidenceDeliveryVerdict_iff h hkeyed hitem hrecord source.id channel reader).mp hverdict, rfl⟩
    · rintro ⟨item, hitem, hreadable, record, hrecord, source, hsource, heligible, rfl⟩
      exact ⟨objectOf item, ⟨⟨item, hitem, rfl⟩, (mem_linkedEvidenceIds h hkeyed hitem).mpr
        ⟨record, hrecord, source, hsource, rfl⟩⟩,
        item.1, (h.pages item hitem).1, h.objectId hitem, hreadable⟩
  · refine ⟨false, by simp only [hverdict, Bool.not_false, if_true]; rfl, ?_⟩
    simp only [Bool.false_eq_true, false_iff]
    rintro ⟨item, hitem, hreadable, record, hrecord, source, hsource, heligible, rfl⟩
    exact hverdict ((evidenceDeliveryVerdict_iff h hkeyed hitem hrecord source.id channel reader).mpr
      heligible)

/-- What may be read is attested fresh. -/
theorem evidence_fresh {evidence : SupportEvidence} (hmem : evidence ∈ snapshot.toSubstrate.evidence)
    (hreads : ReadsEvidence env rows now channel reader evidence.evidenceId.1) :
    evidence.freshnessState = .fresh := by
  obtain ⟨item, hitem, hreadable, record, hrecord, source, hsource, -, hid⟩ :=
    (readsEvidence_iff h).mp hreads
  obtain ⟨-, hattests⟩ := h.evidence_unique hkeyed hitem hrecord hsource hmem hid
  exact hattests.freshness.trans ((sourcesFresh_iff.mp hreadable.fresh).2 source hsource)

end Checks

section Searches

variable {env : Platform} {rows : SubstrateRows} {now : Timestamp} {snapshot : GovernedSnapshot}
  {served : List (GovernedPage × PageProjection)} {search : ObjectSearch}

/-- A hit is the object of a page that the searched reader is offered. -/
structure Found (env : Platform) (rows : SubstrateRows) (snapshot : GovernedSnapshot)
    (search : ObjectSearch) (item : GovernedPage × PageProjection) (hit : KnowledgeObjectHit) :
    Prop where
  objectId : hit.objectId = governedObjectRef item.1.id
  title : hit.title = item.1.title
  snippet : hit.snippet = snippetFor (objectOf item)
  traced : ∃ trace, snapshot.buildTrace env (objectOf item) search.audienceContext search.channel =
    .ok trace ∧ hit.freshness = trace.freshness
  offered : search.matchAudience = true → ∃ reader, search.audienceContext = some reader ∧
    OfferedTo rows item.1 reader

theorem rankObject_some (h : Loaded env rows now served snapshot) {item : GovernedPage × PageProjection}
    (hitem : item ∈ served) {score : ℚ} {hit : KnowledgeObjectHit}
    (hrank : snapshot.rankObject env search (objectOf item) = .ok (some (score, hit))) :
    Found env rows snapshot search item hit := by
  unfold GovernedSnapshot.rankObject at hrank
  split at hrank
  · split at hrank
    · cases hrank
    · rename_i hmatch
      dsimp only at hrank
      split at hrank
      · cases hrank
      · simp only [bind_ok, pure_ok, Option.some.injEq, Prod.mk.injEq] at hrank
        obtain ⟨trace, htrace, -, rfl⟩ := hrank
        obtain ⟨-, -, htitle, -⟩ := h.body hitem
        refine ⟨h.objectId hitem, htitle, rfl, ⟨trace, htrace, rfl⟩, fun haudience => ?_⟩
        rw [ObjectSearch.audienceMatch, if_pos haudience] at hmatch
        cases hcontext : search.audienceContext with
        | none =>
          rw [hcontext] at hmatch
          cases hmatch
        | some reader =>
          rw [hcontext] at hmatch
          refine ⟨reader, rfl, (h.allowed_iff hitem).mp ?_⟩
          rw [audienceContextAllowed, decide_eq_true_eq]
          intro hnone
          simp [resolveAudienceMatch, hnone] at hmatch
  · cases hrank

theorem searchObjects_found (h : Loaded env rows now served snapshot) (hkeyed : KeyedRows rows)
    (search : ObjectSearch) : ∃ hits, snapshot.searchObjects env search = .ok hits ∧
      hits.length ≤ search.limit ∧
      ∀ hit ∈ hits, ∃ item ∈ served, Found env rows snapshot search item hit := by
  have hreturns : Returns (snapshot.objects.mapM (snapshot.rankObject env search)) := by
    refine returns_mapM fun object hobject => ?_
    rw [h.objects] at hobject
    obtain ⟨item, hitem, rfl⟩ := List.mem_map.mp hobject
    obtain ⟨trace, htrace⟩ := h.buildTrace_ok hkeyed hitem search.audienceContext search.channel
    unfold GovernedSnapshot.rankObject
    split
    · split
      · exact returns_pure _
      · dsimp only
        split
        · exact returns_pure _
        · rw [htrace]
          exact returns_pure _
    · exact returns_pure _
  obtain ⟨ranked, hranked⟩ := hreturns
  refine ⟨topRanked KnowledgeObjectHit.title search.limit ranked.reduceOption, ?_, ?_, fun hit hhit => ?_⟩
  · rw [GovernedSnapshot.searchObjects, hranked]
    rfl
  · exact List.length_take_le _ _
  · obtain ⟨score, hmem⟩ := mem_of_mem_topRanked hhit
    obtain ⟨object, hobject, hrank⟩ := mem_of_mapM_ok hranked (List.reduceOption_mem_iff.mp hmem)
    rw [h.objects] at hobject
    obtain ⟨item, hitem, rfl⟩ := List.mem_map.mp hobject
    exact ⟨item, hitem, rankObject_some h hitem hrank⟩

theorem mem_searchEvidenceHits {search : EvidenceSearch} {hit : EvidenceHit}
    (hhit : hit ∈ searchEvidenceHits env snapshot search) :
    ∃ evidence ∈ snapshot.toSubstrate.evidence, hit.evidenceId = evidence.evidenceId.1 ∧
      hit.freshness = evidence.freshnessState ∧
      evidence.audienceFilter.matchesContext search.audienceContext = true := by
  obtain ⟨score, hmem⟩ := mem_of_mem_topRanked hhit
  obtain ⟨evidence, hevidence, hrank⟩ := List.mem_filterMap.mp hmem
  refine ⟨evidence.toSupportEvidence, List.mem_map_of_mem hevidence, ?_⟩
  unfold rankEvidence at hrank
  split at hrank
  · cases hrank
  rename_i hallowed
  split at hrank
  · cases hrank
  dsimp only at hrank
  split at hrank
  · cases hrank
  · obtain ⟨-, rfl⟩ := Prod.mk.injEq .. ▸ Option.some.inj hrank
    refine ⟨rfl, rfl, ?_⟩
    simpa [audienceContextAllowed] using hallowed

end Searches

section Calls

variable {env : Platform} {rows : SubstrateRows} {now : Timestamp} {snapshot : GovernedSnapshot}

/-- A read succeeds exactly if the page may be read, and shows the page as it is. -/
def ServesRead (env : Platform) (rows : SubstrateRows) (now : Timestamp) (read : KnowledgeRead)
    (result : ToolResult KnowledgeReadData) : Prop :=
  match result.data? with
  | none => ¬ ReadsPage env rows now read.channel.1 read.audienceContext read.objectId.1
  | some data => ∃ page ∈ rows.pages, ∃ trace, read.objectId.1 = governedObjectRef page.id ∧
      Readable env rows now page read.channel.1 read.audienceContext ∧
      Shows env rows page read.channel.1 read.audienceContext data.object trace ∧
      data.version = page.version ∧ data.slug = slugify env page.title ∧ data.audienceVariants = [] ∧
      data.sourceTraceSummary = if read.includeTrace then some (traceSummary trace) else none

/-- So does a trace, for the sources of the page. -/
def ServesTrace (env : Platform) (rows : SubstrateRows) (now : Timestamp) (read : SourceTraceRead)
    (result : ToolResult SourceTrace) : Prop :=
  match result.data? with
  | none => ¬ ReadsPage env rows now read.channel.1 read.audienceContext read.objectId.1
  | some trace => ∃ page ∈ rows.pages, ∃ object, read.objectId.1 = governedObjectRef page.id ∧
      Readable env rows now page read.channel.1 read.audienceContext ∧
      Shows env rows page read.channel.1 read.audienceContext object trace

theorem Shows.audienceVariants {page : GovernedPage} {channel : String} {reader : AudienceContext}
    {object : GovernedObject} {trace : SourceTrace} (h : Shows env rows page channel reader object trace) :
    object.audienceVariants = [] := by
  obtain ⟨objectType, -, hbody⟩ := h.body
  rw [GovernedObject.audienceVariants, hbody]
  cases objectType <;> rfl

theorem readKnowledgeObject_serves {served : List (GovernedPage × PageProjection)}
    (h : Loaded env rows now served snapshot) (hkeyed : KeyedRows rows)
    {arguments : KnowledgeReadArguments} {read : KnowledgeRead} (hcheck : arguments.check = .ok read) :
    ∃ result, readKnowledgeObject env snapshot arguments = .ok result ∧
      ServesRead env rows now read result := by
  simp only [readKnowledgeObject, withArguments, hcheck]
  rcases readCurrent_cases h hkeyed "Knowledge object" read.objectId.1 read.channel.1
      read.audienceContext _ with
    ⟨page, hpage, object, trace, hid, hreadable, hshows, hresult⟩ | ⟨hnot, hresult | hresult⟩
  · refine ⟨_, hresult, page, hpage, trace, hid, hreadable, hshows, hshows.version, ?_, ?_, rfl⟩
    · rw [hshows.title]
    · simp [hshows.audienceVariants]
  · exact ⟨_, hresult, hnot⟩
  · exact ⟨_, hresult, hnot⟩

theorem getSourceTrace_serves {served : List (GovernedPage × PageProjection)}
    (h : Loaded env rows now served snapshot) (hkeyed : KeyedRows rows)
    {arguments : SourceTraceArguments} {read : SourceTraceRead} (hcheck : arguments.check = .ok read) :
    ∃ result, getSourceTrace env snapshot arguments = .ok result ∧
      ServesTrace env rows now read result := by
  simp only [getSourceTrace, withArguments, hcheck]
  rcases readCurrent_cases h hkeyed "Source trace" read.objectId.1 read.channel.1
      read.audienceContext _ with
    ⟨page, hpage, object, trace, hid, hreadable, hshows, hresult⟩ | ⟨hnot, hresult | hresult⟩
  · exact ⟨_, hresult, page, hpage, object, hid, hreadable, hshows⟩
  · exact ⟨_, hresult, hnot⟩
  · exact ⟨_, hresult, hnot⟩

/-- Both reads of one object serve exactly the pages that may be read. -/
theorem governedReads_exact (hload : loadGovernedSnapshot env rows now = .ok snapshot)
    (hkeyed : KeyedRows rows) :
    (∀ (arguments : KnowledgeReadArguments) (read : KnowledgeRead), arguments.check = .ok read →
      ∃ result, readKnowledgeObject env snapshot arguments = .ok result ∧
        ServesRead env rows now read result) ∧
    ∀ (arguments : SourceTraceArguments) (read : SourceTraceRead), arguments.check = .ok read →
      ∃ result, getSourceTrace env snapshot arguments = .ok result ∧
        ServesTrace env rows now read result := by
  obtain ⟨served, h⟩ := loadGovernedSnapshot_ok hload
  exact ⟨fun _ _ hcheck => readKnowledgeObject_serves h hkeyed hcheck,
    fun _ _ hcheck => getSourceTrace_serves h hkeyed hcheck⟩

/-- What a search answers with, once it has kept of its hits what the reader may read. -/
def searchAnswer {α β : Type} (hits results : List α) (summary : String) (data : β) : ToolResult β :=
  if hits ≠ [] ∧ results = [] then .restricted
  else .success summary data none []

open Classical in
theorem searchKnowledgeObjects_keeps {served : List (GovernedPage × PageProjection)}
    (h : Loaded env rows now served snapshot) (hkeyed : KeyedRows rows)
    {arguments : KnowledgeSearchArguments} {search : KnowledgeSearch}
    (hcheck : arguments.check = .ok search) :
    ∃ hits, searchHits env snapshot search = .ok hits ∧ hits.length ≤ search.limit ∧
      (∀ hit ∈ hits, ∃ page ∈ rows.pages, hit.objectId = governedObjectRef page.id ∧
        hit.title = page.title ∧ OfferedTo rows page search.audienceContext) ∧
      let results := hits.filter fun hit =>
        ReadsPage env rows now search.channel.1 search.audienceContext hit.objectId
      searchKnowledgeObjects env snapshot arguments =
        .ok (searchAnswer hits results s!"{results.length} matching knowledge objects found"
        ⟨search, results⟩) := by
  obtain ⟨hits, hhits, hlimit, hfound⟩ := searchObjects_found h hkeyed {
    query := search.query.1, audienceContext := some search.audienceContext,
    objectTypes := (search.objectTypes.getD []).map (·.1), channel := some search.channel.1,
    limit := search.limit }
  have hkept := eligibleHits_filter KnowledgeObjectHit.freshness
    (fun hit => isAnswerDeliverable env snapshot hit.objectId search.audienceContext
      search.channel.1)
    (fun hit => ReadsPage env rows now search.channel.1 search.audienceContext hit.objectId)
    hits fun hit hhit => ?_
  · refine ⟨hits, hhits, hlimit, fun hit hhit => ?_, ?_⟩
    · obtain ⟨item, hitem, hobject, htitle, -, -, hoffered⟩ := hfound hit hhit
      obtain ⟨reader, hreader, hoffered⟩ := hoffered rfl
      obtain rfl := Option.some.inj hreader
      exact ⟨item.1, (h.pages item hitem).1, hobject, htitle, hoffered⟩
    · simp only [searchKnowledgeObjects, withArguments, hcheck]
      rw [searchHits, hhits, ok_bind, hkept, ok_bind]
      simp only [searchAnswer]
      split <;> rfl
  · refine ⟨fun hreads => ?_, isAnswerDeliverable_iff h hkeyed _ _ _⟩
    obtain ⟨item, hitem, hobject, -, -, ⟨trace, htrace, hfreshness⟩, -⟩ := hfound hit hhit
    rw [hobject, ← h.objectId hitem] at hreads
    have hreadable := readable_of_readsPage h hkeyed hitem hreads
    obtain ⟨built, hbuilt, -, hfresh, -⟩ :=
      h.buildTrace hkeyed hitem search.audienceContext search.channel.1
    obtain rfl := Except.ok.inj (htrace.symm.trans hbuilt)
    exact hfreshness.trans (hfresh.mpr ⟨hreadable.fresh, hreadable.delivered⟩)

open Classical in
theorem searchSupportEvidence_keeps {served : List (GovernedPage × PageProjection)}
    (h : Loaded env rows now served snapshot) (hkeyed : KeyedRows rows)
    {arguments : EvidenceSearchArguments} {search : EvidenceSearch}
    (hcheck : arguments.check = .ok search) :
    let hits := searchEvidenceHits env snapshot search
    let results := hits.filter fun hit =>
      ReadsEvidence env rows now search.channel.1 search.audienceContext hit.evidenceId
    hits.length ≤ search.limit ∧ searchSupportEvidence env snapshot arguments =
      .ok (searchAnswer hits results s!"{results.length} matching evidence records found"
        ⟨search, results⟩) := by
  have hkept := eligibleHits_filter EvidenceHit.freshness
    (fun hit => evidenceIsDeliverable env snapshot hit.evidenceId search.audienceContext
      search.channel.1)
    (fun hit => ReadsEvidence env rows now search.channel.1 search.audienceContext hit.evidenceId)
    (searchEvidenceHits env snapshot search) fun hit hhit => ?_
  · refine ⟨List.length_take_le _ _, ?_⟩
    simp only [searchSupportEvidence, withArguments, hcheck]
    rw [hkept, ok_bind]
    simp only [searchAnswer]
    split <;> rfl
  · refine ⟨fun hreads => ?_, evidenceIsDeliverable_iff h hkeyed _ _ _⟩
    obtain ⟨evidence, hevidence, hid, hfreshness, -⟩ := mem_searchEvidenceHits hhit
    rw [hid] at hreads
    exact hfreshness.trans (evidence_fresh h hkeyed hevidence hreads)

open Classical in
/-- Both searches return exactly those of their hits that may be read. -/
theorem governedSearches_exact (hload : loadGovernedSnapshot env rows now = .ok snapshot)
    (hkeyed : KeyedRows rows) :
    (∀ (arguments : KnowledgeSearchArguments) (search : KnowledgeSearch),
      arguments.check = .ok search →
      ∃ hits, searchHits env snapshot search = .ok hits ∧ hits.length ≤ search.limit ∧
        (∀ hit ∈ hits, ∃ page ∈ rows.pages, hit.objectId = governedObjectRef page.id ∧
          hit.title = page.title ∧ OfferedTo rows page search.audienceContext) ∧
        let results := hits.filter fun hit =>
          ReadsPage env rows now search.channel.1 search.audienceContext hit.objectId
        searchKnowledgeObjects env snapshot arguments =
          .ok (searchAnswer hits results s!"{results.length} matching knowledge objects found"
        ⟨search, results⟩)) ∧
    ∀ (arguments : EvidenceSearchArguments) (search : EvidenceSearch),
      arguments.check = .ok search →
      let hits := searchEvidenceHits env snapshot search
      let results := hits.filter fun hit =>
        ReadsEvidence env rows now search.channel.1 search.audienceContext hit.evidenceId
      hits.length ≤ search.limit ∧ searchSupportEvidence env snapshot arguments =
        .ok (searchAnswer hits results s!"{results.length} matching evidence records found"
        ⟨search, results⟩) := by
  obtain ⟨served, h⟩ := loadGovernedSnapshot_ok hload
  exact ⟨fun _ _ hcheck => searchKnowledgeObjects_keeps h hkeyed hcheck,
    fun _ _ hcheck => searchSupportEvidence_keeps h hkeyed hcheck⟩

end Calls

section Scenario

/-- The published page, with a source that is attested until 100. -/
def attestedRows : SubstrateRows :=
  { publishedRows with
    sources := [{
      id := 9, status := "ready", title := some "Handbook", fullText := some "Ten days.",
      freshnessState := "fresh", freshnessActorId := some 3, freshnessReason := some "Read again.",
      freshnessAttestedAt := some 2, freshnessExpiresAt := some 100, updatedAt := 1 }]
    bindings := [{ Retrieval.webBinding with bindingKey := "b1" }]
    deliveries := publishedRows.deliveries.map fun delivery => { delivery with
      expectedBindingVersions := .list [.object [
        ("binding_key", .str "b1"), ("version", .int 1)]] } }

def attestedSnapshot : GovernedSnapshot :=
  (loadGovernedSnapshot lowerPlatform attestedRows 6).toOption.getD {}

theorem attestedSnapshot_loaded :
    loadGovernedSnapshot lowerPlatform attestedRows 6 = .ok attestedSnapshot := by
  have hok : (loadGovernedSnapshot lowerPlatform attestedRows 6).isOk = true := by
    decide +kernel
  unfold attestedSnapshot
  cases hload : loadGovernedSnapshot lowerPlatform attestedRows 6 with
  | error e =>
    rw [hload] at hok
    cases hok
  | ok snapshot => rfl

theorem attestedRows_keyed : KeyedRows attestedRows where
  pages := by simp [attestedRows, publishedRows, Table.Keyed]
  bindings := by simp [attestedRows]
  digests := by
    intro binding hbinding
    obtain rfl := List.mem_singleton.mp hbinding
    intro c hc
    have hcases : c = 'b' ∨ c = '1' := by simpa using hc
    rcases hcases with rfl | rfl
    · exact ⟨11, by decide, by decide⟩
    · exact ⟨1, by decide, by decide⟩

def webReader : Json := .object [("visibility", .str "external")]

def webRead : KnowledgeReadArguments where
  objectId := .str (governedObjectRef 7)
  audienceContext := webReader
  channel := .str "web"

/-- A reader of the web is served the page, so it is one that may be read. -/
theorem sample_reads : ∃ read, webRead.check = .ok read ∧
    ReadsPage lowerPlatform attestedRows 6 read.channel.1 read.audienceContext read.objectId.1 := by
  have hok : (webRead.check).isOk = true := by decide +kernel
  have hserved : ((readKnowledgeObject lowerPlatform attestedSnapshot webRead).toOption.bind
      (·.data?)).isSome = true := by
    decide +kernel
  cases hcheck : webRead.check with
  | error e =>
    rw [hcheck] at hok
    cases hok
  | ok read =>
    obtain ⟨result, hresult, hserves⟩ :=
      (governedReads_exact attestedSnapshot_loaded attestedRows_keyed).1 webRead read hcheck
    rw [hresult] at hserved
    obtain ⟨data, hdata⟩ := Option.isSome_iff_exists.mp hserved
    have hdata : result.data? = some data := hdata
    rw [ServesRead, hdata] at hserves
    obtain ⟨page, hpage, -, hid, hreadable, -⟩ := hserves
    exact ⟨read, rfl, page, hpage, hid, hreadable⟩

def refundsSearch : KnowledgeSearchArguments where
  query := .str "Refunds"
  audienceContext := webReader
  channel := .str "web"

open Classical in
theorem sample_searches : ∃ search, refundsSearch.check = .ok search ∧
    ∃ hits, searchHits lowerPlatform attestedSnapshot search = .ok hits ∧
      let results := hits.filter fun hit =>
        ReadsPage lowerPlatform attestedRows 6 search.channel.1 search.audienceContext hit.objectId
      searchKnowledgeObjects lowerPlatform attestedSnapshot refundsSearch =
        .ok (searchAnswer hits results s!"{results.length} matching knowledge objects found"
          ⟨search, results⟩) := by
  have hok : (refundsSearch.check).isOk = true := by decide +kernel
  cases hcheck : refundsSearch.check with
  | error e =>
    rw [hcheck] at hok
    cases hok
  | ok search =>
    obtain ⟨hits, hhits, -, -, hresult⟩ :=
      (governedSearches_exact attestedSnapshot_loaded attestedRows_keyed).1 refundsSearch search hcheck
    exact ⟨search, rfl, hits, hhits, hresult⟩

end Scenario

end Cygnus.Integrations
