import Cygnus.Publish.DurablePreview

/-! When the command a preview compiles can be applied to the state it was compiled in. -/

namespace Cygnus.Publish

open Wiki Domain Governance Retrieval Text Result Sequence

section Execution

variable (env : Platform) (repr : BindingKey → String) (maxAttempts : Nat)

/-- Construct the command of an envelope and apply it. -/
def executeEnvelope (state : Governed) (envelope : DurableEnvelope) (actorId : Uuid)
    (ids : PublishIds) (now : Timestamp) : Durable (PublishReply × Governed) := do
  let command ← envelope.command.mapError .publishing
  applyDurablePublish env repr maxAttempts state command actorId ids now

end Execution

/-- Every source linked to the page of the signal carries an unexpired `fresh` attestation. -/
def LinkedSourcesFresh (state : Governed) (signal : GovernanceSignal) (now : Timestamp) : Prop :=
  ∀ pageId page, signal.pageId = some pageId → state.pages.get pageId = some page →
    ∀ id ∈ page.sourceIds, ∀ source, state.sources.get id = some source →
      resolveSourceFreshness source now = .fresh

/-- No stored row mentions the ids drawn for the new ones. -/
structure PublishIds.Fresh (state : Governed) (channels : List String) (ids : PublishIds) : Prop where
  publication : state.publications.get ids.publication = none
  event : state.ledger.get ids.event = none
  eventUnused : ∀ row ∈ state.publications, row.publishEventId ≠ ids.event
  propagation : ∀ channel ∈ channels, state.propagations.get (ids.propagation channel) = none
  propagationUnused : ∀ channel ∈ channels, ∀ row ∈ state.deliveries,
    row.propagationId ≠ ids.propagation channel
  delivery : ∀ channel ∈ channels, state.deliveries.get (ids.delivery channel) = none
  keyUnused : ∀ channel ∈ channels, ∀ row ∈ state.deliveries,
    row.commandId ≠ deliveryKey ids.publication channel ∧
      row.idempotencyKey ≠ deliveryKey ids.publication channel
  propagations : (channels.map ids.propagation).Nodup
  deliveries : (channels.map ids.delivery).Nodup

section Staging

variable {publication : PublicationRow} {ids : PublishIds} {shipped : Shipment}
  {state state' : Governed} {channel : String} {channels : List String}

/-- The rows of the channels can be inserted. -/
structure Stageable (publication : PublicationRow) (ids : PublishIds) (channels : List String)
    (state : Governed) : Prop where
  surface : ∀ channel ∈ channels, ∀ row ∈ state.propagations,
    ¬ (row.publicationId = publication.id ∧ row.surfaceId = channel)
  propagation : ∀ channel ∈ channels, state.propagations.get (ids.propagation channel) = none
  propagationUnused : ∀ channel ∈ channels, ∀ row ∈ state.deliveries,
    row.propagationId ≠ ids.propagation channel
  delivery : ∀ channel ∈ channels, state.deliveries.get (ids.delivery channel) = none
  keyUnused : ∀ channel ∈ channels, ∀ row ∈ state.deliveries,
    row.commandId ≠ deliveryKey publication.id channel ∧
      row.idempotencyKey ≠ deliveryKey publication.id channel
  distinct : channels.Nodup
  propagations : (channels.map ids.propagation).Nodup
  deliveries : (channels.map ids.delivery).Nodup

theorem deliveryKey_injective {publicationId : Uuid} {left right : String}
    (h : deliveryKey publicationId left = deliveryKey publicationId right) : left = right := by
  rw [← String.toList_inj] at h
  simp only [deliveryKey, String.toList_append, List.append_cancel_left_eq] at h
  exact String.toList_inj.mp h

theorem Stageable.returns_stageChannel (h : Stageable publication ids (channel :: channels) state) :
    Returns (stageChannel publication ids shipped state channel) := by
  have hhead := List.mem_cons_self (a := channel) (l := channels)
  have hpropagation : state.propagations.get
      (Row.key (publication.propagation ids shipped channel)) = none := h.propagation channel hhead
  have hdelivery : state.deliveries.get
      (Row.key (publication.delivery ids shipped channel)) = none := h.delivery channel hhead
  unfold stageChannel
  dsimp only
  refine Returns.bind (returns_require.mpr (h.surface channel hhead)) fun _ _ => ?_
  refine Returns.bind (Table.returns_insert hpropagation) fun _ _ => ?_
  refine Returns.bind (returns_require.mpr (h.propagationUnused channel hhead)) fun _ _ => ?_
  refine Returns.bind (returns_require.mpr fun row hrow => (h.keyUnused channel hhead row hrow).1)
    fun _ _ => ?_
  refine Returns.bind (returns_require.mpr fun row hrow => (h.keyUnused channel hhead row hrow).2)
    fun _ _ => ?_
  exact Returns.bind (Table.returns_insert hdelivery) fun _ _ => returns_pure _

theorem Stageable.step (h : Stageable publication ids (channel :: channels) state)
    (hstaged : stageChannel publication ids shipped state channel = .ok state') :
    Stageable publication ids channels state' := by
  have hother : ∀ other ∈ channels, channel ≠ other := by
    intro other hmem heq
    exact (List.nodup_cons.mp h.distinct).1 (heq ▸ hmem)
  have hpropagationId : ∀ other ∈ channels, ids.propagation channel ≠ ids.propagation other := by
    intro other hmem heq
    exact (List.nodup_cons.mp h.propagations).1 (heq ▸ List.mem_map_of_mem hmem)
  have hdeliveryId : ∀ other ∈ channels, ids.delivery channel ≠ ids.delivery other := by
    intro other hmem heq
    exact (List.nodup_cons.mp h.deliveries).1 (heq ▸ List.mem_map_of_mem hmem)
  obtain rfl := stageChannel_ok hstaged
  constructor
  · intro other hmem row hrow
    rcases List.mem_append.mp hrow with hold | hnew
    · exact h.surface other (List.mem_cons_of_mem _ hmem) row hold
    · obtain rfl := List.mem_singleton.mp hnew
      rintro ⟨-, hsurface⟩
      exact hother other hmem hsurface
  · intro other hmem
    rw [Table.get_append, h.propagation other (List.mem_cons_of_mem _ hmem), Option.none_or]
    exact if_neg (hpropagationId other hmem)
  · intro other hmem row hrow
    rcases List.mem_append.mp hrow with hold | hnew
    · exact h.propagationUnused other (List.mem_cons_of_mem _ hmem) row hold
    · obtain rfl := List.mem_singleton.mp hnew
      exact hpropagationId other hmem
  · intro other hmem
    rw [Table.get_append, h.delivery other (List.mem_cons_of_mem _ hmem), Option.none_or]
    exact if_neg (hdeliveryId other hmem)
  · intro other hmem row hrow
    rcases List.mem_append.mp hrow with hold | hnew
    · exact h.keyUnused other (List.mem_cons_of_mem _ hmem) row hold
    · obtain rfl := List.mem_singleton.mp hnew
      have hkey : deliveryKey publication.id channel ≠ deliveryKey publication.id other := by
        intro heq
        exact hother other hmem (deliveryKey_injective heq)
      exact ⟨hkey, hkey⟩
  · exact (List.nodup_cons.mp h.distinct).2
  · exact (List.nodup_cons.mp h.propagations).2
  · exact (List.nodup_cons.mp h.deliveries).2

theorem Stageable.returns_stageChannels (h : Stageable publication ids channels state) :
    Returns (channels.foldlM (stageChannel publication ids shipped) state) := by
  induction channels generalizing state with
  | nil => exact returns_pure _
  | cons channel channels ih =>
    rw [List.foldlM_cons]
    exact Returns.bind h.returns_stageChannel fun _ hstaged => ih (h.step hstaged)

end Staging

section Qualification

variable {env : Platform} {state : Governed} {signal : GovernanceSignal}
  {now previewed : Timestamp} {envelope : DurableEnvelope} {page : GovernedPage}
  {object : KnowledgeObject} {sources : List AttestedSource} {draft : GovernedDraft}
  {approval : GovernanceLedgerEvent} {command : DurablePublishCommand}

theorem mem_of_mapM_some {ids : List Uuid} {get : Uuid → Option AttestedSource}
    (h : ids.mapM get = some sources) {source : AttestedSource} (hsource : source ∈ sources) :
    ∃ id ∈ ids, get id = some source := by
  induction ids generalizing sources with
  | nil =>
    obtain rfl := Option.some.inj h
    cases hsource
  | cons id ids ih =>
    simp only [List.mapM_cons, Option.bind_eq_bind, Option.bind_eq_some_iff, Option.pure_def,
      Option.some.injEq] at h
    obtain ⟨first, hfirst, rest, hrest, rfl⟩ := h
    rcases List.mem_cons.mp hsource with rfl | hsource
    · exact ⟨id, List.mem_cons_self, hfirst⟩
    · obtain ⟨other, hother, hget⟩ := ih hrest hsource
      exact ⟨other, List.mem_cons_of_mem _ hother, hget⟩

theorem Compiled.fresh
    (h : Compiled env state signal previewed envelope page object sources draft approval)
    (hfresh : LinkedSourcesFresh state signal now) :
    ∀ source ∈ sources, resolveSourceFreshness source now = .fresh := by
  intro source hsource
  obtain ⟨pageId, hpageId, hpage⟩ := h.signalPage
  obtain ⟨id, hid, hget⟩ := mem_of_mapM_some h.sources_eq hsource
  exact hfresh pageId page hpageId hpage id (List.mem_eraseDups.mp hid) source hget

theorem freshnessViolations_nil (h : ∀ source ∈ sources, resolveSourceFreshness source now = .fresh) :
    freshnessViolations sources now = [] := by
  rw [freshnessViolations, List.filterMap_eq_nil_iff]
  intro source hsource
  rw [h source hsource]

theorem Compiled.qualifyReview_eq
    (h : Compiled env state signal previewed envelope page object sources draft approval)
    (hsound : state.Sound) (hcarries : Carries envelope signal command)
    (hstands : currentApprovalDigest env draft page = envelope.approvalDigest)
    (hdigest : IsDigest envelope.approvalDigest) :
    qualifyReview env state command =
      .ok ⟨draft, approval, envelope.approvalDigest, page⟩ := by
  obtain ⟨hdraft, hdraftPage, happroved⟩ := latestApprovedDraft_some h.draft_eq
  obtain ⟨happroval, hisApproval⟩ := latestApproval_some h.approval_eq
  obtain ⟨pageId, -, hpage⟩ := h.signalPage
  have hpageId : page.id = pageId := Table.get_key hpage
  have hget : state.drafts.get command.draftId = some draft := by
    rw [hcarries.draftId, h.draftId]
    exact hsound.drafts.get_of_mem hdraft
  have hevent : getApprovalEvent state draft.id command.approvalRef = some approval := by
    rw [hcarries.approvalRef, h.approvalRef]
    exact getApprovalEvent_of_mem hsound.ledger happroval hisApproval
  have hversion : page.version = command.expectedVersion := by
    rw [hcarries.version, h.version]
  simp only [qualifyReview, bind_ok, require_ok, demand_ok, pure_ok]
  refine ⟨draft, hget, (), happroved, approval, hevent, page.id, hdraftPage, page, ?_, (), hversion,
    envelope.approvalDigest, h.digest, (), ⟨hstands, ?_⟩, rfl⟩
  · rw [hpageId]
    exact hpage
  · rw [hcarries.approvalDigest hdigest]
    exact hstands

theorem Compiled.qualifySources_eq
    (h : Compiled env state signal previewed envelope page object sources draft approval)
    (hfresh : ∀ source ∈ sources, resolveSourceFreshness source now = .fresh) :
    qualifySources state page now = .ok sources := by
  simp only [qualifySources, bind_ok, require_ok, demand_ok, pure_ok]
  exact ⟨(), h.linked, sources, h.sources_eq, (), h.ready, (), freshnessViolations_nil hfresh, rfl⟩

theorem Compiled.qualifySignal_eq
    (h : Compiled env state signal previewed envelope page object sources draft approval)
    (hsound : state.Sound) (hsignal : signal ∈ state.signals)
    (hcarries : Carries envelope signal command) :
    qualifySignal state command page object = .ok signal := by
  obtain ⟨pageId, hpageId, hpage⟩ := h.signalPage
  have hget : state.signals.get command.signalId = some signal := by
    rw [hcarries.signalId, h.signalId]
    exact hsound.signals.get_of_mem hsignal
  have hpageEq : signal.pageId = some page.id := by
    rw [hpageId, ← Table.get_key hpage]
    rfl
  simp only [qualifySignal, bind_ok, require_ok, demand_ok, pure_ok]
  exact ⟨signal, hget, (), ⟨hpageEq, h.object_eq.symm⟩, (), h.active, (), hcarries.freshness.symm,
    rfl⟩

theorem Compiled.publishScope_eq
    (h : Compiled env state signal previewed envelope page object sources draft approval)
    (hsound : state.Sound) (hcarries : Carries envelope signal command) (hle : previewed ≤ now)
    (hfresh : ∀ source ∈ sources, resolveSourceFreshness source now = .fresh) :
    publishScopeDigest env
      ⟨approval.id, envelope.approvalDigest, page.version,
        activeBindingRows state.bindings page.id signal.objectRef,
        orderedSourceScopeState env now sources, signal.freshness.value, command.actionKey,
        command.targetChannels, signal.id, signal.status.value⟩ = .ok command.scopeDigest := by
  have hstate : orderedSourceScopeState env previewed sources =
      orderedSourceScopeState env now sources :=
    orderedSourceScopeState_fresh
      (fun source hsource => resolveSourceFreshness_earlier hle (hfresh source hsource)) hfresh
  have hperm := @publishScopeDigest_perm env ⟨approval.id, envelope.approvalDigest, page.version,
    listActiveBindings state page.id signal.objectRef, orderedSourceScopeState env now sources,
    signal.freshness.value, envelope.actionKey, envelope.targetChannels, signal.id,
    signal.status.value⟩ _ (listActiveBindings_perm state page.id signal.objectRef)
    (hsound.nodup_listActiveBindings page.id signal.objectRef)
  rw [hcarries.scopeDigest, ← h.scope, hcarries.actionKey, hcarries.channels, hstate, hperm]

/-- The checks of an apply find what the preview found. -/
theorem Compiled.qualify_eq
    (h : Compiled env state signal previewed envelope page object sources draft approval)
    (hsound : state.Sound) (hsignal : signal ∈ state.signals)
    (hcarries : Carries envelope signal command) (hle : previewed ≤ now)
    (hfresh : LinkedSourcesFresh state signal now)
    (hstands : currentApprovalDigest env draft page = envelope.approvalDigest)
    (hdigest : IsDigest envelope.approvalDigest) :
    qualify env state command now = .ok ⟨⟨draft, approval, envelope.approvalDigest, page⟩, sources,
      object, activeBindingRows state.bindings page.id signal.objectRef⟩ := by
  have hobject : wikiPageToKnowledgeObject env page
      (page.sourceIds.eraseDups.map fun id => s!"ev-src-{id.text}") = .ok (some object) := by
    refine wikiPageToKnowledgeObject_evidence h.projected ?_
    intro evidence hevidence
    obtain ⟨id, -, rfl⟩ := List.mem_map.mp hevidence
    exact strip_evidenceId id
  have hbound : activeBindingRows state.bindings page.id signal.objectRef ≠ [] := by
    intro hnil
    have hperm := listActiveBindings_perm state page.id signal.objectRef
    rw [hnil] at hperm
    exact h.bound (List.perm_nil.mp hperm)
  simp only [qualify, bind_ok, require_ok, demand_ok, mapError_ok, pure_ok]
  refine ⟨_, h.qualifyReview_eq hsound hcarries hstands hdigest, sources,
    h.qualifySources_eq (h.fresh hfresh), some object, hobject, object, rfl, (), ?_, signal,
    h.qualifySignal_eq hsound hsignal hcarries, command.scopeDigest, ?_, (), rfl, ?_⟩
  · rw [h.object_eq]
    exact hbound
  · rw [h.object_eq]
    exact h.publishScope_eq hsound hcarries hle (h.fresh hfresh)
  · rw [h.object_eq]

end Qualification

section Publication

variable {env : Platform} {repr : BindingKey → String} {maxAttempts : Nat} {state : Governed}
  {command : DurablePublishCommand} {actorId : Uuid} {ids : PublishIds} {now : Timestamp}
  {qualified : Qualified}

/-- The state of its draft that the event of a publication leaves. -/
def publishFrom (state : Governed) (objectRef : String) : GovernanceState :=
  if (latestPublicationForObject state objectRef).isSome then .published else .approved

theorem publishEvent_from (publicationId actorId : Uuid) (result : PublishGovernanceResult)
    (desiredDigest : String) :
    (publishEvent env publicationId actorId command qualified
      ((currentBindings state qualified.object.objectId).getD []) result desiredDigest).fromState =
        some (publishFrom state qualified.object.objectId) := by
  unfold publishEvent publishFrom currentBindings
  dsimp only
  cases latestPublicationForObject state qualified.object.objectId with
  | none => rfl
  | some latest => exact congrArg some (if_pos latest.result.updatedCandidate.targeted)

theorem Staged.findKey_none (h : Staged state)
    (hnew : ∀ publication ∈ state.publications, publication.commandId ≠ command.commandId) :
    findKey state.ledger (.publish command.commandId) = none := by
  rw [Governance.findKey_none]
  intro event hevent hkey
  obtain ⟨publication, hpublication, hid⟩ := h.events event hevent _ hkey
  exact hnew publication hpublication hid

theorem PublishIds.Fresh.stageable (h : ids.Fresh state command.targetChannels)
    (hstaged : Staged state) (hdistinct : command.targetChannels.Nodup)
    {publication : PublicationRow} (hid : publication.id = ids.publication) {state' : Governed}
    (hpropagations : state'.propagations = state.propagations)
    (hdeliveries : state'.deliveries = state.deliveries) :
    Stageable publication ids command.targetChannels state' := by
  constructor
  · rintro channel - row hrow ⟨howner, -⟩
    rw [hpropagations] at hrow
    obtain ⟨other, hother, hrow⟩ := hstaged.propagations row hrow
    exact Table.get_eq_none.mp h.publication other hother ((hrow.trans howner).trans hid)
  · rw [hpropagations]
    exact h.propagation
  · rw [hdeliveries]
    exact h.propagationUnused
  · rw [hdeliveries]
    exact h.delivery
  · rw [hid, hdeliveries]
    exact h.keyUnused
  · exact hdistinct
  · exact h.propagations
  · exact h.deliveries

/-- A qualified command under a new id is refused for its action or for the state of its draft. -/
theorem returns_publish_iff (hqualified : qualify env state command now = .ok qualified)
    (hstaged : Staged state)
    (hnew : ∀ publication ∈ state.publications, publication.commandId ≠ command.commandId)
    (hids : ids.Fresh state command.targetChannels) (hdistinct : command.targetChannels.Nodup)
    {reason : String} (hreason : command.reason = some reason) (hblank : strip reason ≠ "") :
    Returns (publish env repr maxAttempts state command actorId ids now) ↔
      Returns (publishBindings repr command qualified.object
          (currentBindings state qualified.object.objectId) qualified.rows) ∧
        ledgerState state.ledger qualified.draft.id =
          some (publishFrom state qualified.object.objectId) := by
  have hkey := hstaged.findKey_none hnew
  constructor
  · rintro ⟨⟨reply, state'⟩, h⟩
    obtain ⟨qualified', result, event, ledger, hqualified', hresult, hevent, -, -, -⟩ := publish_ok h
    obtain rfl := Except.ok.inj (hqualified.symm.trans hqualified')
    refine ⟨⟨result, hresult⟩, ?_⟩
    have hfrom := (appendDraftEvent_fresh hevent hkey).from_eq
    rw [publishEvent_from] at hfrom
    exact hfrom
  · rintro ⟨⟨result, hresult⟩, hledger⟩
    have hevent : Returns (appendDraftEvent state.ledger ids.event (publishEvent env ids.publication
        actorId command qualified ((currentBindings state qualified.object.objectId).getD []) result
        (shipment env ids.publication command qualified maxAttempts).desiredDigest)) := by
      refine (returns_appendDraftEvent_iff ?_ hkey hids.event).mpr ?_
      · have hsome : (some (command.reason.getD s!"durable publish action {command.actionKey}")).map
            strip ≠ some "" := by
          rw [hreason]
          simpa using hblank
        exact hsome
      · rw [publishEvent_from]
        exact hledger
    obtain ⟨⟨event, ledger⟩, hevent⟩ := hevent
    have hid : event.id = ids.event := (appendDraftEvent_fresh hevent hkey).id_eq
    unfold publish
    rw [hqualified, ok_bind]
    refine returns_bind.mpr ⟨result, mapError_ok.mpr hresult, ?_⟩
    refine returns_bind.mpr ⟨(event, ledger), mapError_ok.mpr hevent, ?_⟩
    refine Returns.bind (returns_require.mpr ?_) fun _ _ => ?_
    · intro row hrow
      have hunused := hids.eventUnused row hrow
      rw [← hid] at hunused
      exact hunused
    · refine Returns.bind (Table.returns_insert hids.publication) fun publications _ => ?_
      refine Returns.bind (Stageable.returns_stageChannels ?_) fun _ _ => returns_pure _
      exact hids.stageable hstaged hdistinct rfl rfl rfl

end Publication

end Cygnus.Publish
