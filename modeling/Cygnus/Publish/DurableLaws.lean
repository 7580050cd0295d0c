import Cygnus.Governance.LedgerLaws
import Cygnus.Publish.DurableApply

/-! What a publish command does to the rows, and that over any run of commands each one is published
once. -/

namespace Cygnus.Publish

open Wiki Domain Governance Retrieval Text Result Sequence

variable {env : Platform} {repr : BindingKey → String} {maxAttempts : Nat}
  {state state' : Governed} {command : DurablePublishCommand} {actorId : Uuid} {ids : PublishIds}
  {now : Timestamp} {reply : PublishReply}

section Staging

variable {publication : PublicationRow} {shipped : Shipment}

theorem stageChannel_ok {channel : String}
    (h : stageChannel publication ids shipped state channel = .ok state') :
    state' = { state with
      propagations := state.propagations ++ [publication.propagation ids shipped channel],
      deliveries := state.deliveries ++ [publication.delivery ids shipped channel] } := by
  simp only [stageChannel, bind_ok, require_ok, pure_ok] at h
  obtain ⟨-, -, propagations, hpropagations, -, -, -, -, -, -, deliveries, hdeliveries, rfl⟩ := h
  rw [(Table.insert_ok hpropagations).2, (Table.insert_ok hdeliveries).2]

/-- The staging loop adds one propagation and one delivery for each channel. -/
theorem stageChannels_ok {channels : List String}
    (h : channels.foldlM (stageChannel publication ids shipped) state = .ok state') :
    state' = { state with
      propagations := state.propagations ++ channels.map (publication.propagation ids shipped),
      deliveries := state.deliveries ++ channels.map (publication.delivery ids shipped) } := by
  induction channels generalizing state with
  | nil =>
    obtain rfl := pure_ok.mp h
    simp
  | cons channel channels ih =>
    rw [List.foldlM_cons, bind_ok] at h
    obtain ⟨staged, hstaged, h⟩ := h
    rw [ih h, stageChannel_ok hstaged]
    simp

end Staging

theorem DurablePublishCommand.make_ok {draftId approvalRef : Uuid}
    {approvalDigest scopeDigest : String} {signalId : Uuid}
    {signalFreshness commandId actionKey : String} {targetChannels : List String}
    {expectedVersion : Int} {reason : Option String}
    (h : DurablePublishCommand.make draftId approvalRef approvalDigest scopeDigest signalId
      signalFreshness commandId actionKey targetChannels expectedVersion reason = .ok command) :
    command.draftId = draftId ∧ command.approvalRef = approvalRef ∧ command.signalId = signalId ∧
      command.commandId = strip commandId ∧ command.actionKey = strip actionKey ∧
      command.reason = reason.map strip ∧ command.expectedVersion = expectedVersion.toNat ∧
      FreshnessAttestation.parse (strip signalFreshness) = some command.signalFreshness ∧
      requireDigest "approval_digest" approvalDigest = .ok command.approvalDigest ∧
      requireDigest "scope_digest" scopeDigest = .ok command.scopeDigest ∧
      normalizeLabelled "target channel" targetChannels = .ok command.targetChannels := by
  simp only [make, bind_ok, require_ok] at h
  obtain ⟨-, -, -, -, -, -, -, -, -, -, h⟩ := h
  split at h
  · cases h
  · rename_i freshness hfreshness
    simp only [bind_ok] at h
    obtain ⟨approval, happroval, scope, hscope, h⟩ := h
    split at h
    · cases h
    · rename_i channels hchannels
      split at h
      · cases h
        exact ⟨rfl, rfl, rfl, rfl, rfl, rfl, rfl, hfreshness, happroval, hscope, hchannels⟩
      · cases h

theorem qualifyReview_ok {reviewed : Reviewed} (h : qualifyReview env state command = .ok reviewed) :
    state.drafts.get command.draftId = some reviewed.draft ∧
      reviewed.draft.status = .approved ∧
      getApprovalEvent state reviewed.draft.id command.approvalRef = some reviewed.approval ∧
      (∃ pageId, reviewed.draft.pageId = some pageId ∧ state.pages.get pageId = some reviewed.page) ∧
      reviewed.page.version = command.expectedVersion ∧
      storedApprovalDigest reviewed.approval = some reviewed.approvalDigest ∧
      currentApprovalDigest env reviewed.draft reviewed.page = reviewed.approvalDigest ∧
      reviewed.approvalDigest = command.approvalDigest := by
  simp only [qualifyReview, bind_ok, require_ok, demand_ok, pure_ok] at h
  obtain ⟨draft, hdraft, -, hstatus, approval, happroval, pageId, hpageId, page, hpage, -, hversion,
    stored, hstored, -, ⟨hcurrent, hcommand⟩, rfl⟩ := h
  exact ⟨hdraft, hstatus, happroval, ⟨pageId, hpageId, hpage⟩, hversion, hstored, hcurrent,
    hcurrent.symm.trans hcommand⟩

theorem qualify_reviewed {qualified : Qualified} (h : qualify env state command now = .ok qualified) :
    qualifyReview env state command = .ok qualified.toReviewed := by
  simp only [qualify, bind_ok, require_ok, demand_ok, pure_ok] at h
  obtain ⟨reviewed, hreviewed, _, _, _, _, _, _, _, _, _, _, _, _, _, _, rfl⟩ := h
  exact hreviewed

/-- The live bindings of the object's latest publication. -/
def currentBindings (state : Governed) (objectId : String) : Option (List PublishBinding) :=
  (latestPublicationForObject state objectId).map (·.result.updatedCandidate.targetBindings)

/-- The rows a publication adds, and the parts they are made of. -/
def Publishes (env : Platform) (repr : BindingKey → String) (maxAttempts : Nat)
    (state : Governed) (command : DurablePublishCommand) (actorId : Uuid) (ids : PublishIds)
    (now : Timestamp) (publication : PublicationRow) (state' : Governed) : Prop :=
  ∃ qualified result event ledger,
    qualify env state command now = .ok qualified ∧
    publishBindings repr command qualified.object
      (currentBindings state qualified.object.objectId) qualified.rows = .ok result ∧
    appendDraftEvent state.ledger ids.event (publishEvent env ids.publication actorId command
      qualified ((currentBindings state qualified.object.objectId).getD []) result
      (shipment env ids.publication command qualified maxAttempts).desiredDigest) =
        .ok (event, ledger) ∧
    publication = publicationRow env ids.publication actorId event.id command qualified result now ∧
    state.publications.get ids.publication = none ∧
    state' = { state with
      pages := state.pages.put
        { qualified.page with status := effectiveObjectStatus result qualified.page.status },
      ledger := ledger, publications := state.publications ++ [publication],
      propagations := state.propagations ++ command.targetChannels.map
        (publication.propagation ids (shipment env ids.publication command qualified maxAttempts)),
      deliveries := state.deliveries ++ command.targetChannels.map
        (publication.delivery ids (shipment env ids.publication command qualified maxAttempts)) }

theorem publish_ok
    (h : publish env repr maxAttempts state command actorId ids now = .ok (reply, state')) :
    Publishes env repr maxAttempts state command actorId ids now reply.publication state' := by
  simp only [publish, bind_ok, mapError_ok, require_ok, pure_ok, Prod.mk.injEq] at h
  obtain ⟨qualified, hqualified, result, hresult, ⟨event, ledger⟩, hevent, -, -, publications,
    hinsert, staged, hstaged, rfl, rfl⟩ := h
  obtain ⟨hfree, rfl⟩ := Table.insert_ok hinsert
  exact ⟨qualified, result, event, ledger, hqualified, hresult, hevent, rfl, hfree,
    stageChannels_ok hstaged⟩

/-- A command is answered from the publication that holds its id, or publishes. -/
theorem applyDurablePublish_ok
    (h : applyDurablePublish env repr maxAttempts state command actorId ids now =
      .ok (reply, state')) :
    (state' = state ∧ reply.replayed = true) ∨
      (∀ publication ∈ state.publications, publication.commandId ≠ command.commandId) ∧
        Publishes env repr maxAttempts state command actorId ids now reply.publication state' := by
  unfold applyDurablePublish at h
  split at h
  · simp only [bind_ok, require_ok, pure_ok, Prod.mk.injEq] at h
    obtain ⟨-, -, rfl, rfl⟩ := h
    exact .inl ⟨rfl, rfl⟩
  · rename_i hnone
    refine .inr ⟨?_, publish_ok h⟩
    simpa using hnone

end Cygnus.Publish
